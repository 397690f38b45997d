/-
How an await of a guard on the state alone can fail.

The wait for such a guard asks more parts than the guard itself would, and the
await keeps the failure of its wait. So the body may be told of a failure
although the guard, asked at the same moment, would have been false. But some
part of the guard has failed on the state of the cog while the body waited.
-/
import ObjectGroups.Proofs.StateOnly
import ObjectGroups.Proofs.WakeUps

namespace ObjectGroups

open Machine

variable {S A V : Type} {start m m' : Machine S A V} {g : CogId} {c : ContextId}
  {x x' : Cog S A V} {aw : Awaiting S A V} {phase phase' : Phase S} {t t' : Thread S A V}
  {act : Action S A V}

namespace Machine

/-- While the thread was in the await, one of the parts of the guard failed on the state of the cog. -/
def Faulted (start : Machine S A V) (c : ContextId) (g : CogId) (aw : Awaiting S A V)
    (m : Machine S A V) : Prop :=
  ∃ m₀ x q e, Reachable start m₀ ∧ m₀.cogs.get? g = some x ∧ q ∈ aw.guard.conjuncts ∧
    q.evaluate m₀.sight x.state = .error e ∧ Stays (·.Awaits c g aw) m₀ m

theorem Faulted.later (h : Faulted start c g aw m) (ha : m.act act = some m') (awaits : m'.Awaits c g aw) :
    Faulted start c g aw m' := by
  obtain ⟨m₀, x, q, e, hr, hx, hq, he, stays⟩ := h
  exact ⟨m₀, x, q, e, hr, hx, hq, he, .act stays ha awaits⟩

/-- The wait is for some of the parts of the guard. -/
def Asks (aw : Awaiting S A V) (q : Guard S) : Prop :=
  q.stateOnly = true ∧ ∀ q' ∈ q.conjuncts, q' ∈ aw.guard.conjuncts

/-- A failure that the await has been told of is that of a part of its guard. -/
structure Blames (start : Machine S A V) (m : Machine S A V) (c : ContextId) (g : CogId)
    (aw : Awaiting S A V) (phase : Phase S) : Prop where
  failure (e : GuardError) : phase.failure? = some e → Faulted start c g aw m
  within (w : Wait S) : phase = .wait w → w.Within (Asks aw)
  result (w : Wait S) (r : Answer) : phase = .wait w → w.point = .done r →
    (∃ b, r = .ok b) ∨ r = .error .interrupted ∨ Faulted start c g aw m

end Machine

theorem Guard.asks_inherited : Guard.Inherited (Asks aw) where
  all h g hg := ⟨allStateOnly_iff.mp h.1 g hg, fun q hq => h.2 q (mem_conjunctsOf.mpr ⟨g, hg, hq⟩)⟩
  timer h := by cases h.1
  user h := by cases h.1

namespace Machine

/-- Outside of the wait only a failure that has been found is to blame. -/
theorem Blames.quiet (hw : ∀ w, phase ≠ .wait w)
    (hf : ∀ e, phase.failure? = some e → Faulted start c g aw m) : Blames start m c g aw phase :=
  ⟨hf, fun w e => absurd e (hw w), fun w _ e => absurd e (hw w)⟩

theorem Blames.begins (h : phase.Begins x c aw) (hg : aw.guard.stateOnly = true) :
    Blames start m c g aw phase := by
  cases h with
  | wait =>
    refine ⟨fun _ he => (by cases he), ?_, ?_⟩
    · intro w hw
      cases hw
      exact .start ⟨hg, fun _ => id⟩
    · intro w r hw hr
      cases hw
      cases hr
  | _ => exact .quiet (by simp) fun _ he => by cases he

/-- The answer of a wait is one of its guard, or that of a part that has failed. -/
theorem blamed_answer {point : WaitPoint S} {r : Answer} (hr : Reachable start m)
    (hs : m.Stands c g x t aw phase) (within : point.Within (Asks aw))
    (h : point.Answers m.sight x.state r) : (∃ b, r = .ok b) ∨ Faulted start c g aw m := by
  have asked {q : Guard S} (hq : Asks aw q) (single : q.conjuncts = [q]) :
      (∃ b, q.evaluate m.sight x.state = .ok b) ∨ Faulted start c g aw m := by
    cases he : q.evaluate m.sight x.state with
    | ok b => exact .inl ⟨b, rfl⟩
    | error e =>
      exact .inr ⟨m, x, q, e, hr, hs.cog, hq.2 q (by simp [single]), he, .refl hs.in_await⟩
    | panic p => exact absurd he (Guard.evaluate_ne_panic (Guard.library_of_stateOnly hq.1) _ _ p)
  cases h with
  | field | polled | last => exact asked within rfl
  | aimFailed hd =>
    rw [Guard.deadline_nowhere (Guard.timed_of_stateOnly within.1 _)] at hd
    cases hd
  | user => exact within.elim
  | _ => exact .inl ⟨_, rfl⟩

theorem blames_wait {w : Wait S} {move : WaitMove S} (hr : Reachable start m)
    (hs : m.Stands c g x t aw (.wait w)) (h : Blames start m c g aw (.wait w))
    (hw : w.step m.sight x.state (m.parker (.own c)) = some move) {r : Answer}
    (done : move.wait.point = .done r) :
    (∃ b, r = .ok b) ∨ r = .error .interrupted ∨ Faulted start c g aw m := by
  have within := h.within w rfl
  cases Wait.step_paces hw with
  | goes hy => cases hy with
    | answers answers =>
      cases done
      exact (blamed_answer hr hs within.point answers).imp_right .inr
    | _ => cases done
  | subscribeFailed hsub =>
    rw [Guard.sources_stateOnly within.point.1] at hsub
    cases hsub
  | @wakes d sleep after frames res p' hlook =>
    have failed {e : GuardError} (he : WaitPoint.afterPark (.error e) after = .done r)
        (hres : res = .error e) (hu : ∀ u next, after ≠ .user u next) : r = .error .interrupted := by
      subst hres
      obtain ⟨rfl, -⟩ := Parker.look_error hlook
      cases after with
      | user u next => exact absurd rfl (hu u next)
      | _ =>
        cases he
        rfl
    cases after with
    | user u next => exact within.point.elim
    | _ => cases res with
      | ok _ => cases done
      | error e => exact .inr (.inl (failed done rfl (by simp)))
  | @ends r₀ r' held gs frames ends =>
    cases done
    rcases ends with ⟨b, rfl, rfl⟩ | rfl
    · exact .inl ⟨_, rfl⟩
    · exact h.result _ _ rfl rfl
  | _ => cases done

/-- A step of its own. -/
theorem blames_own (hr : Reachable start m) (ha : m.act act = some m') (hg : aw.guard.stateOnly = true)
    (hs : m.Stands c g x t aw phase) (h : Blames start m c g aw phase)
    (hs' : m'.Stands c g x' t' aw phase') (proceeds : Proceeds m c g x aw m' phase phase') :
    Blames start m' c g aw phase' := by
  have kept (h : Faulted start c g aw m) : Faulted start c g aw m' := h.later ha hs'.in_await
  cases proceeds with
  | waits hres hw =>
    refine ⟨fun _ he => (by cases he), fun w e => ?_, fun w r e done => ?_⟩
    · cases e
      exact (h.within _ rfl).step Guard.asks_inherited hw
    · cases e
      exact (blames_wait hr hs h hw done).imp_right (.imp_right kept)
  | answered hres hp => rcases hp with rfl | rfl <;> exact .quiet (by simp) fun _ he => by cases he
  | @waitFailed w r e hres he hne =>
    refine .quiet (by simp) fun _ _ => kept ?_
    have done : w.point = .done r := by
      obtain ⟨point, frames⟩ := w
      unfold Wait.result? at hres
      split at hres
      · next hp _ =>
        cases hres
        exact hp
      · cases hres
    rcases h.result w r rfl done with ⟨b, rfl⟩ | rfl | faulted
    · cases he
    · cases he
      exact absurd rfl hne
    · exact faulted
  | subscribeFailed hsub =>
    rw [Guard.sources_stateOnly hg] at hsub
    cases hsub
  | aimFailed hd =>
    rw [Guard.deadline_nowhere (Guard.timed_of_stateOnly hg _)] at hd
    cases hd
  | reentersFailed | taken | sleeps | wakes => exact .quiet (by simp) fun e he => kept (h.failure e he)
  | _ => exact .quiet (by simp) fun _ he => by cases he

/-- While others act. -/
theorem blames_other (ha : m.act act = some m') (hs : m.Stands c g x t aw phase)
    (h : Blames start m c g aw phase) (hm : m.Stirred m' (.context c)) (hx' : m'.cogs.get? g = some x') :
    ∃ t' phase', m'.Stands c g x' t' aw phase' ∧ Blames start m' c g aw phase' := by
  obtain ⟨p, t', hs', -⟩ := hs.stirred hm hx'
  refine ⟨t', _, hs', ?_⟩
  have kept (h : Faulted start c g aw m) : Faulted start c g aw m' := h.later ha hs'.in_await
  have same : Blames start m' c g aw phase :=
    ⟨fun e he => kept (h.failure e he), h.within,
      fun w r hw hr => (h.result w r hw hr).imp_right (.imp_right kept)⟩
  cases p with
  | false => exact same
  | true =>
    refine ⟨fun e he => same.failure e (phase.failure_rouse ▸ he), fun w hw => ?_, fun w r hw hr => ?_⟩
    · cases phase with
      | wait w₀ =>
        cases hw
        exact (same.within w₀ rfl).notify
      | _ => cases hw
    · cases phase with
      | wait w₀ =>
        cases hw
        refine same.result w₀ r rfl ?_
        obtain ⟨point, frames⟩ := w₀
        cases point with
        | park => cases hr
        | _ => exact hr
      | _ => cases hw

theorem Reachable.blames (h : Reachable start m) (ho : start.Ordered)
    (hf : start.Follows fun c g _ aw phase => aw.guard.stateOnly = true → Blames start start c g aw phase) :
    m.Follows fun c g _ aw phase => aw.guard.stateOnly = true → Blames start m c g aw phase := by
  induction h with
  | refl => exact hf
  | @act n n' act hn ha ih =>
    refine follows_act (ho.reachable hn) ha ih ?_ ?_
    · intro c g x x' t t' aw phase phase' hact hs before hs' proceeds hg
      exact blames_own hn ha hg hs (before.elim (.begins · hg) (· hg)) hs' proceeds
    · intro c g x x' t aw phase hne hs before hm hx'
      by_cases hg : aw.guard.stateOnly = true
      · obtain ⟨t', phase', hs', blames⟩ :=
          blames_other ha hs (before.elim (.begins · hg) (· hg)) hm hx'
        exact ⟨t', phase', hs', fun _ => blames⟩
      · obtain ⟨p, t', hs', -⟩ := hs.stirred hm hx'
        exact ⟨t', _, hs', fun hg' => absurd hg' hg⟩

/-- What one action makes of an await of a guard on the state alone. -/
inductive Verdict (start m : Machine S A V) (c : ContextId) (g : CogId) (aw : Awaiting S A V)
    (m' : Machine S A V) : Prop where
  | awaits : m'.Awaits c g aw → Verdict start m c g aw m'
  | resumes {x : Cog S A V} : m.cogs.get? g = some x → aw.guard.poll m.sight x.state = .ok true →
      Answered c g aw (.ok ()) m' → Verdict start m c g aw m'
  | interrupted {t : Thread S A V} : m'.threads.get? (.context c) = some t →
      t.control.behind = .run (some ⟨aw.task, false⟩) (aw.next (.error .interrupted)) →
      Verdict start m c g aw m'
  /-- The body is told of a failure, and one of the parts of the guard has failed. -/
  | fails (e : GuardError) : Answered c g aw (.error (.guard e)) m' → Faulted start c g aw m →
      Verdict start m c g aw m'

/-- An await of a guard on the state alone fails only if one of its parts does. -/
theorem Awaits.verdict {r : Registry} {memory : A} (h : Reachable (.empty r memory) m)
    (hg : aw.guard.stateOnly = true) (awaits : m.Awaits c g aw) (ha : m.act act = some m') :
    Verdict (.empty r memory) m c g aw m' := by
  have ho : m.Ordered := h.ordered
  obtain ⟨t, ht, home, hk⟩ := id awaits
  have hl := look_eq m _ ht
  by_cases hact : act = .step (.context c)
  · subst hact
    rw [home] at hl
    obtain ⟨-, x, hx⟩ := ho.home hl
    obtain ⟨k, ht', treads⟩ := step_treads ho ht home hx hk ha
    have follows := h.blames (ordered_empty r memory) (fun c t g x ht => by cases ht) c t g x ht home hx
    generalize hc : t.control = control at treads
    have goesOn (hk' : k.await? = some aw) : Verdict (.empty r memory) m c g aw m' :=
      .awaits ⟨_, ht', home, hk'⟩
    cases treads with
    | tells _ _ hk' => exact goesOn hk'
    | hands hands => cases hands with
      | goesOn => exact goesOn rfl
      | enlists hk => exact goesOn (Control.await?_of_behind hk)
      | unwinds hn =>
        have panics : Unwinds m c g aw := .name (by rw [hl, hc]; rfl) hn
        exact absurd panics (h.housed.not_unwinds ho (Guard.library_of_stateOnly hg))
    | strides strides =>
      have hs : m.Stands c g x t aw _ := ⟨ht, home, hx, hc⟩
      cases strides with
      | hands => exact goesOn rfl
      | enlists hk => exact goesOn (Control.await?_of_behind hk)
      | marked hk => exact goesOn (Control.await?_of_behind hk)
      | proceeds => exact goesOn rfl
      | aborts _ hb => exact .interrupted ht' hb
      | fails free hfailure hb =>
        refine .fails _ ⟨_, ht', home, hb⟩ ?_
        rcases hfailure with rfl | ⟨rfl, he⟩
        · rw [hc] at follows
          have blames := follows.awaiting.elim (Blames.begins · hg) (· hg)
          exact blames.failure _ rfl
        · obtain ⟨e', he'⟩ := Guard.askAll_failed hg he
          obtain ⟨q, hq, e', he'⟩ := (Guard.askAll_fails hg _ _).mp ⟨e', he'⟩
          exact ⟨m, x, q, e', h, hx, hq, he', .refl awaits⟩
      | unwinds hp => exact absurd hp (Guard.evaluate_ne_panic (Guard.library_of_stateOnly hg) _ _ _)
      | resumes free holds hb => exact .resumes hx holds ⟨_, ht', home, hb⟩
  · exact .awaits (awaits.stays ho ha (Action.actor_ne hact))

end Machine

open Guard

/-- A wait for a guard on the state alone neither parks nor subscribes, and it comes to an answer. It
fails if the guard does; otherwise it answers what the guard answers, unless a part fails behind one
that is false. In every run, an await of such a guard fails only if a part has failed meanwhile. -/
theorem state_only_waits (r : Registry) (memory : A) (h : Reachable (.empty r memory) m) :
    (∀ (q : Guard S) (s : S), q.stateOnly = true → ∃ r, q.Settles s r) ∧
      ∀ c g aw act m', aw.guard.stateOnly = true → m.Awaits c g aw → m.act act = some m' →
        Verdict (.empty r memory) m c g aw m' :=
  ⟨fun _ s hq => ⟨_, settles hq { now := 0, resolved := fun _ => false, turn := 0 } s⟩,
    fun _ _ _ _ _ hg awaits ha => awaits.verdict h hg ha⟩

/-- The second part can be asked only where the first one holds. -/
def quotient : Guard Nat := .all
  [.field "positive" fun n => .ok (0 < n),
    .field "quotient" fun n => if n = 0 then .error (.evaluation "division by zero") else .ok (0 < 10 / n)]

def sightless : Sight := { now := 0, resolved := fun _ => false, turn := 0 }

/-- Asked, the guard is false; waited for, it fails. -/
theorem quotient_hidden : quotient.evaluate sightless 0 = .ok false ∧
    ∀ p, (Wait.start quotient).Concludes 0 p (.error (.evaluation "division by zero")) :=
  ⟨rfl, (settles (g := quotient) rfl sightless 0).concludes⟩

/-- The only task of a cog awaits it, and is about to have the failure of its wait. -/
def hiddenActions : List (Action Nat Unit Unit) :=
  [.found "cog" 0,
    .arrive (.submit ⟨1⟩ "first" (.await quotient fun _ => .exit (.ok ())) fun _ => .exit (.ok ()))] ++
    List.replicate 6 (.step (.caller 1)) ++ List.replicate 11 (.step (.context ⟨1⟩))

def hiddenRun : Machine Nat Unit Unit :=
  hiddenActions.foldl perform (.empty { namePrefix := "cog", admits := fun _ => true } ())

/-- The body is told of a failure, since a part has failed, although the guard is false. -/
theorem state_only_waits_hidden : (∃ r, quotient.Settles 0 r) ∧
    ∃ aw e m', hiddenRun.Awaits ⟨1⟩ ⟨1⟩ aw ∧ aw.guard.poll hiddenRun.sight 0 = .ok false ∧
      hiddenRun.act (.step (.context ⟨1⟩)) = some m' ∧ Answered ⟨1⟩ ⟨1⟩ aw (.error (.guard e)) m' ∧
      Faulted (.empty { namePrefix := "cog", admits := fun _ => true } ()) ⟨1⟩ ⟨1⟩ aw hiddenRun := by
  have reachable : Reachable (.empty { namePrefix := "cog", admits := fun _ => true } ()) hiddenRun :=
    reachable_foldl hiddenActions _
  obtain ⟨settles, verdicts⟩ := state_only_waits _ () reachable
  have home : (hiddenRun.threads.get? (.context ⟨1⟩)).map (·.cog) = some (some ⟨1⟩) := by decide +kernel
  have guard : ((hiddenRun.threads.get? (.context ⟨1⟩)).bind (·.control.await?)).map
      (fun aw => (aw.guard.stateOnly, aw.guard.poll hiddenRun.sight 0)) = some (true, .ok false) := by
    decide +kernel
  have state : (hiddenRun.cogs.get? ⟨1⟩).map (·.state) = some 0 := by decide +kernel
  have next : (hiddenRun.act (.step (.context ⟨1⟩))).map
      (fun m' => (m'.threads.get? (.context ⟨1⟩)).map
        fun t => (t.control.stance, t.control.await?.isNone)) =
      some (some (.body (some ⟨⟨1⟩, true⟩), true)) := by decide +kernel
  obtain ⟨aw, hk, guard⟩ := Option.map_eq_some_iff.mp guard
  obtain ⟨t, ht, hk⟩ := Option.bind_eq_some_iff.mp hk
  obtain ⟨m', ha, next⟩ := Option.map_eq_some_iff.mp next
  obtain ⟨t', ht', next⟩ := Option.map_eq_some_iff.mp next
  rw [ht] at home
  simp only [Option.map_some, Option.some.injEq, Prod.mk.injEq] at home guard next
  have awaits : hiddenRun.Awaits ⟨1⟩ ⟨1⟩ aw := ⟨t, ht, home, hk⟩
  refine ⟨settles quotient 0 rfl, aw, ?_⟩
  cases verdicts _ _ aw _ m' guard.1 awaits ha with
  | awaits awaits' =>
    obtain ⟨t₁, ht₁, -, hk₁⟩ := awaits'
    cases ht'.symm.trans ht₁
    simp [hk₁] at next
  | @resumes x hx holds =>
    rw [hx] at state
    have zero : x.state = 0 := Option.some.inj state
    rw [zero, guard.2] at holds
    cases holds
  | interrupted ht₁ hb =>
    cases ht'.symm.trans ht₁
    rw [← Control.stance_behind, hb] at next
    simp [Control.stance] at next
  | fails e answered faulted => exact ⟨e, m', awaits, guard.2, ha, answered, faulted⟩

end ObjectGroups
