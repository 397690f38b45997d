/-
A guard that has failed gives its task back, with one exception.

A guard can fail in the wait, while the scheduler subscribes to its futures,
when it is asked under the lock, and when it is asked for its deadline. The
await keeps the failure, and its thread sleeps with it only while somebody has
the slot, who will tell it. But a thread that has found the slot free and the
guard false is about to sleep: if the guard panics over its deadline, nobody
looks at the slot again, and the thread sleeps until something unrelated wakes
it (`Stranded`).
-/
import ObjectGroups.Proofs.Rest
import ObjectGroups.Proofs.Resumption

namespace ObjectGroups

open Machine

variable {S A V : Type} {start m m' : Machine S A V} {g : CogId} {c : ContextId}
  {x x' : Cog S A V} {aw : Awaiting S A V} {phase : Phase S} {k : Control S A V}
  {t t' : Thread S A V} {e : GuardError} {deadline : Option Instant}

/-- The failure of its guard that an await keeps. -/
def Phase.failure? : Phase S → Option GuardError
  | .reenter failure => failure
  | .contend failure => failure
  | .doze failure => failure
  | .asleep failure _ _ => failure
  | _ => none

@[simp] theorem Phase.failure_rouse (phase : Phase S) : phase.rouse.failure? = phase.failure? := by
  cases phase <;> rfl

def Control.failure? : Control S A V → Option GuardError
  | .awaiting _ phase => phase.failure?
  | _ => none

namespace Machine

/-- The await keeps the failure `e` of its guard. -/
def Failed (m : Machine S A V) (c : ContextId) (g : CogId) (aw : Awaiting S A V) (e : GuardError) :
    Prop :=
  ∃ x t phase, m.Stands c g x t aw phase ∧ phase.failure? = some e

theorem Failed.of_control (ht : m.threads.get? (.context c) = some t) (hg : t.cog = some g)
    (hx : m.cogs.get? g = some x) (he : t.control.failure? = some e) :
    ∃ aw, t.control.await? = some aw ∧ m.Failed c g aw e := by
  cases hk : t.control with
  | awaiting aw phase =>
    rw [hk] at he
    exact ⟨aw, rfl, x, t, phase, ⟨ht, hg, hx, hk⟩, he⟩
  | _ =>
    rw [hk] at he
    cases he

/-- The thread sleeps with the failure `e`, and nobody has told it. -/
def Sleeps (c : ContextId) (g : CogId) (aw : Awaiting S A V) (e : GuardError) (m : Machine S A V) :
    Prop :=
  ∃ x t, m.Stands c g x t aw (.asleep (some e) none false)

/-- With the slot free and its guard false, the thread asked for the deadline;
the guard panicked, and nobody has told the thread since. -/
inductive Stranded (start : Machine S A V) (c : ContextId) (g : CogId) (aw : Awaiting S A V)
    (e : GuardError) (m : Machine S A V) : Prop where
  | intro {m₀ m₁ : Machine S A V} {x : Cog S A V} {t : Thread S A V} {p : Payload} :
      Reachable start m₀ → m₀.Stands c g x t aw (.doze none) → x.scheduler.active = none →
      aw.guard.deadline m₀.sight = .error p → e = panicked "wake_deadline" p →
      m₀.act (.step (.context c)) = some m₁ → Stays (Sleeps c g aw e) m₁ m →
      Stranded start c g aw e m

/-- A call of the guard in the next step of the await fails with `e`. -/
inductive Fails (m : Machine S A V) (x : Cog S A V) (aw : Awaiting S A V) :
    Phase S → GuardError → Prop where
  | wait {w : Wait S} {r : Answer} {e : GuardError} : w.result? = some r →
      containedAnswer "wait" r = .error e → e ≠ .interrupted → Fails m x aw (.wait w) e
  | subscribe {p : Payload} : (aw.guard.sources m.sight).2 = .error p →
      Fails m x aw .subscribe (panicked "subscribe" p)
  | poll {e : GuardError} : x.scheduler.active = none →
      aw.guard.evaluate m.sight x.state = .error e → Fails m x aw (.contend none) e
  | deadline {p : Payload} : aw.guard.deadline m.sight = .error p →
      Fails m x aw (.doze none) (panicked "wake_deadline" p)

/-- The await keeps the failure, or the body gets it along with the slot, or the task is interrupted. -/
def Carries (m : Machine S A V) (c : ContextId) (g : CogId) (aw : Awaiting S A V) (e : GuardError)
    (m' : Machine S A V) : Prop :=
  m'.Failed c g aw e ∨ Answered c g aw (.error (.guard e)) m' ∨ m.interrupted c = true

/-- The body behind the await `aw` gets a panic of the guard, and does not have the slot. -/
def Unwound (c : ContextId) (g : CogId) (aw : Awaiting S A V) (p : Payload) (m : Machine S A V) :
    Prop :=
  ∃ t, m.threads.get? (.context c) = some t ∧ t.cog = some g ∧
    t.control.behind = .run (some ⟨aw.task, false⟩) (aw.next (.panic p))

/-- What an await that has failed, or not failed, can rely upon. -/
def Minds (m start : Machine S A V) (c : ContextId) (g : CogId) (_ : Cog S A V)
    (aw : Awaiting S A V) : Phase S → Prop
  | .doze (some _) => m.Busy g
  | .asleep (some e) deadline notified =>
    deadline = none ∧ (notified = true ∨ m.Busy g ∨ Stranded start c g aw e m)
  | _ => True

theorem Minds.of_begins (h : phase.Begins x c aw ∨ m.Minds start c g x aw phase) :
    m.Minds start c g x aw phase := by
  rcases h with begins | holds
  · cases begins <;> trivial
  · exact holds

end Machine

/-! ## A failure is kept until the body gets it -/

/-- The await has kept the failure, or the body is to get it along with the slot. -/
def Control.Carries (k : Control S A V) (aw : Awaiting S A V) (e : GuardError) : Prop :=
  (∃ phase, k = .awaiting aw phase ∧ phase.failure? = some e) ∨
    k.behind = .run (some ⟨aw.task, true⟩) (aw.next (.error (.guard e)))

/-- From phase to phase a failure is kept. -/
theorem Proceeds.failure {phase' : Phase S} (h : Proceeds m c g x aw m' phase phase')
    (hf : phase.failure? = some e) : phase'.failure? = some e := by
  cases h with
  | reentersFailed => exact hf
  | taken => exact hf
  | sleeps => exact hf
  | wakes => exact hf
  | _ => cases hf

/-- A failure that is kept stays so, unless the task is interrupted. -/
theorem Strides.keeps (h : Strides m c g x aw m' phase k) (hf : phase.failure? = some e) :
    k.Carries aw e ∨ m.interrupted c = true := by
  cases h with
  | proceeds h => exact .inl (.inl ⟨_, rfl, h.failure hf⟩)
  | aborts hp =>
    rcases hp with rfl | ⟨interrupted, -⟩
    · cases hf
    · exact .inr interrupted
  | fails _ hfailure hk =>
    rcases hfailure with rfl | ⟨rfl, -⟩
    · cases hf
      exact .inl (.inr hk)
    · cases hf
  | _ => cases hf

/-- From phase to phase a failure of the guard is kept, unless the task is interrupted. -/
theorem Proceeds.records {phase' : Phase S} (h : Proceeds m c g x aw m' phase phase')
    (hf : Fails m x aw phase e) : phase'.failure? = some e ∨ m.interrupted c = true := by
  cases hf with
  | wait hr he hne => cases h with
    | waits hr' => simp [hr] at hr'
    | answered hr' =>
      cases hr.symm.trans hr'
      cases he
    | waitFailed hr' he' =>
      cases hr.symm.trans hr'
      cases he.symm.trans he'
      exact .inl rfl
    | interrupted hr' hi =>
      cases hr.symm.trans hr'
      rcases hi with he' | interrupted
      · cases he.symm.trans he'
        exact absurd rfl hne
      · exact .inr interrupted
  | subscribe hs => cases h with
    | subscribes hs' =>
      rw [hs'] at hs
      cases hs
    | subscribeFailed hs' =>
      rw [hs'] at hs
      cases hs
      exact .inl rfl
  | poll free he => cases h with
    | taken _ active => exact absurd free active
    | refused _ hp => cases he.symm.trans (Guard.evaluate_ok.mpr hp)
  | deadline hd => cases h with
    | aimed hd' => cases hd.symm.trans hd'
    | aimFailed hd' =>
      cases hd.symm.trans hd'
      exact .inl rfl

/-- A failure of the guard is kept, unless the task is interrupted. -/
theorem Strides.records (h : Strides m c g x aw m' phase k) (hf : Fails m x aw phase e) :
    k.Carries aw e ∨ m.interrupted c = true := by
  cases h with
  | proceeds h => exact (h.records hf).imp_left fun he => .inl ⟨_, rfl, he⟩
  | aborts hp =>
    rcases hp with rfl | ⟨interrupted, -⟩
    · cases hf
    · exact .inr interrupted
  | fails _ hfailure hk =>
    cases hf with
    | poll _ he =>
      rcases hfailure with hfailure | ⟨-, he'⟩
      · cases hfailure
      · cases he.symm.trans he'
        exact .inl (.inr hk)
  | unwinds hp => cases hf with
    | poll _ he => cases he.symm.trans hp
  | resumes _ hp => cases hf with
    | poll _ he => cases he.symm.trans (Guard.evaluate_ok.mpr hp)
  | _ => cases hf

/-! ## A thread that sleeps with a failure will be told, or is stranded -/

namespace Machine

section
variable (hr : Reachable start m) (ho : m.Ordered) (hh : m.Housed) {act : Action S A V}
  (ha : m.act act = some m') (hs : m.Stands c g x t aw phase) (minds : m.Minds start c g x aw phase)
  (hx' : m'.cogs.get? g = some x')
include ho ha hs minds hx'

include hr in
theorem minds_own (hact : act = .step (.context c)) {phase' : Phase S}
    (hs' : m'.Stands c g x' t' aw phase') (h : Proceeds m c g x aw m' phase phase') :
    m'.Minds start c g x' aw phase' := by
  have hl := look_eq m _ hs.thread
  rw [hs.home] at hl
  have busy (hactive : x'.scheduler.active = x.scheduler.active) (h : m.Busy g) : m'.Busy g :=
    ((later_of_own ho ha hs hx' hact hactive (ho.alive_scheduler hl)).busy h).resolve_right id
  cases h with
  | answered _ hp => rcases hp with rfl | rfl <;> trivial
  | taken failure active _ hc => cases failure with
    | none => trivial
    | some e =>
      rw [hc, hs.cog] at hx'
      cases hx'
      exact busy rfl (.inl ⟨x, hs.cog, active⟩)
  | @aimFailed p hd hc =>
    rw [hc] at hx'
    cases hx'
    refine ⟨rfl, .inr ?_⟩
    by_cases free : x.scheduler.active = none
    · exact .inr (.intro hr hs free hd rfl (hact ▸ ha) (.refl ⟨_, _, hs'⟩))
    · exact .inl (busy rfl (.inl ⟨x, hs.cog, free⟩))
  | sleeps e hc =>
    rw [hc] at hx'
    cases hx'
    exact ⟨rfl, .inr (.inl (busy rfl minds))⟩
  | _ => trivial

include hh in
theorem minds_other (hne : act.actor? ≠ some (.context c)) (hm : m.Stirred m' (.context c)) :
    ∃ t' phase', m'.Stands c g x' t' aw phase' ∧ m'.Minds start c g x' aw phase' := by
  have same (hp : phase.rouse = phase) (minds' : m'.Minds start c g x' aw phase) :
      ∃ t' phase', m'.Stands c g x' t' aw phase' ∧ m'.Minds start c g x' aw phase' := by
    obtain ⟨t', hs'⟩ := hs.still hm hx' hp
    exact ⟨t', phase, hs', minds'⟩
  cases phase with
  | doze failure =>
    have later := later_of_locked ho ha hs hx' hh hne rfl
    refine same rfl ?_
    cases failure with
    | none => trivial
    | some e => exact (later.busy minds).resolve_right id
  | asleep failure deadline notified =>
    obtain ⟨p, t', hs', later⟩ := later_of_asleep ho ha hs hx' hh hne rfl
    refine ⟨t', _, hs', ?_⟩
    cases failure with
    | none => trivial
    | some e =>
      obtain ⟨rfl, watch⟩ := minds
      refine ⟨rfl, ?_⟩
      cases p with
      | true => exact .inl rfl
      | false =>
        rcases watch with rfl | busy | stranded
        · exact .inl rfl
        · exact .inr (.inl ((later.busy busy).resolve_right nofun))
        · cases notified with
          | true => exact .inl rfl
          | false =>
            cases stranded with
            | intro hr hs₀ free hd he hstep stays =>
              exact .inr (.inr (.intro hr hs₀ free hd he hstep (.act stays ha ⟨_, _, hs'⟩)))
  | wait w =>
    obtain ⟨p, t', hs', -⟩ := hs.stirred hm hx'
    refine ⟨t', _, hs', ?_⟩
    cases p <;> trivial
  | _ => exact same rfl trivial

end

theorem Reachable.minds (h : Reachable start m) (ho : start.Ordered) (hh : start.Housed)
    (hf : start.Follows (start.Minds start)) : m.Follows (m.Minds start) := by
  induction h with
  | refl => exact hf
  | @act n n' act hn ha ih =>
    have ordered := ho.reachable hn
    refine follows_act ordered ha ih ?_ ?_
    · intro c g x x' t t' aw phase phase' hact hs before hs' proceeds
      exact minds_own hn ordered ha hs (.of_begins before) hs'.cog hact hs' proceeds
    · intro c g x x' t aw phase hne hs before hm hx'
      exact minds_other ordered (hh.reachable ho hn) ha hs (.of_begins before) hx' hne hm

/-- Who sleeps with a failure although the slot is free is stranded. -/
theorem Stands.stranded (hs : m.Stands c g x t aw (.asleep (some e) deadline false))
    (hf : m.Follows (m.Minds start)) (ho : m.Ordered) (still : m.Still)
    (free : x.scheduler.active = none) : Stranded start c g aw e m := by
  have before := hf c t g x hs.thread hs.home hs.cog
  rw [hs.control] at before
  obtain ⟨-, told | busy | stranded⟩ : m.Minds start c g x aw (.asleep (some e) deadline false) :=
    .of_begins before.awaiting
  · cases told
  · exact absurd busy (still.not_busy ho hs.cog free)
  · exact stranded

/-- A thread that belongs to a cog has it. -/
theorem Ordered.hosts (ho : m.Ordered) (ht : m.threads.get? (.context c) = some t)
    (hg : t.cog = some g) : ∃ x, m.cogs.get? g = some x := by
  have hl := look_eq m _ ht
  rw [hg] at hl
  exact (ho.home hl).2

/-- What an await carries in its control it carries. -/
theorem Carries.of_control (ho : m'.Ordered)
    (ht' : m'.threads.get? (.context c) = some { t with control := k }) (hg : t.cog = some g)
    (h : k.Carries aw e ∨ m.interrupted c = true) : m.Carries c g aw e m' := by
  obtain ⟨x', hx'⟩ := ho.hosts ht' hg
  rcases h with (⟨phase, rfl, hf⟩ | answered) | interrupted
  · exact .inl ⟨x', _, phase, ⟨ht', hg, hx', rfl⟩, hf⟩
  · exact .inr (.inl ⟨_, ht', hg, answered⟩)
  · exact .inr (.inr interrupted)

/-- Once a call of the guard has failed, the failure is kept. -/
theorem Ordered.records (ho : m.Ordered) (hs : m.Stands c g x t aw phase)
    (hf : Fails m x aw phase e) (ha : m.act (.step (.context c)) = some m') :
    m.Carries c g aw e m' := by
  obtain ⟨k, ht', strides⟩ := step_strides hs.thread hs.home hs.control hs.cog ha
  exact .of_control (ho.act ha) ht' hs.home (strides.records hf)

/-- A failure stays until the body gets it. -/
theorem Ordered.keeps (ho : m.Ordered) {act : Action S A V} (hf : m.Failed c g aw e)
    (ha : m.act act = some m') : m.Carries c g aw e m' := by
  obtain ⟨x, t, phase, hs, hphase⟩ := hf
  by_cases hact : act = .step (.context c)
  · subst hact
    obtain ⟨k, ht', strides⟩ := step_strides hs.thread hs.home hs.control hs.cog ha
    exact .of_control (ho.act ha) ht' hs.home (strides.keeps hphase)
  · have stirred := (shift_act ho ha).other ho (by simp [look_eq m _ hs.thread]) (Action.actor_ne hact)
    obtain ⟨x', hx'⟩ : ∃ x', m'.cogs.get? g = some x' := by
      have hl := stirred.look.trans (look_eq m _ hs.thread)
      rw [hs.home] at hl
      exact ((ho.act ha).home hl).2
    obtain ⟨p, t', hs', -⟩ := hs.stirred stirred hx'
    refine .inl ⟨x', t', _, hs', ?_⟩
    cases p with
    | false => exact hphase
    | true => exact phase.failure_rouse.trans hphase

/-- A guard that panics, and once more over its label, is reported to nobody. -/
theorem Stands.unwound {p : Payload} (hs : m.Stands c g x t aw (.contend none))
    (free : x.scheduler.active = none) (hp : aw.guard.evaluate m.sight x.state = .panic p)
    (ha : m.act (.step (.context c)) = some m') :
    Unwound c g aw p m' ∨ m.interrupted c = true := by
  obtain ⟨k, ht', strides⟩ := step_strides hs.thread hs.home hs.control hs.cog ha
  cases strides with
  | unwinds hp' hk =>
    cases hp.symm.trans hp'
    exact .inl ⟨_, ht', hs.home, hk⟩
  | proceeds h => cases h with
    | taken _ active => exact absurd free active
    | refused _ hf => cases hp.symm.trans (Guard.evaluate_ok.mpr hf)
  | aborts hi =>
    rcases hi with hi | ⟨interrupted, -⟩
    · cases hi
    · exact .inr interrupted
  | fails _ hf =>
    rcases hf with hf | ⟨-, hf⟩
    · cases hf
    · cases hp.symm.trans hf
  | resumes _ hf => cases hp.symm.trans (Guard.evaluate_ok.mpr hf)

/-- A thread at rest whose guard has failed is stranded if the slot is free. -/
theorem Stands.stranded_of_failure (hs : m.Stands c g x t aw phase)
    (hf : m.Follows (m.Minds start)) (ho : m.Ordered) (still : m.Still)
    (free : x.scheduler.active = none) (he : phase.failure? = some e) : Stranded start c g aw e m := by
  rcases still.asleep ho hs.thread hs.home hs.cog hs.awaits with ⟨w, hk, -, -⟩ | ⟨failure, deadline, hk, -⟩
  · cases hs.control.symm.trans hk
    cases he
  · cases hs.control.symm.trans hk
    cases he
    exact hs.stranded hf ho still free

/-- How failures of guards reach the bodies that await them. -/
structure Delivers (start m : Machine S A V) : Prop where
  records {c : ContextId} {g : CogId} {x : Cog S A V} {t : Thread S A V} {aw : Awaiting S A V}
      {phase : Phase S} {e : GuardError} {m' : Machine S A V} : m.Stands c g x t aw phase →
    Fails m x aw phase e → m.act (.step (.context c)) = some m' → m.Carries c g aw e m'
  keeps {c : ContextId} {g : CogId} {aw : Awaiting S A V} {e : GuardError} {m' : Machine S A V}
      {act : Action S A V} : m.Failed c g aw e → m.act act = some m' → m.Carries c g aw e m'
  /-- A panic that cannot even be reported goes through the body. -/
  unwinds {c : ContextId} {g : CogId} {x : Cog S A V} {t : Thread S A V} {aw : Awaiting S A V}
      {p : Payload} {m' : Machine S A V} : m.Stands c g x t aw (.contend none) →
    x.scheduler.active = none → aw.guard.evaluate m.sight x.state = .panic p →
    m.act (.step (.context c)) = some m' →
    Unwound c g aw p m' ∨ m.interrupted c = true
  settles {c : ContextId} {g : CogId} {x : Cog S A V} {aw : Awaiting S A V} {e : GuardError} :
    m.Still → m.cogs.get? g = some x → x.scheduler.active = none →
    (m.Failed c g aw e ↔ Stranded start c g aw e m)

end Machine

open Machine

/-- In every run, whichever call of an awaited guard fails, its failure is kept,
and the body gets it along with the slot. No thread is left with one at rest
while the slot of its cog is free, except for those that are stranded. -/
theorem failures_delivered (r : Registry) (memory : A) (h : Reachable (.empty r memory) m) :
    Delivers (.empty r memory) m := by
  have ordered := (ordered_empty r memory).reachable h
  have minds := h.minds (ordered_empty r memory) (housed_empty r memory)
    (fun c t g x ht => by cases ht)
  exact {
    records := ordered.records
    keeps := ordered.keeps
    unwinds := Stands.unwound
    settles := fun still hx free => by
      constructor
      · rintro ⟨y, t, phase, hs, hf⟩
        cases hx.symm.trans hs.cog
        exact hs.stranded_of_failure minds ordered still free hf
      · rintro ⟨-, -, -, -, -, -, stays⟩
        obtain ⟨y, t, hs⟩ := stays.holds
        exact ⟨y, t, _, hs, rfl⟩ }

/-- A guard that never holds and cannot tell a deadline. -/
def hopeless : Guard Nat := .user {
  label := fun _ => .ok "Hopeless"
  poll := fun _ _ => .ok false
  wait := fun _ => .evaluate .answer
  stays := fun _ => .ok false
  sources := fun _ => ([], .ok false)
  deadline := fun _ => .error (.text "deadline exploded") }

/-- The only task of a cog awaits it until it sleeps. -/
def adriftActions : List (Action Nat Unit Unit) :=
  [.found "cog" 0,
    .arrive (.submit ⟨1⟩ "first" (.await hopeless fun _ => .exit (.ok ())) fun _ => .exit (.ok ()))] ++
    List.replicate 6 (.step (.caller 1)) ++ List.replicate 12 (.step (.context ⟨1⟩))

def adrift : Machine Nat Unit Unit :=
  adriftActions.foldl perform (.empty { namePrefix := "cog", admits := fun _ => true } ())

theorem failures_delivered_adrift :
    ∃ x aw, adrift.cogs.get? ⟨1⟩ = some x ∧ adrift.Still ∧ x.scheduler.active = none ∧
      x.scheduler.Suspended aw.task ∧
      Stranded (.empty { namePrefix := "cog", admits := fun _ => true } ()) ⟨1⟩ ⟨1⟩ aw
        (.evaluation "guard wake_deadline panicked: deadline exploded") adrift := by
  have still : adrift.Still := by decide +kernel
  have free : (adrift.cogs.get? ⟨1⟩).map (·.scheduler.active) = some none := by decide +kernel
  have state : (adrift.cogs.get? ⟨1⟩).bind (fun x => (x.scheduler.records.get? ⟨1⟩).map (·.view.state)) =
      some .suspended := by decide +kernel
  have works : (adrift.threads.get? (.context ⟨1⟩)).map (·.cog) = some (some ⟨1⟩) := by decide +kernel
  have task : ((adrift.threads.get? (.context ⟨1⟩)).bind (·.control.await?)).map (·.task) = some ⟨1⟩ := by
    decide +kernel
  have failed : (adrift.threads.get? (.context ⟨1⟩)).bind (·.control.failure?) =
      some (.evaluation "guard wake_deadline panicked: deadline exploded") := by decide +kernel
  obtain ⟨x, hx⟩ : ∃ x, adrift.cogs.get? ⟨1⟩ = some x :=
    Option.isSome_iff_exists.mp (by decide +kernel)
  obtain ⟨t, ht, he⟩ := Option.bind_eq_some_iff.mp failed
  rw [hx] at free state
  rw [ht] at works task
  obtain ⟨aw, hk, failed⟩ := Failed.of_control ht (Option.some.inj works) hx he
  rw [Option.bind_some, hk] at task
  have free : x.scheduler.active = none := Option.some.inj free
  have suspended : x.scheduler.Suspended aw.task := by
    have task : aw.task = ⟨1⟩ := Option.some.inj task
    rw [task]
    exact Option.map_eq_some_iff.mp state
  have reachable : Reachable (.empty { namePrefix := "cog", admits := fun _ => true } ()) adrift :=
    reachable_foldl adriftActions _
  exact ⟨x, aw, hx, still, free, suspended,
    ((failures_delivered _ () reachable).settles still hx free).mp failed⟩

end ObjectGroups
