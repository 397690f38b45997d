/-
Tasks that are reported ready.

The flag is raised in a critical section of its own, some time after the wait
outside the lock has ended well, and the wait has looked at the parts of its
guard at different times. What the thread carries from the wait to the flag is
that the guard holds for good (`Machine.Vouched`). The record of a task in an
await shows the await's label, and the flag only once the thread has raised it
(`Displays`); so whenever the flag is up, the guard holds and goes on to hold.
-/
import ObjectGroups.Proofs.Lasting
import ObjectGroups.Proofs.Remaining
import ObjectGroups.Proofs.Snapshots
import ObjectGroups.Proofs.Voices

namespace ObjectGroups

open Machine Scheduler

variable {S A V : Type} {m m' : Machine S A V} {a b : Agent} {g : CogId} {c : ContextId}
  {x x' : Cog S A V} {aw : Awaiting S A V} {phase : Phase S} {k : Control S A V} {t t' : Thread S A V}
  {move : Action S A V} {r : Registry} {memory : A}

namespace Machine

/-! ## What the wait has found -/

/-- No action takes back what can be seen. -/
theorem Ordered.sight_later (ho : m.Ordered) (ha : m.act move = some m') : m.sight.Later m'.sight where
  now := (aside_act ho ha).now
  resolved _ hf := (aside_act ho ha).resolved hf

theorem Reachable.sight_later (h : Reachable (.empty r memory) m) (hn : Reachable m m') :
    m.sight.Later m'.sight := by
  induction hn with
  | refl => exact .refl _
  | act hn ha ih => exact ih.trans ((h.trans hn).ordered.sight_later ha)

/-- What a thread that awaits a guard of the library has found out about it outside the lock. -/
def Vouched (m : Machine S A V) (aw : Awaiting S A V) : Phase S → Prop
  | .wait w => aw.guard.firm = true → (w.Within fun g => g.firm = true) ∧ w.Vouches m.sight aw.guard
  | .ready => aw.guard.library = true → aw.guard.looks = false ∧ aw.guard.Lasting m.sight
  | _ => True

theorem Vouched.of_begins (h : phase.Begins x c aw ∨ m.Vouched aw phase) : m.Vouched aw phase := by
  rcases h with begins | vouched
  · cases begins with
    | wait => exact fun hg => ⟨.start hg, Wait.vouches_start _ _⟩
    | _ => trivial
  · exact vouched

theorem Vouched.later (h : m.Vouched aw phase) (hv : m.sight.Later m'.sight) : m'.Vouched aw phase := by
  cases phase with
  | wait w => exact fun hg => ⟨(h hg).1, (h hg).2.later hv⟩
  | ready => exact fun hg => ⟨(h hg).1, (h hg).2.later hv⟩
  | _ => trivial

/-- The thread is about to raise the flag since its wait has ended well, and its guard stays true. -/
theorem ready_of_wait {w : Wait S} (hs : m.Stands c g x t aw (.wait w)) (ha : m.step (.context c) = some m')
    (hs' : m'.Stands c g x' t' aw .ready) :
    w.result? = some (.ok true) ∧ aw.guard.stays m.sight = .ok true := by
  have leads {m₁ : Machine S A V} {phase : Phase S} (e : m' = m₁.setControl (.context c) (.awaiting aw phase))
      (hm : m.Stirred m₁ (.context c)) : phase = .ready := by
    have thread := hs'.thread
    rw [e, thread_set _ hs.thread hm] at thread
    have control := hs'.control
    rw [← Option.some.inj thread] at control
    cases control
    rfl
  cases awaitStep_of hs.thread hs.home hs.control hs.cog ha with
  | promised result _ stays => exact ⟨result, stays⟩
  | waits | interrupted | waitFails | hinted => cases leads rfl (.same rfl)

/-- In every run, what a thread that awaits has found out about its guard goes on to hold. -/
theorem Reachable.vouched (h : Reachable (.empty r memory) m) :
    m.Follows fun _ _ _ aw phase => m.Vouched aw phase := by
  induction h with
  | refl =>
    intro c t g x ht
    cases ht
  | @act m m' move h ha ih =>
    have later := h.ordered.sight_later ha
    refine follows_act h.ordered ha ih ?_ ?_
    · rintro c g x x' t t' aw phase phase' rfl hs before hs' proceeds
      have vouched := Vouched.of_begins before
      cases proceeds with
      | waits _ hm =>
        intro hg
        obtain ⟨within, vouches⟩ := vouched hg
        exact ⟨within.step Guard.firm_inherited hm, (vouches.step within hm).later later⟩
      | answered _ hp =>
        rcases hp with rfl | rfl
        · intro hg
          obtain ⟨result, stays⟩ := ready_of_wait hs ha hs'
          rw [Guard.stays_eq hg] at stays
          have looks : aw.guard.looks = false := by simpa using stays
          exact ⟨looks, ((vouched (Guard.firm_iff.mpr ⟨hg, looks⟩)).2.lasting result).later later⟩
        · trivial
      | _ => trivial
    · intro c g x x' t aw phase _ hs before stirred hx'
      have vouched := (Vouched.of_begins before).later later
      obtain ⟨p, t', hs', -⟩ := hs.stirred stirred hx'
      refine ⟨t', _, hs', ?_⟩
      cases p with
      | false => exact vouched
      | true => cases phase with
        | wait w => exact fun hg => ⟨(vouched hg).1.notify, (vouched hg).2.notify⟩
        | _ => exact vouched

end Machine

/-! ## What the record shows -/

/-- Whether the thread is past the point of its await at which it would raise the flag. -/
def Control.past (k : Control S A V) : Bool :=
  match k.behind with
  | .starting _ _ | .awaiting _ .release | .awaiting _ (.wait _) | .awaiting _ .ready => false
  | _ => true

@[simp] theorem Control.past_rouse (k : Control S A V) : k.rouse.past = k.past := by
  cases k with
  | awaiting aw p => cases p <;> rfl
  | _ => rfl

/-- Within an await, a thread that is past this point stays so. -/
theorem Treads.past {aw' : Awaiting S A V} {k' : Control S A V} (h : Treads m c g x aw m' k k')
    (hk : k'.await? = some aw') : k.await? = some aw' ∧ (k.past = true → k'.past = true) := by
  have left {seat : Option Seat} {b : Body S A V} {P : Prop} (hb : k'.behind = .run seat b) : P := by
    simp [Control.await?, hb] at hk
  have goes {phase : Phase S} (hb : k'.behind = .awaiting aw phase) : aw' = aw := by
    simpa [Control.await?, hb] using hk.symm
  cases h with
  | tells => exact ⟨hk, id⟩
  | hands hands => cases hands with
    | goesOn => exact ⟨hk, by intro h; cases h⟩
    | enlists hb => exact ⟨goes hb ▸ rfl, by intro h; cases h⟩
    | unwinds _ hb => exact left hb
  | strides strides => cases strides with
    | hands => exact ⟨hk, by intro h; cases h⟩
    | enlists hb => exact ⟨goes hb ▸ rfl, by intro h; cases h⟩
    | marked hb => exact ⟨goes hb ▸ rfl, by intro h; cases h⟩
    | proceeds proceeds => cases proceeds with
      | waits | answered | waitFailed | interrupted => exact ⟨hk, by intro h; cases h⟩
      | _ => exact ⟨hk, id⟩
    | aborts _ hb | fails _ _ hb | unwinds _ hb | resumes _ _ hb => exact left hb

/-- What the view of a suspended task says of its await. -/
structure Machine.Displays (m : Machine S A V) (aw : Awaiting S A V) (k : Control S A V) (v : TaskView) :
    Prop where
  label : v.guard = some aw.label
  past : v.ready = true → k.past = true
  lasting : v.ready = true → aw.guard.library = true → aw.guard.looks = false ∧ aw.guard.Lasting m.sight

namespace Machine

theorem Displays.later {k' : Control S A V} {v : TaskView} (h : m.Displays aw k v)
    (hk : k.past = true → k'.past = true) (hv : m.sight.Later m'.sight) : m'.Displays aw k' v where
  label := h.label
  past ready := hk (h.past ready)
  lasting ready hg := ⟨(h.lasting ready hg).1, (h.lasting ready hg).2.later hv⟩

/-- A thread in an await has given the slot up if its task is suspended. -/
theorem Reachable.suspends_of_record (h : Reachable (.empty r memory) m) {record : TaskRecord}
    (ht : m.threads.get? (.context c) = some t) (hg : t.cog = some g) (hk : t.control.await? = some aw)
    (hr : (m.books g).records.get? aw.task = some record) (hs : record.view.state = .suspended) :
    t.control.stance.suspends = some aw.task := by
  have hl := look_eq m _ ht
  rw [hg] at hl
  obtain ⟨-, x, hx⟩ := h.ordered.home hl
  rw [books_eq hx] at hr
  have charge := Control.charge_of_await hk
  obtain ⟨active, seat⟩ := Stance.charge_eq charge
  have given : active = false := by
    cases active with
    | false => rfl
    | true => cases hs.symm.trans (((h.attended hx).hosted hl seat).running_of seat hr)
  rw [Stance.suspends_eq, seat, given]
  exact charge

/-- The thread's own step keeps this. -/
theorem displays_own {record : TaskRecord} {t₀ : Thread S A V} (h : Reachable (.empty r memory) m)
    (ha : m.step (.context c) = some m')
    (before : ∀ {record : TaskRecord}, t₀.control.await? = some aw →
      (m.books g).records.get? aw.task = some record → record.view.state = .suspended →
        m.Displays aw t₀.control record.view)
    (ht₀ : m.threads.get? (.context c) = some t₀) (hg₀ : t₀.cog = some g)
    (ht : m'.threads.get? (.context c) = some t) (hk : t.control.await? = some aw)
    (hr : (m'.books g).records.get? aw.task = some record) (hs : record.view.state = .suspended)
    (suspends : t.control.stance.suspends = some aw.task) : m'.Displays aw t.control record.view := by
  have act : m.act (.step (.context c)) = some m' := ha
  have later := h.ordered.sight_later act
  have hl := look_eq m _ ht₀
  rw [hg₀] at hl
  obtain ⟨-, x, hx⟩ := h.ordered.home hl
  rcases says_step h ht₀ ha with ⟨gone, -⟩ | ⟨k', ht', utters⟩
  · cases ht.symm.trans gone
  obtain rfl := Option.some.inj (ht'.symm.trans ht)
  have same {g' : CogId} (hown : t₀.cog = some g') : g' = g := Option.some.inj (hown.symm.trans hg₀)
  -- The record of a task that has just begun to await.
  have begun {y : Scheduler S A V} (hm : y.Moves (m'.books g) aw.task .suspended (awaiting aw.label)) :
      m'.Displays aw k' record.view := by
    rw [hm.records, Table.get?_modify, if_pos rfl] at hr
    obtain ⟨old, -, rfl⟩ := Option.map_eq_some_iff.mp hr
    exact ⟨rfl, (by intro ready; cases ready), (by intro ready; cases ready)⟩
  -- The record is the same, and the thread does not fall behind.
  have kept (hb : m.SameBooks m') (hk₀ : t₀.control.await? = some aw)
      (hp : t₀.control.past = true → k'.past = true) : m'.Displays aw k' record.view :=
    (before hk₀ ((hb g).records ▸ hr) hs).later hp later
  generalize hcontrol : t₀.control = k₀ at utters kept
  cases utters with
  | tells i n k hb => exact kept hb hk id
  | still hb =>
    rw [← hcontrol] at kept
    have awaits : t₀.control.await? ≠ none := by
      intro idle
      have outside : t₀.control.stance.awaits = none := by
        refine Option.eq_none_iff_forall_ne_some.mpr fun i hi => ?_
        obtain ⟨aw₀, some, -⟩ := Control.await_of_awaits hi
        cases idle.symm.trans some
      cases suspends.symm.trans ((shift_act h.ordered act).outside hl outside (look_eq m' _ ht))
    obtain ⟨aw₀, hk₀⟩ := Option.ne_none_iff_exists'.mp awaits
    obtain ⟨k'', ht'', treads⟩ := step_treads h.ordered ht₀ hg₀ hx hk₀ ha
    obtain rfl : k'' = k' := congrArg Thread.control (Option.some.inj (ht''.symm.trans ht))
    obtain ⟨hk₀, past⟩ := treads.past hk
    exact kept hb hk₀ past
  | hands hown changes =>
    obtain rfl := same hown
    cases hk
    exact begun changes.here
  | suspends hown _ changes =>
    obtain rfl := same hown
    cases hk
    exact begun changes.here
  | handed hown _ hb =>
    cases hk
    exact kept hb rfl (by intro past; cases past)
  | @readies g' aw' old hown hold changes =>
    obtain rfl := same hown
    cases hk
    obtain ⟨records, -, -⟩ := changes.here
    rw [records, Table.get?_modify, if_pos rfl, hold] at hr
    cases hr
    have shown := before (by rw [hcontrol]; rfl) hold hs
    refine ⟨shown.label, fun _ => rfl, fun _ hg => ?_⟩
    rcases h.vouched c t₀ _ x ht₀ hg₀ hx with begins | ⟨aw₁, phase, e, vouched⟩
    · cases begins aw .ready (by rw [hcontrol]; rfl)
    · cases hcontrol.symm.trans e
      exact ⟨(vouched hg).1, (vouched hg).2.later later⟩
  | _ => cases hk

/-- In every run, the record of a task that awaits shows how far the await has come. -/
theorem Reachable.displays (h : Reachable (.empty r memory) m) {record : TaskRecord}
    (ht : m.threads.get? (.context c) = some t) (hg : t.cog = some g) (hk : t.control.await? = some aw)
    (hr : (m.books g).records.get? aw.task = some record) (hs : record.view.state = .suspended) :
    m.Displays aw t.control record.view := by
  induction h generalizing c g t aw record with
  | refl => cases ht
  | @act m m' move h ha ih =>
    have later := h.ordered.sight_later ha
    have suspends := (h.trans (.act .refl ha)).suspends_of_record ht hg hk hr hs
    have hl' := look_eq m' _ ht
    rw [hg] at hl'
    obtain ⟨s₀, hl⟩ : ∃ s₀, m.look (.context c) = some (some g, s₀) := by
      rcases (shift_act h.ordered ha).came hl' with ⟨-, hl⟩ | hl | new | new
      · exact hl
      · exact ⟨_, hl⟩
      · rw [new] at suspends
        cases suspends
      · rw [new] at suspends
        cases suspends
    obtain ⟨t₀, ht₀, hg₀, rfl⟩ := look_eq_some m _ hl
    by_cases hact : move.actor? = some (.context c)
    · obtain rfl := Action.step_of_actor hact
      exact displays_own h ha (fun hk hr hs => ih ht₀ hg₀ hk hr hs) ht₀ hg₀ ht hk hr hs suspends
    · have stirred := (shift_act h.ordered ha).other h.ordered (by simp [hl]) hact
      obtain ⟨p, hp⟩ := stirred
      rw [ht, ht₀] at hp
      have told : t.control = if p then t₀.control.rouse else t₀.control := by
        rw [Option.some.inj hp]
        cases p <;> rfl
      have awaits : t₀.control.await? = some aw := by
        rw [told] at hk
        cases p <;> simpa using hk
      have past : t.control.past = t₀.control.past := by
        rw [told]
        cases p <;> simp
      obtain ⟨active, seat⟩ := Stance.charge_eq (Control.charge_of_await awaits)
      obtain ⟨same, -⟩ := h.spared ha hl seat hact g
      exact (ih ht₀ hg₀ awaits (same ▸ hr) hs).later (past ▸ id) later

end Machine

/-! ## Reports -/

/-- In every run with guards of the library, a task that is reported ready awaits a guard that
holds, whatever happens from then on, and that does not look at the state of the cog. -/
theorem readiness_sound {moves : List (Move S A V)} (r : Registry) (memory : A)
    (h : History (.empty r memory) moves m) (stock : ∀ v ∈ moves, v.before.Stock) (last : m.Stock)
    (hx : m.cogs.get? g = some x) :
    (∀ v ∈ x.scheduler.ready, ∃ c aw, m.Awaits c g aw ∧ aw.task = v.id ∧ v.guard = some aw.label ∧
      ∀ n, Reachable m n → ∀ s, aw.guard.poll n.sight s = .ok true) ∧
    ∀ c aw, m.Awaits c g aw → aw.guard.looks = true → ∀ v ∈ x.scheduler.ready, v.id ≠ aw.task := by
  have displayed {v : TaskView} {c : ContextId} {aw : Awaiting S A V} (hv : v ∈ x.scheduler.ready)
      (awaits : m.Awaits c g aw) (task : aw.task = v.id) :
      v.guard = some aw.label ∧ aw.guard.looks = false ∧ aw.guard.Lasting m.sight := by
    obtain ⟨listed, record, hr, rfl⟩ := (h.roll.2 hx).tidy.mem_viewsWhere.mp hv
    obtain ⟨suspended, ready⟩ : record.view.state = .suspended ∧ record.view.ready = true := by
      simpa using listed
    obtain ⟨t, ht, hg, hk⟩ := awaits
    have shown := h.reachable.displays ht hg hk (by rw [books_eq hx, task]; exact hr) suspended
    exact ⟨shown.label, shown.lasting ready (last _ t aw ht hk)⟩
  constructor
  · intro v hv
    obtain ⟨listed, record, hr, same⟩ := (h.roll.2 hx).tidy.mem_viewsWhere.mp hv
    have suspended : record.view.state = .suspended := by
      rw [same]
      simp only [Bool.and_eq_true, decide_eq_true_eq] at listed
      exact listed.1
    obtain ⟨a, stance, hl, hs⟩ := (recorded_of_history h stock).suspended hx ⟨record, hr, suspended⟩
    obtain ⟨⟨c, rfl⟩, -⟩ := h.reachable.ordered.home hl
    obtain ⟨t, ht, hg, rfl⟩ := look_eq_some m _ hl
    obtain ⟨aw, hk, task⟩ := Control.await_of_suspends hs
    have awaits : m.Awaits c g aw := ⟨t, ht, hg, hk⟩
    obtain ⟨label, -, lasting⟩ := displayed hv awaits task
    exact ⟨c, aw, awaits, task, label, fun n hn s => lasting _ (h.reachable.sight_later hn) s⟩
  · intro c aw awaits looks v hv e
    have blind := (displayed hv awaits e.symm).2.1
    cases looks.symm.trans blind

/-- Two tasks await guards that hold, of which the first looks at the state, and the third has
the slot. -/
def readyActions : List (Action Unit Unit Unit) :=
  [.found "cog" (),
    .arrive (.submit ⟨1⟩ "looks" (.await (.any [.field "open" fun _ => .ok true, .always]) fun _ =>
        .exit (.ok ())) fun _ =>
      .submit ⟨1⟩ "stays" (.await (.all [.always, .timer (some 0) 0]) fun _ => .exit (.ok ())) fun _ =>
        .submit ⟨1⟩ "runs" (.block (fun _ => false) (.exit (.ok ()))) fun _ => .exit (.ok ()))] ++
    List.replicate 30 (.step (.caller 1)) ++
    [1, 2, 3].flatMap fun c => List.replicate 20 (.step (.context ⟨c⟩))

def readyMoves : List (Move Unit Unit Unit) :=
  (Machine.empty { namePrefix := "cog", admits := fun _ => true } ()).moves readyActions

def readied : Machine Unit Unit Unit :=
  readyActions.foldl perform (.empty { namePrefix := "cog", admits := fun _ => true } ())

theorem readiness_sound_held : ∃ x, readied.cogs.get? ⟨1⟩ = some x ∧
    x.scheduler.suspended.map (·.id) = [⟨1⟩, ⟨2⟩] ∧ x.scheduler.ready.map (·.id) = [⟨2⟩] ∧
    (∃ c aw, readied.Awaits c ⟨1⟩ aw ∧ aw.task = ⟨2⟩ ∧
      ∀ n, Reachable readied n → ∀ s, aw.guard.poll n.sight s = .ok true) ∧
    ∃ c aw, readied.Awaits c ⟨1⟩ aw ∧ aw.task = ⟨1⟩ ∧ aw.guard.looks = true ∧
      ∀ v ∈ x.scheduler.ready, v.id ≠ ⟨1⟩ := by
  have founded : (readied.cogs.get? ⟨1⟩).isSome := by decide +kernel
  obtain ⟨x, hx⟩ := Option.isSome_iff_exists.mp founded
  have listed : (readied.cogs.get? ⟨1⟩).map (fun x => (x.scheduler.suspended.map (·.id),
      x.scheduler.ready.map (·.id))) = some ([⟨1⟩, ⟨2⟩], [⟨2⟩]) := by decide +kernel
  rw [hx] at listed
  obtain ⟨suspended, ready⟩ : x.scheduler.suspended.map (·.id) = [⟨1⟩, ⟨2⟩] ∧
      x.scheduler.ready.map (·.id) = [⟨2⟩] := by simpa using listed
  have ran : History (.empty { namePrefix := "cog", admits := fun _ => true } ()) readyMoves readied :=
    history_moves _ readyActions
  obtain ⟨sound, blind⟩ := readiness_sound { namePrefix := "cog", admits := fun _ => true } () ran
    (by decide +kernel) (by decide +kernel) hx
  obtain ⟨v, hv, second⟩ : ∃ v ∈ x.scheduler.ready, v.id = ⟨2⟩ := by
    rw [← List.mem_map, ready]
    exact List.mem_cons_self
  obtain ⟨c, aw, awaits, task, -, holds⟩ := sound v hv
  -- The task that is not reported is in an await as well.
  have first : ((readied.threads.get? (.context ⟨1⟩)).bind fun t =>
      t.control.await?.map fun aw => (t.cog, aw.task, aw.guard.looks)) = some (some ⟨1⟩, ⟨1⟩, true) := by
    decide +kernel
  obtain ⟨t, ht, hk⟩ := Option.bind_eq_some_iff.mp first
  obtain ⟨aw', hk', e⟩ := Option.map_eq_some_iff.mp hk
  obtain ⟨home, task', looks⟩ : t.cog = some ⟨1⟩ ∧ aw'.task = ⟨1⟩ ∧ aw'.guard.looks = true := by
    simpa using e
  have awaits' : readied.Awaits ⟨1⟩ ⟨1⟩ aw' := ⟨t, ht, home, hk'⟩
  exact ⟨x, hx, suspended, ready, ⟨c, aw, awaits, task.trans second, holds⟩, ⟨1⟩, aw', awaits', task', looks,
    fun v hv => task' ▸ blind ⟨1⟩ aw' awaits' looks v hv⟩

end ObjectGroups
