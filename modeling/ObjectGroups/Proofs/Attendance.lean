/-
Records, handles and threads say the same of a task.

The record of an unfinished task and its handle show one state, and the thread
that hosts the task is where this state says: with the slot while the task is
running, without it while the task is suspended. A thread hosts a task that
has no record only after it has been told that the task is aborted. The handle
of a task without a record shows how it has ended.
-/
import ObjectGroups.Proofs.Courses
import ObjectGroups.Proofs.Heeded

namespace ObjectGroups

variable {S A V : Type} {m m' : Machine S A V} {a : Agent} {g : CogId} {c : ContextId}
  {own : Option CogId} {s s' : Stance} {x x' : Cog S A V} {k j : TaskId} {move : Action S A V}

open Machine Scheduler

/-! ## Records and handles -/

/-- What the view of an unfinished task says fits its state. -/
structure TaskRecord.Sound (r : TaskRecord) : Prop where
  unfinished : r.view.state ≠ .finished
  guarded : r.view.guard.isSome ↔ r.view.state = .suspended
  ready : r.view.ready = true → r.view.state = .suspended

namespace Scheduler

variable {y y' : Scheduler S A V} {st : TaskState} {f : TaskRecord → TaskRecord}
  {outcome : TaskOutcome} {r : TaskRecord}

theorem sound_running (now : Instant) : (running c now r).Sound := by
  constructor <;> simp [running]

theorem sound_awaiting (label : String) : (awaiting label r).Sound := by
  constructor <;> simp [awaiting]

theorem sound_prepared (h : r.Sound) (hs : r.view.state = .suspended) : (prepared r).Sound where
  unfinished := h.unfinished
  guarded := h.guarded
  ready _ := hs

/-- The handle of a task shows what its record says, and how it has ended if it has none. -/
structure Faithful (y : Scheduler S A V) : Prop where
  sound {k : TaskId} {r : TaskRecord} : y.records.get? k = some r → r.Sound
  shown {k : TaskId} {r : TaskRecord} : y.records.get? k = some r →
    y.handles.get? k = some { state := r.view.state }
  ended {k : TaskId} {h : TaskHandle} : y.handles.get? k = some h → y.records.get? k = none →
    h.state = .finished ∧ h.outcome.isSome

namespace Faithful

theorem start : ({} : Scheduler S A V).Faithful := by
  constructor <;> intro _ _ h <;> cases h

variable (h : y.Faithful)
include h

theorem same (hs : y.SameTasks y') : y'.Faithful where
  sound hk := h.sound (hs.records ▸ hk)
  shown hk := hs.handles ▸ h.shown (hs.records ▸ hk)
  ended hk habs := h.ended (hs.handles ▸ hk) (hs.records ▸ habs)

/-- One task gets another record and shows its state, and all others keep what they have. -/
theorem moves (hm : y.Moves y' k st f) (hf : ∀ r, (f r).Sound ∧ (f r).view.state = st) :
    y'.Faithful := by
  obtain ⟨old, hold⟩ := Option.isSome_iff_exists.mp hm.present
  have record : y'.records.get? k = some (f old) := by
    rw [hm.records, Table.get?_modify, if_pos rfl, hold]
    rfl
  have handle : y'.handles.get? k = some { state := st } := by
    rw [hm.handles, Table.get?_modify, if_pos rfl, h.shown hold]
    rfl
  have others {i : TaskId} (hi : i ≠ k) : y'.records.get? i = y.records.get? i ∧
      y'.handles.get? i = y.handles.get? i := by
    rw [hm.records, hm.handles, Table.get?_modify, Table.get?_modify, if_neg hi, if_neg hi]
    exact ⟨rfl, rfl⟩
  constructor
  · intro i r hi
    by_cases e : i = k
    · cases record.symm.trans (e ▸ hi)
      exact (hf old).1
    · exact h.sound ((others e).1 ▸ hi)
  · intro i r hi
    by_cases e : i = k
    · cases record.symm.trans (e ▸ hi)
      rw [e, (hf old).2, handle]
    · rw [(others e).2]
      exact h.shown ((others e).1 ▸ hi)
  · intro i d hd habs
    by_cases e : i = k
    · rw [e, record] at habs
      cases habs
    · exact h.ended ((others e).2 ▸ hd) ((others e).1 ▸ habs)

theorem ends (he : y.Ends y' k outcome) : y'.Faithful := by
  obtain ⟨old, hold⟩ := Option.isSome_iff_exists.mp he.present
  have handle : y'.handles.get? k = some { state := .finished, outcome := some outcome } := by
    rw [he.handles, Table.get?_modify, if_pos rfl, h.shown hold]
    rfl
  have others {i : TaskId} (hi : i ≠ k) : y'.records.get? i = y.records.get? i ∧
      y'.handles.get? i = y.handles.get? i := by
    rw [he.records, he.handles, Table.get?_remove, Table.get?_modify, if_neg hi, if_neg hi]
    exact ⟨rfl, rfl⟩
  have left {i : TaskId} {r : TaskRecord} (hi : y'.records.get? i = some r) :
      i ≠ k ∧ y.records.get? i = some r := by
    have hne : i ≠ k := by
      rintro rfl
      rw [he.records, Table.get?_remove, if_pos rfl] at hi
      cases hi
    exact ⟨hne, (others hne).1 ▸ hi⟩
  constructor
  · intro i r hi
    exact h.sound (left hi).2
  · intro i r hi
    rw [(others (left hi).1).2]
    exact h.shown (left hi).2
  · intro i d hd habs
    by_cases e : i = k
    · cases handle.symm.trans (e ▸ hd)
      exact ⟨rfl, rfl⟩
    · exact h.ended ((others e).2 ▸ hd) ((others e).1 ▸ habs)

theorem enter {view : TaskView} (he : y.Enters y' view) : y'.Faithful := by
  constructor
  · intro i r hi
    rw [he.records, Table.get?_put] at hi
    split at hi
    · cases hi
      constructor <;> simp [he.state, he.plain]
    · exact h.sound hi
  · intro i r hi
    rw [he.records, Table.get?_put] at hi
    rw [he.handles, Table.get?_put]
    split at hi
    · next e =>
      cases hi
      rw [if_pos e, he.state]
    · next e =>
      rw [if_neg e]
      exact h.shown hi
  · intro i d hd habs
    rw [he.records, Table.get?_put] at habs
    rw [he.handles, Table.get?_put] at hd
    split at habs
    · cases habs
    · next e =>
      rw [if_neg e] at hd
      exact h.ended hd habs

theorem withdraw (hw : y.Withdraws y' k) : y'.Faithful := by
  constructor
  · intro i r hi
    rw [hw.records, Table.get?_remove] at hi
    split at hi
    · cases hi
    · exact h.sound hi
  · intro i r hi
    rw [hw.records, Table.get?_remove] at hi
    rw [hw.handles, Table.get?_remove]
    split at hi
    · cases hi
    · next e =>
      rw [if_neg e]
      exact h.shown hi
  · intro i d hd habs
    rw [hw.records, Table.get?_remove] at habs
    rw [hw.handles, Table.get?_remove] at hd
    split at hd
    · cases hd
    · next e =>
      rw [if_neg e] at habs
      exact h.ended hd habs

theorem prepare (hs : ∀ r, y.records.get? k = some r → r.view.state = .suspended)
    (hr : y'.records = y.records.modify k prepared) (hh : y'.handles = y.handles) : y'.Faithful := by
  constructor
  · intro i r hi
    rw [hr, Table.get?_modify] at hi
    split at hi
    · next e =>
      obtain ⟨old, hold, rfl⟩ := Option.map_eq_some_iff.mp hi
      exact sound_prepared (h.sound hold) (hs old (e ▸ hold))
    · exact h.sound hi
  · intro i r hi
    rw [hr, Table.get?_modify] at hi
    rw [hh]
    split at hi
    · obtain ⟨old, hold, rfl⟩ := Option.map_eq_some_iff.mp hi
      have shown := h.shown hold
      exact shown
    · exact h.shown hi
  · intro i d hd habs
    rw [hr, Table.get?_modify] at habs
    refine h.ended (hh ▸ hd) ?_
    split at habs <;> simpa using habs

theorem cancelled (he : y.Ends y' k .aborted) : y'.Cancelled k := by
  obtain ⟨old, hold⟩ := Option.isSome_iff_exists.mp he.present
  constructor
  · rw [he.records, Table.get?_remove, if_pos rfl]
  · rw [he.handles, Table.get?_modify, if_pos rfl, h.shown hold]
    rfl

end Faithful

end Scheduler

theorem Course.faithful {y y' : Scheduler S A V} (h : Course a g own y y' s s') (hy : y.Faithful)
    (hw : own = some g → ∀ k r, s.suspends = some k → y.records.get? k = some r →
      r.view.state = .suspended) : y'.Faithful := by
  cases h with
  | rest _ same => exact hy.same same
  | unwind _ _ same => exact hy.same same
  | retire _ _ same => exact hy.same same
  | enter _ _ enters => exact hy.enter enters
  | withdraw _ _ withdraws => exact hy.withdraw withdraws
  | start now _ _ _ hm => exact hy.moves hm fun r => ⟨sound_running now, rfl⟩
  | suspend label _ _ _ _ hm => exact hy.moves hm fun r => ⟨sound_awaiting label, rfl⟩
  | prepare hown _ hr hh => exact hy.prepare (fun r => hw hown _ r rfl) hr hh
  | resume now _ _ _ hm => exact hy.moves hm fun r => ⟨sound_running now, rfl⟩
  | complete _ _ he => exact hy.ends he
  | abort _ _ _ _ he => exact hy.ends he
  | strand _ _ _ he => exact hy.ends he
  | fade _ _ _ same => exact hy.same same

/-! ## Threads -/

namespace Stance

theorem suspends_eq (s : Stance) : s.suspends = if s.seat?.any (·.active) then none else s.charge := by
  have hosts : ∀ t, s.suspends = some t → s.seat? = some ⟨t, false⟩ := fun t => seat_of_suspends
  unfold charge
  cases hs : s.seat? with
  | none => simp
  | some seat =>
    obtain ⟨k, active⟩ := seat
    cases active with
    | false => simp
    | true =>
      cases hw : s.suspends with
      | none => simp
      | some t => cases hs.symm.trans (hosts t hw)

theorem Alike.suspends (h : Alike g own s s') (hown : own = some g) : s'.suspends = s.suspends := by
  rw [suspends_eq, suspends_eq, h.seat hown, h.charge hown]

end Stance

/-- What the scheduler says of the task that the context hosts in this stance. -/
inductive Scheduler.Attends (y : Scheduler S A V) (c : ContextId) (k : TaskId) (s : Stance) : Prop where
  | running {r : TaskRecord} : s.seat? = some ⟨k, true⟩ → y.records.get? k = some r →
      r.view.state = .running → r.view.context = some c → Attends y c k s
  | suspended {r : TaskRecord} : s.seat? = some ⟨k, false⟩ → y.records.get? k = some r →
      r.view.state = .suspended → r.view.context = some c → Attends y c k s
  /-- The await is over, since it has been interrupted. -/
  | cancelled : s.seat? = some ⟨k, false⟩ → s.suspends = none → y.Cancelled k → Attends y c k s

namespace Scheduler.Attends

variable {y y' : Scheduler S A V}

theorem record (h : y.Attends c k s) (hs : s.charge = some k) : ∃ r, y.records.get? k = some r ∧
    r.view.context = some c ∧ r.view.state ≠ .queued := by
  cases h with
  | @running r _ hr state context => exact ⟨r, hr, context, by simp [state]⟩
  | @suspended r _ hr state context => exact ⟨r, hr, context, by simp [state]⟩
  | cancelled seat idle =>
    unfold Stance.charge at hs
    rw [seat] at hs
    cases idle.symm.trans hs

theorem running_of (h : y.Attends c k s) (hs : s.seat? = some ⟨k, true⟩) {r : TaskRecord}
    (hr : y.records.get? k = some r) : r.view.state = .running := by
  cases h with
  | running _ hr' state =>
    cases hr.symm.trans hr'
    exact state
  | suspended seat => cases hs.symm.trans seat
  | cancelled seat => cases hs.symm.trans seat

/-- A task that is hosted without the slot is suspended, as long as it has a record. -/
theorem idle_of (h : y.Attends c k s) (hs : s.seat? = some ⟨k, false⟩) {r : TaskRecord}
    (hr : y.records.get? k = some r) : r.view.state = .suspended := by
  cases h with
  | running seat => cases hs.symm.trans seat
  | suspended _ hr' state =>
    cases hr.symm.trans hr'
    exact state
  | cancelled _ _ past => cases hr.symm.trans past.1

theorem suspended_of (h : y.Attends c k s) (hs : s.suspends = some k) {r : TaskRecord}
    (hr : y.records.get? k = some r) : r.view.state = .suspended :=
  h.idle_of (Stance.seat_of_suspends hs) hr

theorem of_eq (h : y.Attends c k s) (hr : y'.records.get? k = y.records.get? k)
    (hh : y'.handles.get? k = y.handles.get? k) (seat : s'.seat? = s.seat?)
    (hs : s'.suspends = s.suspends ∨ s'.suspends = none) : y'.Attends c k s' := by
  cases h with
  | running hseat hrec state context => exact .running (seat.trans hseat) (hr.trans hrec) state context
  | suspended hseat hrec state context => exact .suspended (seat.trans hseat) (hr.trans hrec) state context
  | cancelled hseat idle past =>
    refine .cancelled (seat.trans hseat) (hs.elim (·.trans idle) id) ?_
    unfold Cancelled
    rw [hr, hh]
    exact past

end Scheduler.Attends

namespace Course

variable {y y' : Scheduler S A V}

/-- What the scheduler says of the task that the thread hosts after a deed. -/
theorem attends (h : Course (.context c) g (some g) y y' s s') (hy : y.Faithful)
    (hl : ∀ k, s.offers g = some k → k ∈ y.queued)
    (hk : ∀ k active, s.seat? = some ⟨k, active⟩ → y.Attends c k s ∧ s.letter? ≠ some k ∧ k ∉ y.queued)
    {active : Bool} (hs : s'.seat? = some ⟨k, active⟩) : y'.Attends c k s' := by
  have moved {st : TaskState} {f : TaskRecord → TaskRecord} {i : TaskId} (hm : y.Moves y' i st f) :
      ∃ r, y.records.get? i = some r ∧ y'.records.get? i = some (f r) := by
    obtain ⟨r, hr⟩ := Option.isSome_iff_exists.mp hm.present
    exact ⟨r, hr, by rw [hm.records, Table.get?_modify, if_pos rfl, hr]; rfl⟩
  cases h with
  | rest keeps same =>
    exact (hk k active (keeps.seat ▸ hs)).1.of_eq (by rw [same.records]) (by rw [same.handles])
      keeps.seat (.inl keeps.suspends)
  | unwind _ suspends same =>
    cases hs
    have seat := Stance.seat_of_suspends suspends
    exact (hk k false seat).1.of_eq (by rw [same.records]) (by rw [same.handles]) seat.symm (.inr rfl)
  | retire => cases hs
  | enter letter keeps enters =>
    obtain ⟨attends, other, -⟩ := hk k active (keeps.seat ▸ hs)
    have hne : k ≠ _ := fun e => other (e ▸ letter)
    exact attends.of_eq (by rw [enters.records, Table.get?_put, if_neg hne])
      (by rw [enters.handles, Table.get?_put, if_neg hne]) keeps.seat (.inl keeps.suspends)
  | withdraw offers keeps withdraws =>
    obtain ⟨attends, -, other⟩ := hk k active (keeps.seat ▸ hs)
    have hne : k ≠ _ := fun e => other (e ▸ hl _ offers)
    exact attends.of_eq (by rw [withdraws.records, Table.get?_remove, if_neg hne])
      (by rw [withdraws.handles, Table.get?_remove, if_neg hne]) keeps.seat (.inl keeps.suspends)
  | start now e _ _ hm =>
    cases e
    cases hs
    obtain ⟨r, -, hr⟩ := moved hm
    exact .running rfl hr rfl rfl
  | suspend label e _ _ suspends hm =>
    have seat := Stance.seat_of_suspends suspends
    cases seat.symm.trans hs
    obtain ⟨r, hr, hr'⟩ := moved hm
    obtain ⟨r₀, hr₀, context, -⟩ := (hk k true rfl).1.record rfl
    cases hr.symm.trans hr₀
    exact .suspended seat hr' rfl context
  | prepare _ _ hr hh =>
    cases hs
    obtain ⟨attends, -⟩ := hk k false rfl
    obtain ⟨r, hr₀, context, -⟩ := attends.record rfl
    have state : r.view.state = .suspended := attends.suspended_of rfl hr₀
    have record : y'.records.get? k = some (prepared r) := by
      rw [hr, Table.get?_modify, if_pos rfl, hr₀]
      rfl
    exact .suspended rfl record state context
  | resume now e _ _ hm =>
    cases e
    cases hs
    obtain ⟨r, -, hr⟩ := moved hm
    exact .running rfl hr rfl rfl
  | complete => cases hs
  | abort _ _ _ _ he =>
    cases hs
    exact .cancelled rfl rfl (hy.cancelled he)
  | strand => cases hs
  | fade => cases hs

/-- A task that has begun had begun before, or the thread hosts it now. -/
theorem begun (h : Course a g own y y' s s')
    (hk : ∀ c k active, a = .context c → own = some g → s.seat? = some ⟨k, active⟩ → y.Attends c k s)
    {r : TaskRecord} (hr : y'.records.get? k = some r) (hs : r.view.state ≠ .queued) :
    (∃ r₀, y.records.get? k = some r₀ ∧ r₀.view.state ≠ .queued ∧ r.view.context = r₀.view.context ∧
      ∀ active, s.seat? = some ⟨k, active⟩ → ∃ active', s'.seat? = some ⟨k, active'⟩) ∨
    ∃ c active, a = .context c ∧ own = some g ∧ r.view.context = some c ∧ s'.seat? = some ⟨k, active⟩ := by
  -- A record that has not changed, while the thread goes on to host what it hosted.
  have old (hr' : y.records.get? k = some r)
      (seat : ∀ active, s.seat? = some ⟨k, active⟩ → ∃ active', s'.seat? = some ⟨k, active'⟩) :
      (∃ r₀, y.records.get? k = some r₀ ∧ r₀.view.state ≠ .queued ∧ r.view.context = r₀.view.context ∧
        ∀ active, s.seat? = some ⟨k, active⟩ → ∃ active', s'.seat? = some ⟨k, active'⟩) ∨
      ∃ c active, a = .context c ∧ own = some g ∧ r.view.context = some c ∧
        s'.seat? = some ⟨k, active⟩ := .inl ⟨r, hr', hs, rfl, seat⟩
  have modified {i : TaskId} {f : TaskRecord → TaskRecord} (hm : y'.records = y.records.modify i f) :
      (k = i ∧ ∃ r₀, y.records.get? i = some r₀ ∧ r = f r₀) ∨ (k ≠ i ∧ y.records.get? k = some r) := by
    rw [hm, Table.get?_modify] at hr
    split at hr
    · next e =>
      obtain ⟨r₀, hr₀, rfl⟩ := Option.map_eq_some_iff.mp hr
      exact .inl ⟨e, r₀, e ▸ hr₀, rfl⟩
    · next e => exact .inr ⟨e, hr⟩
  have removed {i : TaskId} (hm : y'.records = y.records.remove i) : k ≠ i ∧ y.records.get? k = some r := by
    rw [hm, Table.get?_remove] at hr
    split at hr
    · cases hr
    · next e => exact ⟨e, hr⟩
  cases h with
  | rest keeps same => exact old (same.records ▸ hr) fun active seat => ⟨active, keeps.seat.trans seat⟩
  | unwind _ suspends same =>
    refine old (same.records ▸ hr) fun active seat => ⟨false, ?_⟩
    cases seat.symm.trans (Stance.seat_of_suspends suspends)
    rfl
  | retire _ _ same => exact old (same.records ▸ hr) (by intro active seat; cases seat)
  | enter _ keeps enters =>
    rw [enters.records, Table.get?_put] at hr
    split at hr
    · cases hr
      exact absurd enters.state hs
    · exact old hr fun active seat => ⟨active, keeps.seat.trans seat⟩
  | withdraw _ keeps withdraws =>
    exact old (removed withdraws.records).2 fun active seat => ⟨active, keeps.seat.trans seat⟩
  | start now ha hown _ hm =>
    rcases modified hm.records with ⟨rfl, r₀, -, rfl⟩ | ⟨-, hr⟩
    · exact .inr ⟨_, true, ha, hown, rfl, rfl⟩
    · exact old hr (by intro active hseat; cases hseat)
  | @suspend d i s' label ha hown _ suspends hm =>
    have seat := Stance.seat_of_suspends suspends
    rcases modified hm.records with ⟨rfl, r₀, hr₀, rfl⟩ | ⟨hne, hr⟩
    · obtain ⟨r₁, hr₁, context, -⟩ := (hk d k true ha hown rfl).record rfl
      cases hr₀.symm.trans hr₁
      exact .inr ⟨d, false, ha, hown, context, seat⟩
    · exact old hr (by intro active hseat; cases hseat; exact absurd rfl hne)
  | prepare _ _ hrec =>
    rcases modified hrec with ⟨rfl, r₀, hr₀, rfl⟩ | ⟨hne, hr⟩
    · exact .inl ⟨r₀, hr₀, hs, rfl, fun active hseat => ⟨active, hseat⟩⟩
    · exact old hr fun active hseat => ⟨active, hseat⟩
  | resume now ha hown _ hm =>
    rcases modified hm.records with ⟨rfl, r₀, -, rfl⟩ | ⟨hne, hr⟩
    · exact .inr ⟨_, true, ha, hown, rfl, rfl⟩
    · exact old hr (by intro active hseat; cases hseat; exact absurd rfl hne)
  | complete _ _ he =>
    obtain ⟨hne, hr⟩ := removed he.records
    exact old hr (by intro active hseat; cases hseat; exact absurd rfl hne)
  | abort _ _ _ hst he =>
    obtain ⟨hne, hr⟩ := removed he.records
    exact old hr (by intro active hseat; rcases hst with rfl | rfl <;> cases hseat <;> exact absurd rfl hne)
  | strand _ _ _ he =>
    obtain ⟨hne, hr⟩ := removed he.records
    exact old hr (by intro active hseat; cases hseat; exact absurd rfl hne)
  | fade _ _ habs same =>
    rw [same.records] at hr
    exact old hr (by intro active hseat; cases hseat; cases habs.symm.trans hr)

end Course

/-! ## Whole runs -/

/-- Records, handles and threads of the cog say the same. -/
structure Machine.Attended (m : Machine S A V) (g : CogId) (x : Cog S A V) : Prop where
  faithful : x.scheduler.Faithful
  hosted {c : ContextId} {s : Stance} {k : TaskId} {active : Bool} :
    m.look (.context c) = some (some g, s) → s.seat? = some ⟨k, active⟩ → x.scheduler.Attends c k s
  /-- A task that has begun is hosted by the context that its record names. -/
  begun {k : TaskId} {r : TaskRecord} : x.scheduler.records.get? k = some r → r.view.state ≠ .queued →
    ∃ c s active, r.view.context = some c ∧ m.look (.context c) = some (some g, s) ∧
      s.seat? = some ⟨k, active⟩

namespace Machine

section
variable {loud : Bool}

theorem Filed.offers_last (h : m.Filed g x) (ht : Turns m a own s s' m') {k : TaskId}
    (hk : s.offers g = some k) : ∃ q, x.scheduler.queued = q ++ [k] := h.last k ⟨a, own, s, ht.before, hk⟩

variable (ho : m.Ordered) (ht : Turns m a own s s' m')
include ho ht

omit ht in
/-- The unfinished task that a thread hosts has its record. -/
theorem Filed.charged (h : m.Filed g x) (hl : m.look a = some (own, s)) (hown : own = some g)
    (hk : s.charge = some k) : (x.scheduler.records.get? k).isSome := by
  subst hown
  obtain ⟨⟨c, rfl⟩, -⟩ := ho.home hl
  obtain ⟨r, hr, -⟩ := h.hosted hl hk
  simp [hr]

/-- A task that is stranded in a deed is counted if it is unfinished. -/
theorem Ordered.stranded (ha : m.act move = some m') (hw : Works m g x x' m')
    (hd : Deed g a own loud s x s' x') (hs : s = .strand k) (hs' : s' = .leave) :
    x'.ended = if x.scheduler.records.has k then x.ended + 1 else x.ended := by
  have home : own = some g := by
    rw [hs] at hd
    cases hd <;> rfl
  rw [home, hs] at ht
  refine ho.strand_cases ha hw.before hw.here ht.before ?_
  rw [ht.after, hs']

/-- What a deed comes to in a run. -/
theorem Filed.course (h : m.Filed g x) (hb : m.Blank) (ha : m.act move = some m') (hw : Works m g x x' m')
    (hd : Deed g a own loud s x s' x') : Course a g own x.scheduler x'.scheduler s s' :=
  hd.course h.queued (fun hown _ hk => h.charged ho ht.before hown hk)
    (fun seat view e => hb a own seat g view (e ▸ ht.before)) fun _ hs hs' => ho.stranded ht ha hw hd hs hs'

/-- A task that a thread hosts is neither on its way into a queue nor in one. -/
theorem Ordered.hosted_apart (hx : m.cogs.get? g = some x) {b : Agent} {own₀ : Option CogId} {s₀ : Stance}
    {active : Bool} (hl : m.look b = some (own₀, s₀)) (hk : s₀.seat? = some ⟨k, active⟩) :
    s.letter? ≠ some k ∧ k ∉ x.scheduler.queued := by
  have mine : m.Berthed k (.seat b) := ⟨own₀, s₀, active, hl, hk⟩
  constructor
  · intro letter
    have same := ho.berth mine (q := .letter a) ⟨own, s, ht.before, letter⟩
    cases same
  · intro queued
    have same := ho.berth mine (q := .queue g) ⟨x, hx, queued⟩
    cases same

/-- A deed is nothing to a task that another thread hosts. -/
theorem Filed.spares (h : m.Filed g x) (hb : m.Blank) (ha : m.act move = some m')
    (hw : Works m g x x' m') (hd : Deed g a own loud s x s' x') {b : Agent} {own₀ : Option CogId}
    {s₀ : Stance} {active : Bool} (hl : m.look b = some (own₀, s₀)) (hk : s₀.seat? = some ⟨k, active⟩)
    (hne : b ≠ a) : x'.scheduler.records.get? k = x.scheduler.records.get? k ∧
      x'.scheduler.handles.get? k = x.scheduler.handles.get? k := by
  obtain ⟨letter, queued⟩ := ho.hosted_apart ht hw.before hl hk
  refine (h.course ho ht hb ha hw hd).spares (fun k hk => h.offers_last ht hk) (fun _ active' seat => ?_)
    letter queued
  have same := ho.berth (p := .seat b) (q := .seat a) ⟨own₀, s₀, active, hl, hk⟩
    ⟨own, s, active', ht.before, seat⟩
  cases same
  exact hne rfl

theorem Attended.deed (h : m.Attended g x) (hf : m.Filed g x) (hb : m.Blank)
    (ha : m.act move = some m') (hw : Works m g x x' m') (hd : Deed g a own loud s x s' x') :
    m'.Attended g x' := by
  have course := hf.course ho ht hb ha hw hd
  have last {k : TaskId} (hk : s.offers g = some k) := hf.offers_last ht hk
  constructor
  case faithful =>
    refine course.faithful h.faithful ?_
    rintro rfl k r hs hr
    obtain ⟨⟨c, rfl⟩, -⟩ := ho.home ht.before
    exact (h.hosted ht.before (Stance.seat_of_suspends hs)).suspended_of hs hr
  case hosted =>
    intro c s₁ k active hl' hk
    rcases ht.cases hl' with ⟨rfl, rfl, rfl⟩ | ⟨hne, hl⟩
    · refine course.attends h.faithful (fun k hk => ?_) (fun k active hk => ?_) hk
      · obtain ⟨q, hq⟩ := last hk
        simp [hq]
      · exact ⟨h.hosted ht.before hk, ho.hosted_apart ht hw.before ht.before hk⟩
    · obtain ⟨record, handle⟩ := hf.spares ho ht hb ha hw hd hl hk hne
      exact (h.hosted hl hk).of_eq record handle rfl (.inl rfl)
  case begun =>
    intro k r hr hs
    rcases course.begun (fun c k active e hown hk => by
        subst e hown
        exact h.hosted ht.before hk) hr hs with ⟨r₀, hr₀, hs₀, context, seat⟩ | ⟨c, active, rfl, rfl, context, seat⟩
    · obtain ⟨c, s₀, active, context₀, hl, hk⟩ := h.begun hr₀ hs₀
      rw [context]
      by_cases hca : .context c = a
      · subst hca
        cases ht.before.symm.trans hl
        obtain ⟨active', hk'⟩ := seat active hk
        exact ⟨c, s', active', context₀, ht.after, hk'⟩
      · exact ⟨c, s₀, active, context₀, (ht.others _ hca).look.trans hl, hk⟩
    · exact ⟨c, s', active, context, ht.after, seat⟩

end

theorem Attended.grant {d : ContextId} (h : m.Attended g x) (ho : m.Ordered)
    (hb : Births m a own s s' d (some g) .claim m') (hg : Grant g d a own s x s' x') :
    m'.Attended g x' := by
  have records : x'.scheduler.records = x.scheduler.records := by cases hg <;> rfl
  have handles : x'.scheduler.handles = x.scheduler.handles := by cases hg <;> rfl
  have seat : s'.seat? = s.seat? := by cases hg <;> rfl
  have suspends : s'.suspends = s.suspends := by cases hg <;> rfl
  constructor
  case faithful => exact h.faithful.same ⟨records, handles, by cases hg <;> rfl⟩
  case hosted =>
    intro c s₁ k active hl' hk
    rcases hb.cases hl' with ⟨rfl, rfl, rfl⟩ | ⟨-, -, -, rfl⟩ | ⟨-, -, hl⟩
    · exact (h.hosted hb.before (seat ▸ hk)).of_eq (by rw [records]) (by rw [handles]) seat (.inl suspends)
    · cases hk
    · exact (h.hosted hl hk).of_eq (by rw [records]) (by rw [handles]) rfl (.inl rfl)
  case begun =>
    intro k r hr hs
    obtain ⟨c, s₀, active, context, hl, hk⟩ := h.begun (records ▸ hr) hs
    refine ⟨c, ?_⟩
    by_cases hca : .context c = a
    · subst hca
      cases hb.before.symm.trans hl
      exact ⟨s', active, context, hb.after, seat.trans hk⟩
    · have hcd : c ≠ d := by
        rintro rfl
        cases hl.symm.trans (ho.unlaunched hb.before hb.launches)
      exact ⟨s₀, active, context, (hb.others _ hca (by simp [hcd])).look.trans hl, hk⟩

theorem Attended.aside (h : m.Attended g x) (hb : ∀ b, Beside g (m.look b) (m'.look b))
    (hx : x'.scheduler = x.scheduler) : m'.Attended g x' where
  faithful := hx ▸ h.faithful
  hosted := by
    intro c s k active hl hk
    rw [hx]
    rcases (hb (.context c)).before hl with ⟨s₀, hl₀, alike⟩ | ⟨other, -⟩
    · exact (h.hosted hl₀ ((alike.seat rfl).symm.trans hk)).of_eq rfl rfl (alike.seat rfl)
        (.inl (alike.suspends rfl))
    · exact absurd rfl other
  begun := by
    intro k r hr hs
    obtain ⟨c, s, active, context, hl, hk⟩ := h.begun (hx ▸ hr) hs
    rcases (hb (.context c)).after hl with ⟨s', hl', alike⟩ | rfl | ⟨none, -⟩
    · exact ⟨c, s', active, context, hl', (alike.seat rfl).trans hk⟩
    · cases hk
    · cases none

/-- A cog that has just been founded has no tasks. -/
theorem Attended.founded (ho : m.Ordered) (hb : ∀ b, Beside g (m.look b) (m'.look b))
    (absent : m.cogs.get? g = none) (hs : x'.scheduler = {}) : m'.Attended g x' where
  faithful := hs ▸ .start
  hosted := by
    intro c s k active hl hk
    rcases (hb (.context c)).before hl with ⟨s₀, hl₀, -⟩ | ⟨other, -⟩
    · obtain ⟨-, x, hx⟩ := ho.home hl₀
      cases absent.symm.trans hx
    · exact absurd rfl other
  begun := by
    intro k r hr
    rw [hs] at hr
    cases hr

/-- In every run, records, handles and threads say the same of a task. -/
theorem Reachable.attended {r : Registry} {memory : A} (h : Reachable (.empty r memory) m)
    (hx : m.cogs.get? g = some x) : m.Attended g x := by
  induction h generalizing x with
  | refl => cases hx
  | @act m m' move h ha ih =>
    have ho : m.Ordered := h.ordered
    have aftermath := (shift_act ho ha).aftermath ho hx
    generalize move.actor? = actor at aftermath
    cases aftermath with
    | founded hb absent empty => exact .founded ho hb absent empty
    | aside hb hy same => exact (ih hy).aside hb same
    | deed ht hw hd => exact (ih hw.before).deed ho ht (h.filed hw.before) h.blank ha hw hd
    | grant hb hw hg => exact (ih hw.before).grant ho hb hg

/-- A thread of a cog has a task of it, or is between tasks, or is about to leave. -/
theorem Reachable.engaged {r : Registry} {memory : A} (h : Reachable (.empty r memory) m)
    (hl : m.look a = some (some g, s)) : s.hosts = true ∨ s = .leave := by
  induction h generalizing a s with
  | refl => cases hl
  | @act m m' move h ha ih =>
    have turns {b : Agent} {own : Option CogId} {s₁ s₂ : Stance} (ht : Turns m b own s₁ s₂ m')
        (keeps : own = some g → s₁.hosts = true ∨ s₁ = .leave → s₂.hosts = true ∨ s₂ = .leave) :
        s.hosts = true ∨ s = .leave := by
      rcases ht.cases hl with ⟨-, hown, rfl⟩ | ⟨-, hl₀⟩
      · exact keeps hown.symm (ih (hown ▸ ht.before))
      · exact ih hl₀
    have births {b : Agent} {own cog : Option CogId} {s₁ s₂ first : Stance} {d : ContextId}
        (hb : Births m b own s₁ s₂ d cog first m') (hfirst : cog = some g → first.hosts = true)
        (keeps : s₂.seat? = s₁.seat? ∧ s₁ ≠ .leave ∧ s₁ ≠ .claim) : s.hosts = true ∨ s = .leave := by
      rcases hb.cases hl with ⟨-, hown, rfl⟩ | ⟨-, -, hcog, rfl⟩ | ⟨-, -, hl₀⟩
      · have before := (ih (hown ▸ hb.before)).resolve_right keeps.2.1
        exact .inl (by simp_all [Stance.hosts])
      · exact .inl (hfirst hcog.symm)
      · exact ih hl₀
    have other (hs : m.Stirred m' a) : s.hosts = true ∨ s = .leave := ih (hs.look ▸ hl)
    -- The start of a context goes on for the same task.
    have staged {s₁ : Stance} {stage stage' : Stage} (hst : s₁.stage? = some stage)
        (before : s₁.hosts = true ∨ s₁ = .leave) :
        (s₁.restage stage').hosts = true ∨ s₁.restage stage' = .leave := by
      rcases before with hosts | rfl
      · exact .inl ((s₁.hosts_restage stage').trans hosts)
      · cases hst
    have shift := shift_act h.ordered ha
    generalize move.actor? = actor at shift
    cases shift with
    | quiet ht hq =>
      refine turns ht fun _ before => ?_
      cases hq with
      | same => exact before
      | enter _ _ hst => exact staged hst before
      | await | strand => exact .inl rfl
      | leave => exact .inr rfl
      | start | dropped => simpa [Stance.hosts, Stance.seat?] using before
    | deed ht _ hd =>
      refine turns ht fun _ before => ?_
      cases hd <;> first
        | exact .inl rfl
        | exact .inr rfl
        | simpa [Stance.hosts, Stance.seat?] using before
    | allocate ht hst => exact turns ht fun _ before => staged hst before
    | birth hb _ hg => exact births hb (fun _ => rfl) (by cases hg <;> simp [Stance.seat?])
    | launch hb => exact births hb (by simp) (by simp [Stance.seat?])
    | letter ht hs =>
      refine turns ht fun _ before => ?_
      rcases hs with rfl | ⟨i, view, rfl, -⟩
      · exact before
      · simpa [Stance.hosts, Stance.seat?] using before
    | @gone b _ _ _ _ hgone others =>
      refine other (others a ?_)
      rintro rfl
      simp [look, hgone] at hl
    | arrive hnew others =>
      refine other (others a ?_)
      rintro rfl
      cases hnew.symm.trans hl
    | found _ _ others => exact other (others a)
    | furnish hth => exact other (.same hth)
    | rest others => exact other (others a)

end Machine

end ObjectGroups
