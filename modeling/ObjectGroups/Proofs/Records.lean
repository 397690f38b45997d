/-
An unfinished task has a record and a handle.

A task gets both as it is put into the queue. It keeps them there, and while a
thread hosts it and has not finished with it; the record then names the
context of that thread. Only who hosts a task ends it, and only who has just
put it into the queue takes it back, which is the last one there.
-/
import ObjectGroups.Proofs.Arrivals

namespace ObjectGroups

variable {S A V : Type} {m m' : Machine S A V} {a : Agent} {g : CogId} {c : ContextId}
  {own : Option CogId} {s s' : Stance} {x x' : Cog S A V} {k t : TaskId} {actor : Option Agent}

open Machine

/-! ## Handles -/

namespace Scheduler

variable {y y' : Scheduler S A V} {d : ContextId} {now : Instant}

/-- Every task that has a record has a handle. -/
def Handled (y : Scheduler S A V) : Prop :=
  ∀ k, (y.records.get? k).isSome → (y.handles.get? k).isSome

namespace Handled

variable (h : y.Handled)
include h

theorem same (hr : y'.records = y.records) (hh : y'.handles = y.handles) : y'.Handled := by
  unfold Handled
  rw [hr, hh]
  exact h

theorem setState {st : TaskState} {f : TaskRecord → TaskRecord} : (y.setState t st f).Handled := by
  intro k hk
  unfold Scheduler.setState at hk ⊢
  split at hk
  · next hs =>
    rw [if_pos hs, Table.get?_modify]
    rw [Table.get?_modify] at hk
    have old : (y.records.get? k).isSome := by
      split at hk <;> simpa using hk
    split <;> simpa using h k old
  · next hs =>
    rw [if_neg hs]
    exact h k hk

theorem finish {outcome : TaskOutcome} : (y.finish t outcome now).2.Handled := by
  intro k hk
  rw [record_finish] at hk
  split at hk
  · cases hk
  · next hne =>
    unfold Scheduler.finish
    split
    · exact h k hk
    · rw [Table.get?_modify, if_neg hne]
      exact h k hk

theorem enqueue {view : TaskView} {body : Body S A V} : (y.enqueue view body).Handled := by
  intro k hk
  simp only [Scheduler.enqueue, Table.get?_put] at hk ⊢
  split
  · rfl
  · next hne =>
    rw [if_neg hne] at hk
    exact h k hk

theorem withdraw : (y.withdraw t).Handled := by
  intro k hk
  simp only [Scheduler.withdraw, Table.get?_remove] at hk ⊢
  split
  · next e =>
    rw [if_pos e] at hk
    cases hk
  · next hne =>
    rw [if_neg hne] at hk
    exact h k hk

theorem release : (y.release d).Handled := h.same records_release handles_release

theorem strand : (y.strand t d now).2.Handled := by
  unfold Scheduler.strand
  refine finish ?_
  exact h.release.same rfl rfl

end Handled

end Scheduler

open Scheduler

theorem Deed.handled {loud : Bool} (h : Deed g a own loud s x s' x') (hx : x.scheduler.Handled) :
    x'.scheduler.Handled := by
  have same {y y' : Scheduler S A V} (hy : y.Handled) (hr : y'.records = y.records)
      (hh : y'.handles = y.handles) : y'.Handled := hy.same hr hh
  cases h with
  | @take _ x t body rest =>
    have taken : ({ x.scheduler with queue := rest, activeTask := some t } : Scheduler S A V).Handled :=
      same hx rfl rfl
    exact taken.setState
  | retire => exact same hx.release rfl rfl
  | submit body => exact hx.enqueue
  | enqueue body => exact hx.enqueue
  | withdraw => exact hx.withdraw
  | @suspend c t x label | @handOver c t x label =>
    have left : ({ x.scheduler.release c with activeTask := none } : Scheduler S A V).Handled :=
      same hx.release rfl rfl
    exact same left.setState rfl rfl
  | @markReady _ t x =>
    intro k hk
    simp only [Scheduler.markReady, Table.get?_modify] at hk ⊢
    refine hx k ?_
    split at hk <;> simpa using hk
  | @abort c _ t x now =>
    have left : (x.scheduler.removeWaiter c).retire.Handled := same hx rfl rfl
    exact left.finish
  | @resume c t x now =>
    have taken : ({ x.scheduler with active := some c, activeTask := some t } : Scheduler S A V).Handled :=
      same hx rfl rfl
    exact same taken.setState rfl rfl
  | @complete _ t _ x now =>
    have idle : ({ x.scheduler with activeTask := none } : Scheduler S A V).Handled :=
      same hx rfl rfl
    exact idle.finish
  | @strand c t x now =>
    have left : (x.scheduler.removeWaiter c).Handled := same hx rfl rfl
    exact left.strand
  | _ => exact same hx rfl rfl

/-! ## What a deed does to records -/

/-- What a deed of the thread `a` does to the records of the cog. -/
inductive Files (a : Agent) (g : CogId) (own : Option CogId) (s : Stance) (x : Cog S A V) (s' : Stance)
    (x' : Cog S A V) : Prop where
  | keep : s'.charge = s.charge ∨ s'.charge = none →
      (∀ k r, x.scheduler.records.get? k = some r →
        ∃ r', x'.scheduler.records.get? k = some r' ∧ r'.view.context = r.view.context) →
      Files a g own s x s' x'
  /-- A task gets the slot, and its record a context. -/
  | seat (c : ContextId) (k : TaskId) (f : TaskRecord → TaskRecord) : a = .context c →
      own = some g → s'.charge = some k →
      s.charge = some k ∨ k ∈ x.scheduler.queued → (∀ r, (f r).view.context = some c) →
      x'.scheduler.records = x.scheduler.records.modify k f → Files a g own s x s' x'
  | enter (k : TaskId) (r : TaskRecord) : s.letter? = some k → s'.charge = s.charge →
      x'.scheduler.records = x.scheduler.records.put k r → Files a g own s x s' x'
  | finish (k : TaskId) : own = some g → s'.charge = none →
      (∃ active, s.seat? = some ⟨k, active⟩) →
      x'.scheduler.records = x.scheduler.records.remove k → Files a g own s x s' x'
  | withdraw (k : TaskId) : s.offers g = some k → s'.charge = s.charge →
      x'.scheduler.queued = x.scheduler.queued.dropLast →
      x'.scheduler.records = x.scheduler.records.remove k → Files a g own s x s' x'

theorem Deed.files {loud : Bool} (h : Deed g a own loud s x s' x') : Files a g own s x s' x' := by
  have same (hc : s'.charge = s.charge ∨ s'.charge = none)
      (hr : x'.scheduler.records = x.scheduler.records) : Files a g own s x s' x' :=
    .keep hc fun k r hk => ⟨r, hr ▸ hk, rfl⟩
  have modify {t : TaskId} {f : TaskRecord → TaskRecord} (hc : s'.charge = s.charge)
      (hr : x'.scheduler.records = x.scheduler.records.modify t f)
      (hf : ∀ r, (f r).view.context = r.view.context) : Files a g own s x s' x' := by
    refine .keep (.inl hc) fun k r hk => ?_
    rw [hr, Table.get?_modify, hk]
    split
    · exact ⟨f r, rfl, hf r⟩
    · exact ⟨r, rfl, rfl⟩
  cases h with
  | take now _ _ hq =>
    exact .seat _ _ _ rfl rfl rfl (.inr (by simp [Scheduler.queued, hq])) (fun r => rfl)
      (records_setState ..)
  | retire => exact same (.inl rfl) records_release
  | submit body => exact .enter _ _ rfl rfl rfl
  | enqueue body => exact .enter _ _ rfl rfl rfl
  | withdraw =>
    exact .withdraw _ (if_pos rfl) rfl (by simp [Scheduler.queued, Scheduler.withdraw]) rfl
  | @suspend c t _ label | @handOver c t _ label =>
    exact modify rfl (records_suspend x.scheduler t c label) fun r => rfl
  | markReady =>
    exact modify (f := fun r => { r with view := { r.view with ready := true } }) rfl rfl fun r => rfl
  | @abort c s t x now hs =>
    have seat : s.seat? = some ⟨t, false⟩ := by rcases hs with rfl | ⟨rfl, -⟩ <;> rfl
    exact .finish t rfl rfl ⟨false, seat⟩ (records_abort ..)
  | @resume c t x now =>
    exact .seat c t _ rfl rfl rfl (.inl rfl) (fun r => rfl) (records_resume x.scheduler t c now)
  | complete now => exact .finish _ rfl rfl ⟨true, rfl⟩ (records_complete ..)
  | @strand c t x now =>
    exact .finish t rfl rfl ⟨false, rfl⟩ (records_strand (x.scheduler.removeWaiter c) t c now)
  | unwindHand => exact same (.inr rfl) rfl
  | unwind => exact same (.inr rfl) rfl
  | _ => exact same (.inl rfl) rfl

/-- A task that has come into the queue has its record. -/
theorem Deed.enqueued {loud : Bool} (h : Deed g a own loud s x s' x')
    (hk : k ∈ x'.scheduler.queued) :
    k ∈ x.scheduler.queued ∨ (x'.scheduler.records.get? k).isSome := by
  have entered {view : TaskView} {body : Body S A V}
      (hk : k ∈ (x.scheduler.enqueue view body).queued) :
      k ∈ x.scheduler.queued ∨ ((x.scheduler.enqueue view body).records.get? k).isSome := by
    simp only [Scheduler.queued, Scheduler.enqueue, List.map_append, List.map_cons, List.map_nil,
      List.mem_append, List.mem_singleton] at hk
    rcases hk with hk | rfl
    · exact .inl hk
    · exact .inr (by simp [Scheduler.enqueue])
  cases h with
  | submit body => exact entered hk
  | enqueue body => exact entered hk
  | take now _ _ hq =>
    refine .inl ?_
    simp only [Scheduler.queued, queue_markRunning] at hk
    simp [Scheduler.queued, hq, hk]
  | withdraw =>
    simp only [Scheduler.queued, Scheduler.withdraw, List.map_dropLast] at hk
    exact .inl (List.dropLast_subset _ hk)
  | _ =>
    refine .inl ?_
    simpa [Scheduler.queued, Scheduler.addWaiter, Scheduler.markReady, Scheduler.removeWaiter,
      Scheduler.retire] using hk

/-! ## All records -/

/-- The unfinished tasks of the cog have their records and handles. -/
structure Machine.Filed (m : Machine S A V) (g : CogId) (x : Cog S A V) : Prop where
  handled : x.scheduler.Handled
  queued : ∀ k ∈ x.scheduler.queued, (x.scheduler.records.get? k).isSome
  /-- Who starts a context for a task has put it at the end of the queue. -/
  last : ∀ k, m.Offers g k → ∃ q, x.scheduler.queued = q ++ [k]
  hosted {c : ContextId} {s : Stance} {k : TaskId} : m.look (.context c) = some (some g, s) →
    s.charge = some k → ∃ r, x.scheduler.records.get? k = some r ∧ r.view.context = some c

namespace Machine.Filed

section
variable {move : Action S A V} (h : m.Filed g x) (ho : m.Ordered) (ha : m.act move = some m')
include h ho

/-- The record of a task stays while a context hosts it. -/
theorem kept {loud : Bool} (ho' : m'.Ordered) (ht : Turns m a own s s' m') (hw : Works m g x x' m')
    (hd : Deed g a own loud s x s' x') {s₀ s₁ : Stance}
    (hl : m.look (.context c) = some (some g, s₀)) (hs : s₀.charge = some k)
    (hl' : m'.look (.context c) = some (some g, s₁)) (hs' : s₁.charge = some k) :
    ∃ r, x'.scheduler.records.get? k = some r ∧ r.view.context = some c := by
  obtain ⟨r, hr, hc⟩ := h.hosted hl hs
  obtain ⟨active, seat⟩ := Stance.charge_eq hs
  have mine : m.Berthed k (.seat (.context c)) := ⟨some g, s₀, active, hl, seat⟩
  cases hd.files with
  | keep _ keeps =>
    obtain ⟨r', hr', e⟩ := keeps k r hr
    exact ⟨r', hr', e.trans hc⟩
  | seat d j f e hown hj _ hf hrec =>
    by_cases hk : k = j
    · subst hk
      obtain ⟨active, seat'⟩ := Stance.charge_eq hj
      obtain ⟨active', seat''⟩ := Stance.charge_eq hs'
      have same := ho'.berth (p := .seat a) (q := .seat (.context c)) ⟨own, s', active, ht.after, seat'⟩
        ⟨some g, s₁, active', hl', seat''⟩
      cases same
      cases e
      exact ⟨f r, by rw [hrec, Table.get?_modify, if_pos rfl, hr]; rfl, hf r⟩
    · exact ⟨r, by rw [hrec, Table.get?_modify, if_neg hk, hr], hc⟩
  | enter j r' hj _ hrec =>
    have hk : k ≠ j := by
      rintro rfl
      have same := ho.berth mine (q := .letter a) ⟨own, s, ht.before, hj⟩
      cases same
    exact ⟨r, by rw [hrec, Table.get?_put, if_neg hk, hr], hc⟩
  | finish j hown hnone hseat hrec =>
    have hk : k ≠ j := by
      rintro rfl
      obtain ⟨active', seat'⟩ := hseat
      have same := ho.berth mine (q := .seat a) ⟨own, s, active', ht.before, seat'⟩
      cases same
      cases ht.after.symm.trans hl'
      rw [hnone] at hs'
      cases hs'
    exact ⟨r, by rw [hrec, Table.get?_remove, if_neg hk, hr], hc⟩
  | withdraw j hj _ _ hrec =>
    have hk : k ≠ j := by
      rintro rfl
      obtain ⟨q, hq⟩ := h.last k ⟨a, own, s, ht.before, hj⟩
      have same := ho.berth mine (q := .queue g) ⟨x, hw.before, by simp [hq]⟩
      cases same
    exact ⟨r, by rw [hrec, Table.get?_remove, if_neg hk, hr], hc⟩

include ha

theorem deed {loud : Bool} (ht : Turns m a own s s' m') (hw : Works m g x x' m')
    (hd : Deed g a own loud s x s' x') : m'.Filed g x' := by
  have ho' := ho.act ha
  have hx' := hw.here
  constructor
  case handled => exact hd.handled h.handled
  case queued =>
    intro k hk
    rcases hd.enqueued hk with old | entered
    · obtain ⟨r, hr⟩ := Option.isSome_iff_exists.mp (h.queued k old)
      cases hd.files with
      | keep _ keeps =>
        obtain ⟨r', hr', -⟩ := keeps k r hr
        simp [hr']
      | seat _ j f _ _ _ _ _ hrec =>
        rw [hrec, Table.get?_modify]
        split <;> simp [hr]
      | enter j r' _ _ hrec =>
        rw [hrec, Table.get?_put]
        split <;> simp [hr]
      | finish j hown _ hseat hrec =>
        have hne : k ≠ j := by
          rintro rfl
          obtain ⟨active, seat⟩ := hseat
          have same := ho.berth (p := .seat a) (q := .queue g) ⟨own, s, active, ht.before, seat⟩
            ⟨x, hw.before, old⟩
          cases same
        rw [hrec, Table.get?_remove, if_neg hne, hr]
        rfl
      | withdraw j hj _ hq hrec =>
        obtain ⟨q, before⟩ := h.last j ⟨a, own, s, ht.before, hj⟩
        have hne : k ≠ j := by
          rintro rfl
          rw [hq, before, List.dropLast_concat] at hk
          have nodup := ho.queued hw.before
          rw [before] at nodup
          exact (List.nodup_append.mp nodup).2.2 k hk k (by simp) rfl
        rw [hrec, Table.get?_remove, if_neg hne, hr]
        rfl
    · exact entered
  case last =>
    intro k hk
    have closed (hlock : x'.lock = none) : ∃ q, x'.scheduler.queued = q ++ [k] :=
      absurd hk (ho'.no_offers hx' hlock k)
    cases hd.queues with
    | same hs hs' _ _ hq =>
      rw [hq]
      exact h.last k ((ht.offers hs hs').mp hk)
    | offer j _ hlock' _ _ hs' _ _ hq =>
      have same := ho'.offers_unique hx' ht.after hlock' hk
      obtain rfl := Option.some.inj (hs'.symm.trans same)
      exact ⟨_, hq⟩
    | take _ _ _ _ _ hlock' => exact closed hlock'
    | accept _ _ hlock' => exact closed hlock'
    | withdraw _ _ hlock' => exact closed hlock'
    | forsake _ _ hlock' => exact closed hlock'
  case hosted =>
    intro c s₁ k hl' hk
    rcases ht.cases hl' with ⟨rfl, rfl, rfl⟩ | ⟨-, hl⟩
    · by_cases hs : s.charge = some k
      · exact h.kept ho ho' ht hw hd ht.before hs hl' hk
      · -- The context has just got the task.
        have same (hc : s₁.charge = s.charge) :
            ∃ r, x'.scheduler.records.get? k = some r ∧ r.view.context = some c := by
          rw [hc] at hk
          exact absurd hk hs
        cases hd.files with
        | keep hc _ =>
          rcases hc with hc | hc
          · exact same hc
          · rw [hk] at hc
            cases hc
        | seat d j f e _ hj hfrom hf hrec =>
          cases e
          obtain rfl := Option.some.inj (hk.symm.trans hj)
          obtain ⟨r, hr⟩ := Option.isSome_iff_exists.mp (h.queued k (hfrom.resolve_left hs))
          exact ⟨f r, by rw [hrec, Table.get?_modify, if_pos rfl, hr]; rfl, hf r⟩
        | enter _ _ _ hc _ => exact same hc
        | finish _ _ hnone _ _ =>
          rw [hk] at hnone
          cases hnone
        | withdraw _ _ hc _ _ => exact same hc
    · exact h.kept ho ho' ht hw hd hl hk hl' hk

theorem grant {d : ContextId} (hb : Births m a own s s' d (some g) .claim m') (hw : Works m g x x' m')
    (hg : Grant g d a own s x s' x') : m'.Filed g x' := by
  have ho' := ho.act ha
  have hlock' : x'.lock = none := by cases hg <;> rfl
  have queue : x'.scheduler.queued = x.scheduler.queued := by cases hg <;> rfl
  have records : x'.scheduler.records = x.scheduler.records := by cases hg <;> rfl
  have handles : x'.scheduler.handles = x.scheduler.handles := by cases hg <;> rfl
  have charge : s'.charge = s.charge := by cases hg <;> rfl
  constructor
  case handled => exact h.handled.same records handles
  case queued =>
    rw [queue, records]
    exact h.queued
  case last => exact fun k hk => absurd hk (ho'.no_offers hw.here hlock' k)
  case hosted =>
    intro c s₁ k hl' hk
    rw [records]
    rcases hb.cases hl' with ⟨rfl, rfl, rfl⟩ | ⟨-, -, -, rfl⟩ | ⟨-, -, hl⟩
    · exact h.hosted hb.before (charge ▸ hk)
    · cases hk
    · exact h.hosted hl hk

end

theorem aside (h : m.Filed g x) (hb : ∀ b, Beside g (m.look b) (m'.look b))
    (hx : x'.scheduler = x.scheduler) : m'.Filed g x' where
  handled := hx ▸ h.handled
  queued := hx ▸ h.queued
  last := by
    intro k hk
    rw [hx]
    exact h.last k ((Beside.offers hb).mp hk)
  hosted := by
    intro c s k hl hk
    rw [hx]
    rcases (hb (.context c)).before hl with ⟨s₀, hl₀, alike⟩ | ⟨other, -⟩
    · exact h.hosted hl₀ ((alike.charge rfl).symm.trans hk)
    · exact absurd rfl other

/-- A cog that has just been founded has no tasks. -/
theorem founded (ho : m.Ordered) (ho' : m'.Ordered) (hb : ∀ b, Beside g (m.look b) (m'.look b))
    (absent : m.cogs.get? g = none) (hx' : m'.cogs.get? g = some x') (hs : x'.scheduler = {})
    (hlock : x'.lock = none) : m'.Filed g x' where
  handled := by
    intro k hk
    rw [hs] at hk
    cases hk
  queued := by simp [hs, Scheduler.queued]
  last k hk := absurd hk (ho'.no_offers hx' hlock k)
  hosted := by
    intro c s k hl hk
    rcases (hb (.context c)).before hl with ⟨s₀, hl₀, -⟩ | ⟨other, -⟩
    · obtain ⟨-, x, hx⟩ := ho.home hl₀
      rw [absent] at hx
      cases hx
    · exact absurd rfl other

end Machine.Filed

/-- In every run, unfinished tasks have their records and handles. -/
theorem Machine.Reachable.filed {r : Registry} {memory : A} (h : Reachable (.empty r memory) m)
    (hx : m.cogs.get? g = some x) : m.Filed g x := by
  induction h generalizing x with
  | refl => cases hx
  | @act m m' move h ha ih =>
    have ho : m.Ordered := h.ordered
    have aftermath := (shift_act ho ha).aftermath ho hx
    generalize move.actor? = actor at aftermath
    cases aftermath with
    | founded hb absent empty free => exact .founded ho (ho.act ha) hb absent hx empty free
    | aside hb hy same => exact (ih hy).aside hb same
    | deed ht hw hd => exact (ih hw.before).deed ho ha ht hw hd
    | grant hb hw hg => exact (ih hw.before).grant ho ha hb hw hg

end ObjectGroups
