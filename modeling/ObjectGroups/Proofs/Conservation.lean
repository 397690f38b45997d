/-
No context is lost.

Each context that has been started for a cog is retired, or hosts a suspended
task, or has the slot. A task that is suspended keeps its context, and the slot
goes to a context that was suspended or is new, so the counters of starts and
retirements differ by the suspended tasks, and by one for the slot if it is
held. All deeds keep this balance.
-/
import Mathlib.Data.List.Perm.Basic
import ObjectGroups.Proofs.Cancellation
import ObjectGroups.Proofs.Contexts
import ObjectGroups.Snapshot

namespace ObjectGroups

variable {S A V : Type} {m m' : Machine S A V} {a : Agent} {g : CogId} {c : ContextId}
  {own : Option CogId} {s s' : Stance} {x x' : Cog S A V} {k j : TaskId} {move : Action S A V}
  {moves : List (Move S A V)} {y y' : Scheduler S A V} {r : Registry} {memory : A}

open Machine Scheduler

/-! ## Suspended tasks -/

namespace Scheduler

/-- The suspended tasks by their keys. -/
def sleepers (y : Scheduler S A V) : List TaskId :=
  Table.keys (y.records.filter fun e => e.2.view.state = .suspended)

theorem length_suspended (y : Scheduler S A V) : y.suspended.length = y.sleepers.length := by
  simp [suspended, viewsWhere, views, sleepers, Table.values, Table.keys, List.filter_map, Function.comp_def]

theorem suspended_iff : (∃ r, y.records.get? k = some r ∧ decide (r.view.state = .suspended) = true) ↔
    y.Suspended k := by
  simp [Suspended]

section
variable (h : (Table.keys y.records).Nodup) (h' : (Table.keys y'.records).Nodup)
include h h'

theorem suspended_kept (hk : ∀ k, y'.Suspended k ↔ y.Suspended k) :
    y'.suspended.length = y.suspended.length := by
  rw [length_suspended, length_suspended]
  exact Table.length_keysWhere_kept h h' fun k => by rw [suspended_iff, suspended_iff, hk]

theorem suspended_gained (new : ¬ y.Suspended j) (hk : ∀ k, y'.Suspended k ↔ k = j ∨ y.Suspended k) :
    y'.suspended.length = y.suspended.length + 1 := by
  rw [length_suspended, length_suspended]
  exact Table.length_keysWhere_gained h h' (suspended_iff.not.mpr new) fun k => by
    rw [suspended_iff, suspended_iff, hk]

end

theorem Moves.suspended {st : TaskState} {f : TaskRecord → TaskRecord} (h : y.Moves y' j st f)
    (hf : ∀ r, (f r).view.state = st) :
    y'.Suspended k ↔ if k = j then st = .suspended else y.Suspended k := by
  obtain ⟨old, hold⟩ := Option.isSome_iff_exists.mp h.present
  unfold Suspended
  rw [h.records, Table.get?_modify]
  split
  · next e => simp [e, hold, hf]
  · rfl

/-- A task whose record goes is suspended no longer. -/
theorem suspended_remove (h : y'.records = y.records.remove j) :
    y'.Suspended k ↔ k ≠ j ∧ y.Suspended k := by
  unfold Suspended
  rw [h, Table.get?_remove]
  split
  · next e => simp [e]
  · next e => simp [e]

/-! ## The balance -/

/-- Started contexts are retired, or host suspended tasks, or have the slot. -/
def Balanced (y : Scheduler S A V) : Prop :=
  y.metrics.contextsStarted =
    y.metrics.contextsRetired + y.suspended.length + if y.active.isSome then 1 else 0

theorem Counts.balanced {ended : Option TaskOutcome} {n : Nat} {active : Option ContextId}
    (h : y.Counts y' ended n active) (hy : y.Balanced)
    (hb : n + y'.suspended.length + (if active.isSome then 1 else 0) =
      y.suspended.length + if y.active.isSome then 1 else 0) : y'.Balanced := by
  unfold Scheduler.Balanced at hy ⊢
  rw [h.started, h.retired, h.active]
  omega

end Scheduler

/-- How many tasks become suspended in a deed between these stances. -/
def Stance.pauses (s s' : Stance) : Nat := if s.suspends = none ∧ s'.suspends.isSome then 1 else 0

/-- How many suspended tasks take the slot back. -/
def Stance.resumes (s s' : Stance) : Nat := if s.suspends.isSome ∧ s'.slot then 1 else 0

/-- How many unfinished tasks end in a deed between these stances as their bodies have left
without the slot. -/
def Scheduler.strands (y : Scheduler S A V) : Stance → Stance → Nat
  | .strand k, .leave => if (y.records.get? k).isSome then 1 else 0
  | _, _ => 0

namespace Stance

theorem slot_of_suspends (h : s.suspends = some k) : s.slot = false := by
  cases s <;> first | rfl | cases h

theorem Keeps.still (h : s.Keeps s') : s.pauses s' = 0 ∧ s.resumes s' = 0 := by
  unfold pauses resumes
  rw [h.suspends, h.slot]
  cases hs : s.suspends with
  | none => simp
  | some k => simp [slot_of_suspends hs]

theorem Keeps.strands (h : s.Keeps s') : y.strands s s' = 0 := by
  unfold Scheduler.strands
  split
  · cases h.seat
  · rfl

end Stance

/-- What the books say of tasks fits the stance of a thread. -/
structure Scheduler.Fits (y : Scheduler S A V) (g : CogId) (own : Option CogId) (s : Stance) : Prop where
  queued {k : TaskId} {record : TaskRecord} : k ∈ y.queued → y.records.get? k = some record →
    record.view.state = .queued
  offered {k : TaskId} : s.offers g = some k → k ∈ y.queued
  new {k : TaskId} : s.letter? = some k → y.records.get? k = none ∧ y.handles.get? k = none
  running {k : TaskId} {record : TaskRecord} : own = some g → s.seat? = some ⟨k, true⟩ →
    y.records.get? k = some record → record.view.state = .running
  idle {k : TaskId} {record : TaskRecord} : own = some g → s.seat? = some ⟨k, false⟩ →
    y.records.get? k = some record → record.view.state = .suspended
  honest {k : TaskId} : s ≠ .complete k .aborted

namespace Scheduler.Fits

variable (h : y.Fits g own s)
include h

theorem unstarted (hk : k ∈ y.queued) : ¬ y.Suspended k := by
  rintro ⟨record, hr, suspended⟩
  cases (h.queued hk hr).symm.trans suspended

theorem awake (hown : own = some g) (seat : s.seat? = some ⟨k, true⟩) : ¬ y.Suspended k := by
  rintro ⟨record, hr, suspended⟩
  cases (h.running hown seat hr).symm.trans suspended

theorem asleep (hown : own = some g) (seat : s.seat? = some ⟨k, false⟩)
    (recorded : (y.records.get? k).isSome) : y.Suspended k := by
  obtain ⟨record, hr⟩ := Option.isSome_iff_exists.mp recorded
  exact ⟨record, hr, h.idle hown seat hr⟩

end Scheduler.Fits

theorem History.fits (h : History (.empty r memory) moves m) (hx : m.cogs.get? g = some x)
    (hl : m.look a = some (own, s)) : x.scheduler.Fits g own s := by
  have ho : m.Ordered := h.reachable.ordered
  have attended := h.reachable.attended hx
  have roll := h.roll.2 hx
  constructor
  case queued => exact fun hk hr => roll.state_of_queued hk hr
  case offered =>
    intro k offers
    obtain ⟨q, hq⟩ := (h.reachable.filed hx).last k ⟨a, own, s, hl, offers⟩
    simp [hq]
  case new =>
    intro k letter
    refine ⟨roll.not_recorded hl letter, Option.not_isSome_iff_eq_none.mp fun known => ?_⟩
    exact (roll.posted k (roll.known.mp known)).arrived a own s hl letter
  case running =>
    rintro k record rfl seat hr
    obtain ⟨⟨c, rfl⟩, -⟩ := ho.home hl
    exact (attended.hosted hl seat).running_of seat hr
  case idle =>
    rintro k record rfl seat hr
    obtain ⟨⟨c, rfl⟩, -⟩ := ho.home hl
    exact (attended.hosted hl seat).idle_of seat hr
  case honest => exact fun {k} e => Honest.reachable h.reachable a own k (e ▸ hl)

section
variable (h : Course a g own y y' s s') (fits : y.Fits g own s) (hn : (Table.keys y.records).Nodup)
  (hn' : (Table.keys y'.records).Nodup)
include h fits hn hn'

/-- The suspended tasks before a deed, and those that it suspends, are suspended after it, or
have the slot back, or have been aborted or stranded. -/
theorem Course.sleepers : y'.suspended.length + s.resumes s' + y'.tally .aborted + y.strands s s' =
    y.suspended.length + s.pauses s' + y.tally .aborted := by
  have same (records : y'.records = y.records) : y'.suspended.length = y.suspended.length :=
    suspended_kept hn hn' fun k => by unfold Suspended; rw [records]
  -- The task of the record that goes was not suspended, or was.
  have dropped {i : TaskId} (hr : y'.records = y.records.remove i) (hi : ¬ y.Suspended i) :
      y'.suspended.length = y.suspended.length := by
    refine suspended_kept hn hn' fun k => ?_
    rw [suspended_remove hr]
    constructor
    · exact And.right
    · exact fun hk => ⟨by rintro rfl; exact hi hk, hk⟩
  have ended {i : TaskId} (hr : y'.records = y.records.remove i) (hi : y.Suspended i) :
      y.suspended.length = y'.suspended.length + 1 := by
    refine suspended_gained hn' hn (j := i) (fun hk => ((suspended_remove hr).mp hk).1 rfl) fun k => ?_
    rw [suspended_remove hr]
    by_cases e : k = i
    · simp [e, hi]
    · simp [e]
  -- A stance that hosts its task as before, with as many suspended tasks as before.
  have kept {n : Nat} {active : Option ContextId} {o : Option TaskOutcome} (keeps : s.Keeps s')
      (counts : y.Counts y' o n active) (ho : o ≠ some .aborted)
      (hy : y'.suspended.length = y.suspended.length) : y'.suspended.length + s.resumes s' +
        y'.tally .aborted + y.strands s s' = y.suspended.length + s.pauses s' + y.tally .aborted := by
    rw [hy, keeps.still.1, keeps.still.2, keeps.strands, counts.tally, if_neg ho]
    omega
  cases h with
  | rest keeps tasks counts => exact kept keeps counts (by simp) (same tasks.records)
  | unwind _ suspends tasks counts =>
    simp [same tasks.records, counts.tally, Stance.resumes, Stance.pauses, suspends, Stance.slot,
      Stance.seat?, strands]
  | retire _ _ tasks counts =>
    simp [same tasks.records, counts.tally, Stance.resumes, Stance.pauses, strands, Stance.suspends]
  | @enter _ _ view letter keeps enters counts =>
    refine kept keeps counts (by simp) (suspended_kept hn hn' fun k => ?_)
    unfold Suspended
    rw [enters.records, Table.get?_put]
    split
    · next e =>
      subst e
      exact iff_of_false (by simp [enters.state]) (by simp [(fits.new letter).1])
    · rfl
  | withdraw offers keeps withdraws counts =>
    exact kept keeps counts (by simp) (dropped withdraws.records (fits.unstarted (fits.offered offers)))
  | @start c k now _ _ hq moves counts =>
    have old : ¬ y.Suspended k := fits.unstarted (by simp [hq])
    have still : y'.suspended.length = y.suspended.length := by
      refine suspended_kept hn hn' fun i => ?_
      rw [moves.suspended fun r => rfl]
      split
      · next e => exact iff_of_false (by simp) (e ▸ old)
      · rfl
    simp [still, counts.tally, Stance.resumes, Stance.pauses, strands, Stance.suspends]
  | @suspend c k _ label _ hown _ suspends moves counts =>
    have gained : y'.suspended.length = y.suspended.length + 1 := by
      refine suspended_gained hn hn' (fits.awake hown rfl) fun i => ?_
      rw [moves.suspended fun r => rfl]
      by_cases e : i = k <;> simp [e]
    have pauses : (Stance.release k).pauses s' = 1 := if_pos ⟨rfl, by simp [suspends]⟩
    simp [gained, counts.tally, Stance.resumes, pauses, strands, Stance.suspends]
  | @prepare k _ _ hr _ counts =>
    have still : y'.suspended.length = y.suspended.length := by
      refine suspended_kept hn hn' fun i => ?_
      unfold Suspended
      rw [hr, Table.get?_modify]
      split
      · simp [prepared]
      · rfl
    simp [still, counts.tally, Stance.resumes, Stance.pauses, strands, Stance.suspends, Stance.slot,
      Stance.seat?]
  | @resume c k now _ hown _ moves _ counts =>
    have suspended := fits.asleep hown rfl moves.present
    have lost : y.suspended.length = y'.suspended.length + 1 := by
      refine suspended_gained hn' hn (j := k) ?_ fun i => ?_
      · rw [moves.suspended fun r => rfl]
        simp
      · rw [moves.suspended fun r => rfl]
        by_cases e : i = k <;> simp [e, suspended]
    simp [lost, counts.tally, Stance.resumes, Stance.pauses, strands, Stance.suspends, Stance.slot,
      Stance.seat?]
  | @complete k outcome hown _ ends counts =>
    have other : ¬ outcome = .aborted := by
      rintro rfl
      exact fits.honest rfl
    simp [dropped ends.records (fits.awake hown rfl), counts.tally, Stance.resumes, Stance.pauses, strands,
      Stance.suspends, other]
  | @abort c k _ _ hown _ hst ends counts =>
    have suspended := fits.asleep hown (by rcases hst with rfl | rfl <;> rfl) ends.present
    rw [ended ends.records suspended, counts.tally]
    rcases hst with rfl | rfl <;>
      simp [Stance.resumes, Stance.pauses, strands, Stance.suspends, Stance.slot, Stance.seat?]
    all_goals omega
  | @strand c k _ hown _ ends counts =>
    have suspended := fits.asleep hown rfl ends.present
    simp [ended ends.records suspended, counts.tally, Stance.resumes, Stance.pauses, strands,
      Stance.suspends, ends.present]
    omega
  | fade _ _ finished tasks counts =>
    simp [same tasks.records, counts.tally, Stance.resumes, Stance.pauses, strands, Stance.suspends,
      finished]

/-- A deed keeps the balance of its cog. -/
theorem Course.balanced (hy : y.Balanced) (holds : own = some g → s.slot = true → y.active = a.context?)
    (lacks : own = some g → s.slot = false → y.active ≠ a.context?) : y'.Balanced := by
  have sleepers := h.sleepers fits hn hn'
  have kept {o : Option TaskOutcome} (keeps : s.Keeps s') (counts : y.Counts y' o 0 y.active)
      (ho : o ≠ some .aborted) : y'.Balanced := by
    refine counts.balanced hy ?_
    rw [keeps.still.1, keeps.still.2, keeps.strands, counts.tally, if_neg ho] at sleepers
    omega
  cases h with
  | rest keeps _ counts => exact kept keeps counts (by simp)
  | enter _ keeps _ counts => exact kept keeps counts (by simp)
  | withdraw _ keeps _ counts => exact kept keeps counts (by simp)
  | unwind _ suspends _ counts =>
    refine counts.balanced hy ?_
    simp [counts.tally, Stance.resumes, Stance.pauses, suspends, Stance.slot, Stance.seat?, strands] at sleepers
    omega
  | @retire c ha hown _ counts =>
    subst ha
    refine counts.balanced hy ?_
    have active : y.active = some c := holds hown rfl
    simp [counts.tally, Stance.resumes, Stance.pauses, strands, Stance.suspends] at sleepers
    simp [sleepers, active_release, active]
    omega
  | start _ _ _ _ _ counts | prepare _ _ _ _ counts =>
    refine counts.balanced hy ?_
    simp [counts.tally, Stance.resumes, Stance.pauses, strands, Stance.suspends, Stance.slot,
      Stance.seat?] at sleepers
    omega
  | @suspend c k _ label ha hown _ suspends _ counts =>
    subst ha
    refine counts.balanced hy ?_
    have active : y.active = some c := holds hown rfl
    have pauses : (Stance.release k).pauses s' = 1 := if_pos ⟨rfl, by simp [suspends]⟩
    simp [counts.tally, Stance.resumes, pauses, strands, Stance.suspends] at sleepers
    simp [sleepers, active_release, active]
  | resume _ _ _ _ _ free counts =>
    refine counts.balanced hy ?_
    simp [counts.tally, Stance.resumes, Stance.pauses, strands, Stance.suspends, Stance.slot,
      Stance.seat?] at sleepers
    simp [← sleepers, free]
  | @complete k outcome _ _ _ counts =>
    refine counts.balanced hy ?_
    have other : ¬ outcome = .aborted := by
      rintro rfl
      exact fits.honest rfl
    simp [counts.tally, Stance.resumes, Stance.pauses, strands, Stance.suspends, other] at sleepers
    omega
  | abort _ _ _ hst _ counts =>
    refine counts.balanced hy ?_
    rcases hst with rfl | rfl <;>
      simp [counts.tally, Stance.resumes, Stance.pauses, strands, Stance.suspends, Stance.slot,
        Stance.seat?] at sleepers
    all_goals omega
  | @strand c k ha hown _ ends counts =>
    subst ha
    refine counts.balanced hy ?_
    have other : y.active ≠ some c := lacks hown rfl
    simp [counts.tally, Stance.resumes, Stance.pauses, strands, Stance.suspends, ends.present] at sleepers
    rw [active_release, if_neg other]
    omega
  | fade _ _ finished _ counts =>
    refine counts.balanced hy ?_
    simp [counts.tally, Stance.resumes, Stance.pauses, strands, Stance.suspends, finished] at sleepers
    omega

end

theorem Grant.balanced {d : ContextId} (h : Grant g d a own s x s' x') (hx : x.scheduler.Balanced)
    (free : x.scheduler.active = none) : x'.scheduler.Balanced := by
  have started : x'.scheduler.metrics.contextsStarted = x.scheduler.metrics.contextsStarted + 1 := by
    cases h <;> rfl
  have retired : x'.scheduler.metrics.contextsRetired = x.scheduler.metrics.contextsRetired := by
    cases h <;> rfl
  have suspended : x'.scheduler.suspended = x.scheduler.suspended := by cases h <;> rfl
  have active : x'.scheduler.active = some d := by cases h <;> rfl
  unfold Scheduler.Balanced at hx ⊢
  rw [started, retired, suspended, active, hx, free]
  rfl

/-- In every run, each cog is balanced. -/
theorem History.balanced (h : History (.empty r memory) moves m) (hx : m.cogs.get? g = some x) :
    x.scheduler.Balanced := by
  rw [← books_eq hx]
  refine h.books (P := fun _ y => y.Balanced) rfl (fun _ _ _ hy => hy) ?_ ?_
  · intro moves m m' move a own loud s s' x x' h ha hact ht hw hd hx
    have ho : m.Ordered := h.reachable.ordered
    have next : History (.empty r memory) (moves ++ [⟨m, move, m'⟩]) m' := .act h ha
    have course := (h.reachable.filed hw.before).course ho ht h.reachable.blank ha hw hd
    refine course.balanced (h.fits hw.before ht.before) (h.roll.2 hw.before).tidy.distinct
      (next.roll.2 hw.here).tidy.distinct hx ?_ ?_
    · rintro rfl slot
      obtain ⟨⟨c, rfl⟩, -⟩ := ho.home ht.before
      exact (ho.holder ht.before hw.before slot).1
    · rintro rfl slot active
      obtain ⟨⟨c, rfl⟩, -⟩ := ho.home ht.before
      obtain ⟨s₀, hl, entitled⟩ := h.reachable.held hw.before active
      cases ht.before.symm.trans hl
      cases slot.symm.trans entitled
  · intro moves m m' move a own c s s' x x' h ha hact hb hw hg hx
    have grants : s.lock own = some g ∧ s.grants = true := by cases hg <;> exact ⟨rfl, rfl⟩
    obtain ⟨z, hz, -, free⟩ := h.reachable.ordered.locks hb.before grants.1
    cases hw.before.symm.trans hz
    exact hg.balanced hx (free grants.2)

/-! ## Contexts in use -/

/-- The context has the slot, or hosts a suspended task. -/
def Scheduler.Uses (y : Scheduler S A V) (c : ContextId) : Prop :=
  y.active = some c ∨
    ∃ k record, y.records.get? k = some record ∧ record.view.state = .suspended ∧ record.view.context = some c

/-- The thread of the context executes the body of the task without the slot, and is in no await. -/
def Machine.Executes (m : Machine S A V) (g : CogId) (c : ContextId) (k : TaskId) : Prop :=
  ∃ s, m.look (.context c) = some (some g, s) ∧ s.seat? = some ⟨k, false⟩ ∧ s.suspends = none ∧ s ≠ .strand k

/-- The books of the cog and the threads agree on who is engaged. -/
theorem Machine.Reachable.engaged_iff (h : Reachable (.empty r memory) m) (hx : m.cogs.get? g = some x) :
    m.Engaged g x c ↔ x.scheduler.Uses c := by
  have ho : m.Ordered := h.ordered
  have attended := h.attended hx
  constructor
  · rintro ⟨s, hl, slot | ⟨k, seat, recorded⟩⟩
    · exact .inl (ho.holder hl hx slot).1
    · obtain ⟨record, hr⟩ := Option.isSome_iff_exists.mp recorded
      have attends := attended.hosted hl seat
      cases attends with
      | running active => cases seat.symm.trans active
      | suspended _ hr' suspended context => exact .inr ⟨k, _, hr', suspended, context⟩
      | cancelled _ _ past => cases hr.symm.trans past.1
  · rintro (active | ⟨k, record, hr, suspended, context⟩)
    · obtain ⟨s, hl, slot⟩ := h.held hx active
      exact ⟨s, hl, .inl slot⟩
    · obtain ⟨d, s, active, context', hl, seat⟩ := attended.begun hr (by simp [suspended])
      cases context.symm.trans context'
      refine ⟨s, hl, ?_⟩
      cases active with
      | true => exact .inl (by simp [Stance.slot, seat])
      | false => exact .inr ⟨k, seat, by simp [hr]⟩

/-- At rest, a thread of a cog hosts a task. -/
theorem Machine.Still.hosting (h : m.Still) (hr : Reachable (.empty r memory) m)
    (hl : m.look a = some (some g, s)) : (∃ seat, s.seat? = some seat) ∧ ∀ k, s ≠ .strand k := by
  have hosts : s ≠ .claim ∧ s ≠ .leave ∧ ∀ k, s ≠ .strand k := by
    rcases h.resting hr.ordered hl with ⟨seat, rfl⟩ | ⟨seat, i, view, rfl, -⟩ | ⟨k, rfl⟩ <;> simp
  have engaged := (hr.engaged hl).resolve_right hosts.2.1
  exact ⟨by simpa [Stance.hosts, hosts.1, Option.isSome_iff_exists] using engaged, hosts.2.2⟩

/-- What a context of the cog is doing once all threads are at rest. -/
theorem Machine.Still.occupied (h : m.Still) (hr : Reachable (.empty r memory) m)
    (hx : m.cogs.get? g = some x) (hl : m.look (.context c) = some (some g, s)) :
    x.scheduler.Uses c ∨ ∃ k, m.Executes g c k ∧ x.scheduler.Cancelled k := by
  have ho : m.Ordered := hr.ordered
  obtain ⟨⟨⟨k, active⟩, seat⟩, goesOn⟩ := h.hosting hr hl
  have attends := (hr.attended hx).hosted hl seat
  cases attends with
  | running active => exact .inl (.inl (ho.holder hl hx (by simp [Stance.slot, active])).1)
  | suspended _ hr suspended context => exact .inl (.inr ⟨k, _, hr, suspended, context⟩)
  | cancelled seat idle past => exact .inr ⟨k, ⟨s, hl, seat, idle, goesOn k⟩, past⟩

/-! ## Whole runs -/

/-- The contexts of the cog `g` in the run with these moves. -/
structure Conservation (moves : List (Move S A V)) (m : Machine S A V) (g : CogId) (x : Cog S A V) :
    Prop where
  balance : x.scheduler.metrics.contextsStarted = x.scheduler.metrics.contextsRetired +
    x.scheduler.suspended.length + if x.scheduler.active.isSome then 1 else 0
  /-- The counters count what has happened. -/
  started : x.scheduler.metrics.contextsStarted = (starts g moves).length
  retired : x.scheduler.metrics.contextsRetired = (retirements g moves).length
  /-- No context is started twice, or retired twice. -/
  fresh : (starts g moves).Nodup
  once : (retirements g moves).Nodup
  /-- A context is in use from its start until it is retired. -/
  past {c : ContextId} : c ∈ retirements g moves ↔ c ∈ starts g moves ∧ ¬ x.scheduler.Uses c
  used {c : ContextId} : x.scheduler.Uses c → c ∈ starts g moves
  /-- The contexts in use are at most as many as the suspended tasks, and one. -/
  bound {used : List ContextId} : used.Nodup → (∀ c ∈ used, x.scheduler.Uses c) →
    used.length ≤ x.scheduler.suspended.length + 1
  /-- Waiters await, without having taken the lock again, and their tasks are suspended. -/
  waiters {c : ContextId} : c ∈ x.scheduler.waiters → ∃ t aw phase record,
    m.threads.get? (.context c) = some t ∧ t.cog = some g ∧ t.control.behind = .awaiting aw phase ∧
      phase.early = true ∧ x.scheduler.records.get? aw.task = some record ∧
        record.view.state = .suspended ∧ record.view.context = some c
  /-- At rest, the live contexts are those in use, and those that execute the body of an aborted task. -/
  settled {c : ContextId} : m.Still → (c ∈ starts g moves ∧ c ∈ m.registry.live ↔
    x.scheduler.Uses c ∨ ∃ k, m.Executes g c k ∧ x.scheduler.Cancelled k)

/-- In every state of every run, each context that has been started for a cog is retired, or
hosts a suspended task, or has the slot. -/
theorem contexts_conserved (r : Registry) (memory : A) (hr : r.live = [])
    (h : History (.empty r memory) moves m) (hx : m.cogs.get? g = some x) : Conservation moves m g x := by
  have ho : m.Ordered := h.reachable.ordered
  have roster := h.roster.2 hx
  have engaged {c : ContextId} : m.Engaged g x c ↔ x.scheduler.Uses c := h.reachable.engaged_iff hx
  have mine {c : ContextId} {s : Stance} (hl : m.look (.context c) = some (some g, s)) :
      c ∈ starts g moves ∧ c ∈ m.registry.live :=
    ⟨roster.mine hl, (h.reachable.housed.thread hl).1.live⟩
  constructor
  case balance => exact h.balanced hx
  case started => exact roster.started
  case retired => exact roster.retired
  case fresh => exact roster.fresh
  case once => exact roster.once
  case past =>
    intro c
    rw [roster.past, engaged]
  case used =>
    intro c uses
    obtain ⟨s, hl, -⟩ := engaged.mpr uses
    exact roster.mine hl
  case bound =>
    intro used distinct uses
    have parts : (used ++ retirements g moves).Nodup := by
      refine List.nodup_append.mpr ⟨distinct, roster.once, fun c hc d hd e => ?_⟩
      exact (roster.past.mp hd).2 (engaged.mpr (e ▸ uses c hc))
    have known : used ++ retirements g moves ⊆ starts g moves := by
      intro c hc
      rcases List.mem_append.mp hc with hc | hc
      · obtain ⟨s, hl, -⟩ := engaged.mpr (uses c hc)
        exact roster.mine hl
      · exact (roster.past.mp hc).1
    have count := (List.subperm_of_subset parts known).length_le
    have balance := h.balanced hx
    rw [Scheduler.Balanced, roster.started, roster.retired] at balance
    rw [List.length_append] at count
    split at balance <;> omega
  case waiters =>
    intro c hc
    obtain ⟨t, aw, phase, ht, hg, hb, early⟩ := h.reachable.enlisted g x c hx hc
    have hl := look_eq m _ ht
    have waits : t.control.stance = .wait aw.task := by
      rw [← Control.stance_behind, hb]
      cases phase <;> first | rfl | cases early
    rw [hg, waits] at hl
    cases (h.reachable.attended hx).hosted hl rfl with
    | running seat => cases seat
    | @suspended record _ hr suspended context => exact ⟨t, aw, phase, record, ht, hg, hb, early, hr, suspended, context⟩
    | cancelled _ idle => cases idle
  case settled =>
    intro c still
    constructor
    · rintro ⟨hc, live⟩
      rcases h.reachable.manned hr c live with there | ⟨b, own, s, hl, hs⟩
      · obtain ⟨⟨own, s⟩, hl⟩ := Option.isSome_iff_exists.mp there
        obtain rfl := roster.home hc hl
        exact still.occupied h.reachable hx hl
      · -- Who starts a context can go on.
        rcases still.resting ho hl with ⟨seat, rfl⟩ | ⟨seat, i, view, rfl, -⟩ | ⟨k, rfl⟩ <;> cases hs
    · rintro (uses | ⟨k, ⟨s, hl, -⟩, -⟩)
      · obtain ⟨s, hl, -⟩ := engaged.mpr uses
        exact mine hl
      · exact mine hl

/-- Two tasks wait for a future. The first is aborted and goes on without the slot, and a third
task has the slot. -/
def conserveActions : List (Action Unit Unit Unit) :=
  [.found "cog" (),
    .arrive (.submit ⟨1⟩ "first" (.await (.future ⟨1⟩) fun _ => .block (fun _ => false) (.exit (.ok ())))
      fun _ => .submit ⟨1⟩ "second" (.await (.future ⟨1⟩) fun _ => .exit (.ok ())) fun _ =>
        .submit ⟨1⟩ "third" (.block (fun _ => false) (.exit (.ok ()))) fun _ =>
          .request (.cancel ⟨1⟩) fun _ => .exit (.ok ()))] ++
    List.replicate 7 (.step (.caller 1)) ++ List.replicate 9 (.step (.context ⟨1⟩)) ++
    List.replicate 7 (.step (.caller 1)) ++ List.replicate 9 (.step (.context ⟨2⟩)) ++
    List.replicate 12 (.step (.caller 1)) ++ List.replicate 9 (.step (.context ⟨3⟩)) ++
    List.replicate 9 (.step (.context ⟨1⟩)) ++ List.replicate 9 (.step (.context ⟨2⟩))

def conserved : Machine Unit Unit Unit :=
  conserveActions.foldl perform (.empty { namePrefix := "cog", admits := fun _ => true } ())

def conserveMoves : List (Move Unit Unit Unit) :=
  (Machine.empty { namePrefix := "cog", admits := fun _ => true } ()).moves conserveActions

theorem contexts_conserved_abort : conserved.Still ∧
    (∃ x, conserved.cogs.get? ⟨1⟩ = some x ∧ Conservation conserveMoves conserved ⟨1⟩ x) ∧
    starts ⟨1⟩ conserveMoves = [⟨1⟩, ⟨2⟩, ⟨3⟩] ∧ retirements ⟨1⟩ conserveMoves = [⟨1⟩] ∧
    conserved.registry.live = [⟨1⟩, ⟨2⟩, ⟨3⟩] := by
  have founded : (conserved.cogs.get? ⟨1⟩).isSome := by decide +kernel
  obtain ⟨x, hx⟩ := Option.isSome_iff_exists.mp founded
  have conservation : Conservation conserveMoves conserved ⟨1⟩ x :=
    contexts_conserved { namePrefix := "cog", admits := fun _ => true } () rfl (history_moves _ conserveActions) hx
  exact ⟨by decide +kernel, ⟨x, hx, conservation⟩, by decide +kernel, by decide +kernel, by decide +kernel⟩

end ObjectGroups
