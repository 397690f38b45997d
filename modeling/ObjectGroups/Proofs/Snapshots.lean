/-
What a snapshot shows.

A snapshot is taken under the lock of the scheduler. It shows each unfinished
task once: the active one, the suspended ones and those that have never
started. The active task is entered apart from the records, and the slot apart
from both; that they agree is read off the threads, of which the one with the
slot hosts the active task.

Of a cog that is gone nothing is left to see, not even the tasks that were in
its queue when its last context left after a shutdown.
-/
import ObjectGroups.Proofs.Accounting

namespace ObjectGroups

variable {S A V : Type} {m m' : Machine S A V} {a b : Agent} {g : CogId} {c : ContextId}
  {own : Option CogId} {s s' : Stance} {x x' : Cog S A V} {k : TaskId} {move : Action S A V}
  {moves : List (Move S A V)} {y y' : Scheduler S A V} {r : Registry} {memory : A}
  {begun : List TaskId}

open Machine Scheduler

/-! ## The active task -/

/-- The task that the thread hosts with the slot. -/
def Stance.active? (s : Stance) : Option TaskId :=
  match s.seat? with
  | some ⟨k, true⟩ => some k
  | _ => none

theorem Stance.active?_eq_some : s.active? = some k ↔ s.seat? = some ⟨k, true⟩ := by
  unfold active?
  constructor
  · intro h
    split at h
    · next hs =>
      cases h
      exact hs
    · cases h
  · intro h
    rw [h]

/-- The active task is entered with the stance of the thread that hosts it. -/
theorem Deed.activates {loud : Bool} (h : Deed g a own loud s x s' x')
    (hk : x'.scheduler.activeTask = some k) :
    (x.scheduler.activeTask = some k ∧ s'.active? = s.active?) ∨ (own = some g ∧ s'.active? = some k) := by
  cases h with
  | take now =>
    simp only [activeTask_markRunning, Option.some.injEq] at hk
    exact .inr ⟨rfl, hk ▸ rfl⟩
  | resume now =>
    simp only [activeTask_resume, Option.some.injEq] at hk
    exact .inr ⟨rfl, hk ▸ rfl⟩
  | suspend label | handOver label =>
    simp [Scheduler.addWaiter] at hk
  | complete now =>
    simp [Scheduler.complete] at hk
  | abort now hst =>
    rcases hst with rfl | ⟨rfl, -⟩ <;> exact .inl ⟨by simpa using hk, rfl⟩
  | @strand c t x now =>
    have hk : (if x.scheduler.activeTask = some t then none else x.scheduler.activeTask) = some k := by
      simpa [Scheduler.removeWaiter] using hk
    split at hk
    · cases hk
    · exact .inl ⟨hk, rfl⟩
  | retire => exact .inl ⟨by simpa [Scheduler.retire] using hk, rfl⟩
  | _ => exact .inl ⟨hk, rfl⟩

/-- A thread of the cog hosts the task with the slot. -/
def Machine.Performs (m : Machine S A V) (g : CogId) (k : TaskId) : Prop :=
  ∃ a s, m.look a = some (some g, s) ∧ s.active? = some k

theorem Beside.performs (h : ∀ b, Beside g (m.look b) (m'.look b)) (hk : m.Performs g k) : m'.Performs g k := by
  obtain ⟨a, s, hl, hs⟩ := hk
  rcases (h a).after hl with ⟨s', hl', alike⟩ | rfl | ⟨none, -⟩
  · refine ⟨a, s', hl', ?_⟩
    rw [Stance.active?, alike.seat rfl]
    exact hs
  · cases hs
  · cases none

namespace Machine

/-- In every run, the active task is hosted with the slot. -/
theorem Reachable.performs (h : Reachable (.empty r memory) m) (hx : m.cogs.get? g = some x)
    (hk : x.scheduler.activeTask = some k) : m.Performs g k := by
  induction h generalizing x with
  | refl => cases hx
  | @act m m' move h ha ih =>
    have aftermath := (shift_act h.ordered ha).aftermath h.ordered hx
    generalize move.actor? = actor at aftermath
    cases aftermath with
    | founded _ _ empty =>
      rw [empty] at hk
      cases hk
    | aside hb hy same => exact Beside.performs hb (ih hy (same ▸ hk))
    | @deed a own loud s s' y ht hw hd =>
      rcases hd.activates hk with ⟨active, same⟩ | ⟨rfl, active⟩
      · obtain ⟨b, s₁, hl, hs⟩ := ih hw.before active
        by_cases hba : b = a
        · subst hba
          cases ht.before.symm.trans hl
          exact ⟨b, s', ht.after, same.trans hs⟩
        · exact ⟨b, s₁, (ht.others b hba).look.trans hl, hs⟩
      · exact ⟨a, s', ht.after, active⟩
    | @grant a own s s' d y hb hw hg =>
      have active : y.scheduler.activeTask = some k := by cases hg <;> exact hk
      have same : s'.active? = s.active? := by cases hg <;> rfl
      obtain ⟨b, s₁, hl, hs⟩ := ih hw.before active
      by_cases hba : b = a
      · subst hba
        cases hb.before.symm.trans hl
        exact ⟨b, s', hb.after, same.trans hs⟩
      · have old : b ≠ .context d := by
          rintro rfl
          cases hl.symm.trans (h.ordered.unlaunched hb.before hb.launches)
        exact ⟨b, s₁, (hb.others b hba old).look.trans hl, hs⟩

/-- A running task is the active one, and the context with the slot hosts it. -/
theorem Reachable.running (h : Reachable (.empty r memory) m) (hx : m.cogs.get? g = some x)
    {record : TaskRecord} (hr : x.scheduler.records.get? k = some record) (running : record.view.state = .running) :
    x.scheduler.activeTask = some k ∧ ∃ c s, record.view.context = some c ∧ x.scheduler.active = some c ∧
      m.look (.context c) = some (some g, s) ∧ s.active? = some k := by
  obtain ⟨c, s, active, context, hl, seat⟩ := (h.attended hx).begun hr (by simp [running])
  cases active with
  | true =>
    obtain ⟨holder, task⟩ := h.ordered.holder hl hx (by simp [Stance.slot, seat])
    exact ⟨task k seat, c, s, context, holder, hl, Stance.active?_eq_some.mpr seat⟩
  | false =>
    have idle := ((h.attended hx).hosted hl seat).idle_of seat hr
    cases running.symm.trans idle

/-- The active task is running. -/
theorem Reachable.active_running (h : Reachable (.empty r memory) m) (hx : m.cogs.get? g = some x)
    (hk : x.scheduler.activeTask = some k) :
    ∃ record, x.scheduler.records.get? k = some record ∧ record.view.state = .running := by
  obtain ⟨a, s, hl, hs⟩ := h.performs hx hk
  have seat := Stance.active?_eq_some.mp hs
  obtain ⟨⟨c, rfl⟩, -⟩ := h.ordered.home hl
  cases (h.attended hx).hosted hl seat with
  | running _ hr running => exact ⟨_, hr, running⟩
  | suspended idle => cases seat.symm.trans idle
  | cancelled idle => cases seat.symm.trans idle

end Machine

/-! ## The order of the records -/

theorem Table.keys_remove {κ α : Type} [DecidableEq κ] {table : Table κ α} {i : κ} :
    keys (table.remove i) = (keys table).filter (· ≠ i) := by
  simp [keys, remove, List.filter_map, Function.comp_def]

/-- A deed keeps the records in the order in which their tasks have come. -/
theorem Course.sorted (h : Course a g own y y' s s') (fits : y.Fits g own s)
    (hl : ∀ k, s.offers g = some k → ∃ q, y.queued = q ++ [k])
    (hy : (Table.keys y.records).Sublist (begun ++ y.queued)) :
    (Table.keys y'.records).Sublist (begun ++ (s.claims s').toList ++ y'.queued) := by
  have same (hq : begun ++ (s.claims s').toList ++ y'.queued = begun ++ y.queued)
      (hr : (Table.keys y'.records).Sublist (Table.keys y.records)) :
      (Table.keys y'.records).Sublist (begun ++ (s.claims s').toList ++ y'.queued) := by
    rw [hq]
    exact hr.trans hy
  have kept {i : TaskId} {f : TaskRecord → TaskRecord} (hr : y'.records = y.records.modify i f) :
      (Table.keys y'.records).Sublist (Table.keys y.records) := by
    rw [hr, Table.keys_modify]
  have gone {i : TaskId} (hr : y'.records = y.records.remove i) :
      (Table.keys y'.records).Sublist (Table.keys y.records) := by
    rw [hr, Table.keys_remove]
    exact List.filter_sublist
  have all (hr : y'.records = y.records) :
      (Table.keys y'.records).Sublist (Table.keys y.records) := by rw [hr]
  cases h with
  | rest keeps tasks =>
    exact same (by simp [Stance.claims_of_seat keeps.seat, tasks.queued]) (all tasks.records)
  | @unwind k s _ suspends tasks =>
    have seat : Stance.seat? (.body (some ⟨k, false⟩)) = s.seat? := (Stance.seat_of_suspends suspends).symm
    exact same (by simp [Stance.claims_of_seat seat, tasks.queued]) (all tasks.records)
  | retire _ _ tasks => exact same (by simp [Stance.claims, tasks.queued]) (all tasks.records)
  | @enter _ _ view letter keeps enters =>
    have absent : ∀ e ∈ y.records, e.1 ≠ view.id := by
      intro e he same
      have there : e.1 ∈ Table.keys y.records := List.mem_map.mpr ⟨e, he, rfl⟩
      rw [Table.mem_keys, same, (fits.new letter).1] at there
      cases there
    rw [enters.records, Table.put_new absent, enters.queued, Stance.claims_of_seat keeps.seat]
    simp only [Table.keys, List.map_append, List.map_cons, List.map_nil, Option.toList_none, List.append_nil,
      ← List.append_assoc]
    exact hy.append (.refl _)
  | @withdraw _ _ i offers keeps withdraws =>
    obtain ⟨q, hq⟩ := hl i offers
    rw [withdraws.records, Table.keys_remove, withdraws.queued, hq, List.dropLast_concat,
      Stance.claims_of_seat keeps.seat]
    have shorter := hy.filter (· ≠ i)
    simp only [hq, List.filter_append, List.filter_cons, List.filter_nil, ne_eq, not_true_eq_false,
      decide_false, Bool.false_eq_true, if_false, List.append_nil] at shorter
    simpa using shorter.trans (List.filter_sublist.append List.filter_sublist)
  | start now _ _ hq hm => exact same (by simp [Stance.claims, hq]) (kept hm.records)
  | suspend label _ _ hq _ hm => exact same (by simp [Stance.claims, hq]) (kept hm.records)
  | prepare _ hq hr => exact same (by simp [Stance.claims, hq]) (kept hr)
  | resume now _ _ hq hm => exact same (by simp [Stance.claims, hq]) (kept hm.records)
  | complete _ hq he => exact same (by simp [Stance.claims, hq]) (gone he.records)
  | abort _ _ hq hst he =>
    refine same ?_ (gone he.records)
    rcases hst with rfl | rfl <;> simp [Stance.claims, hq]
  | strand _ _ hq he => exact same (by simp [Stance.claims, hq]) (gone he.records)
  | fade _ _ _ tasks => exact same (by simp [Stance.claims, tasks.queued]) (all tasks.records)

/-- In every run, the records stand in the order in which their tasks have come. -/
theorem History.sorted (h : History (.empty r memory) moves m) (hx : m.cogs.get? g = some x) :
    (Table.keys x.scheduler.records).Sublist (claimed g moves ++ x.scheduler.queued) := by
  rw [← books_eq hx]
  refine h.books (P := fun moves y => (Table.keys y.records).Sublist (claimed g moves ++ y.queued))
    (List.nil_sublist _) ?_ ?_ ?_
  · intro moves v h ha hb sorted
    rw [claimed_snoc, (Beside.silent hb).2]
    simpa using sorted
  · intro moves m m' move a own loud s s' x x' h ha hact ht hw hd sorted
    have filed := h.reachable.filed hw.before
    have course := filed.course h.reachable.ordered ht h.reachable.blank ha hw hd
    rw [claimed_snoc, hd.claimed_task hact ht]
    exact course.sorted (h.fits hw.before ht.before) (fun k hk => filed.offers_last ht hk) sorted
  · intro moves m m' move a own c s s' x x' h ha hact hb hw hg sorted
    rw [claimed_snoc, (hg.silent hact hb).2]
    simp only [Option.map_none, Option.toList_none, List.append_nil]
    cases hg <;> exact sorted

/-! ## What is listed -/

/-- The tasks that the snapshot shows, each once; those that are ready are among the suspended ones. -/
def Snapshot.listed (s : Snapshot) : List TaskView := s.active.toList ++ s.suspended ++ s.schedulable

theorem Table.mem_values {κ α : Type} [DecidableEq κ] {table : Table κ α} (h : (keys table).Nodup) {b : α} :
    b ∈ values table ↔ ∃ i, table.get? i = some b := by
  constructor
  · intro hb
    obtain ⟨⟨i, d⟩, he, rfl⟩ := List.mem_map.mp hb
    exact ⟨i, get?_of_mem h he⟩
  · rintro ⟨i, hb⟩
    exact List.mem_map.mpr ⟨(i, b), mem_of_get? hb, rfl⟩

namespace Scheduler.Tidy

variable (h : y.Tidy begun) {p : TaskView → Bool}
include h

theorem id_eq {record : TaskRecord} (hr : y.records.get? k = some record) : record.view.id = k :=
  (h.plain _ (Table.mem_of_get? hr)).id

theorem ids_viewsWhere : (y.viewsWhere p).map (·.id) = Table.keysWhere (fun r => p r.view) y.records := by
  have ids : ∀ e ∈ y.records.filter fun e => p e.2.view, e.2.view.id = e.1 :=
    fun e he => (h.plain e (List.mem_filter.mp he).1).id
  simp only [viewsWhere, views, Table.values, Table.keysWhere, Table.keys, List.map_map, List.filter_map,
    Function.comp_def]
  exact List.map_congr_left ids

theorem mem_viewsWhere {v : TaskView} :
    v ∈ y.viewsWhere p ↔ p v = true ∧ ∃ record, y.records.get? v.id = some record ∧ record.view = v := by
  simp only [viewsWhere, views, List.mem_filter, List.mem_map, Table.mem_values h.distinct]
  constructor
  · rintro ⟨⟨record, ⟨k, hr⟩, rfl⟩, holds⟩
    exact ⟨holds, record, (h.id_eq hr).symm ▸ hr, rfl⟩
  · rintro ⟨holds, record, hr, e⟩
    exact ⟨⟨record, ⟨_, hr⟩, e⟩, holds⟩

theorem activeView_eq_some {v : TaskView} : y.activeView = some v ↔
    y.activeTask = some v.id ∧ ∃ record, y.records.get? v.id = some record ∧ record.view = v := by
  simp only [activeView, viewOf, Option.bind_eq_some_iff, Option.map_eq_some_iff]
  constructor
  · rintro ⟨k, hk, record, hr, rfl⟩
    rw [h.id_eq hr]
    exact ⟨hk, record, hr, rfl⟩
  · rintro ⟨hk, record, hr, e⟩
    exact ⟨v.id, hk, record, hr, e⟩

end Scheduler.Tidy

/-- The snapshot shows the unfinished tasks of the cog after these moves. -/
structure Pictured (moves : List (Move S A V)) (m : Machine S A V) (g : CogId) (x : Cog S A V) (s : Snapshot) :
    Prop where
  /-- No task is listed twice, under one heading or two. -/
  distinct : (s.listed.map (·.id)).Nodup
  /-- What is listed are the accepted tasks that have not ended. -/
  complete {k : TaskId} : k ∈ s.listed.map (·.id) ↔ k ∈ accepted g moves ∧ m.unfinished g k = true
  /-- Each with the view of its record. -/
  views {v : TaskView} : v ∈ s.listed ↔
    ∃ record, x.scheduler.records.get? v.id = some record ∧ record.view = v
  suspended {v : TaskView} : v ∈ s.suspended → v.state = .suspended
  schedulable {v : TaskView} : v ∈ s.schedulable → v.state = .queued
  /-- The active task is running, on the context with the slot. -/
  active {v : TaskView} : s.active = some v → v.state = .running ∧ ∃ c stance, v.context = some c ∧
    x.scheduler.active = some c ∧ m.look (.context c) = some (some g, stance) ∧
      stance.seat? = some ⟨v.id, true⟩
  /-- No other task is running. -/
  running {k : TaskId} {record : TaskRecord} : x.scheduler.records.get? k = some record →
    (record.view.state = .running ↔ s.active = some record.view)
  ready : s.ready = s.suspended.filter (·.ready)
  order : (s.suspended.map (·.id)).Sublist (accepted g moves) ∧
    (s.ready.map (·.id)).Sublist (accepted g moves) ∧ (s.schedulable.map (·.id)).Sublist (accepted g moves)
  counted : s.metrics.submitted =
    s.metrics.completed + s.metrics.failed + s.metrics.aborted + s.listed.length
  /-- As long as the sum of the finished ones is one of 64 bits. -/
  inFlight : (accepted g moves).length < Word.size → s.metrics.inFlight = s.listed.length

theorem Scheduler.Tidy.state_suspended (tidy : x.scheduler.Tidy begun) {v : TaskView}
    (hv : v ∈ (x.snapshot g).suspended) : v.state = .suspended := by
  simpa using (tidy.mem_viewsWhere.mp hv).1

theorem Scheduler.Tidy.state_schedulable (tidy : x.scheduler.Tidy begun) {v : TaskView}
    (hv : v ∈ (x.snapshot g).schedulable) : v.state = .queued := by
  simpa using (tidy.mem_viewsWhere.mp hv).1

section
variable (h : Reachable (.empty r memory) m) (hx : m.cogs.get? g = some x) (tidy : x.scheduler.Tidy begun)
include h hx tidy

theorem mem_listed {v : TaskView} : v ∈ (x.snapshot g).listed ↔
    ∃ record, x.scheduler.records.get? v.id = some record ∧ record.view = v := by
  have sound {record : TaskRecord} (hr : x.scheduler.records.get? v.id = some record) :=
    (h.attended hx).faithful.sound hr
  simp only [Snapshot.listed, Cog.snapshot, List.mem_append, Option.mem_toList, tidy.activeView_eq_some,
    Scheduler.suspended, Scheduler.schedulable, tidy.mem_viewsWhere, decide_eq_true_eq]
  constructor
  · rintro ((⟨-, there⟩ | ⟨-, there⟩) | ⟨-, there⟩) <;> exact there
  · rintro ⟨record, hr, rfl⟩
    cases state : record.view.state with
    | queued => exact .inr ⟨rfl, record, hr, rfl⟩
    | running => exact .inl (.inl ⟨(h.running hx hr state).1, record, hr, rfl⟩)
    | suspended => exact .inl (.inr ⟨rfl, record, hr, rfl⟩)
    | finished => exact absurd state (sound hr).unfinished

theorem active_iff {v : TaskView} : (x.snapshot g).active = some v ↔ v.state = .running ∧
    ∃ record, x.scheduler.records.get? v.id = some record ∧ record.view = v := by
  refine tidy.activeView_eq_some.trans ⟨?_, ?_⟩
  · rintro ⟨active, record, hr, rfl⟩
    obtain ⟨record', hr', running⟩ := h.active_running hx active
    cases hr.symm.trans hr'
    exact ⟨running, record, hr, rfl⟩
  · rintro ⟨running, record, hr, rfl⟩
    exact ⟨(h.running hx hr running).1, record, hr, rfl⟩

theorem nodup_listed : ((x.snapshot g).listed.map (·.id)).Nodup := by
  have states {v w : TaskView} (hv : v ∈ (x.snapshot g).listed) (hw : w ∈ (x.snapshot g).listed)
      (e : v.id = w.id) : v.state = w.state := by
    obtain ⟨record, hr, rfl⟩ := (mem_listed h hx tidy).mp hv
    obtain ⟨record', hr', rfl⟩ := (mem_listed h hx tidy).mp hw
    rw [e, hr'] at hr
    rw [Option.some.inj hr]
  have active {v : TaskView} (hv : v ∈ (x.snapshot g).active.toList) : v.state = .running :=
    ((active_iff h hx tidy).mp (Option.mem_toList.mp hv)).1
  have distinct (p : TaskView → Bool) : ((x.scheduler.viewsWhere p).map (·.id)).Nodup := by
    rw [tidy.ids_viewsWhere]
    exact Table.nodup_keysWhere tidy.distinct
  rw [Snapshot.listed, List.map_append, List.map_append]
  refine List.nodup_append.mpr ⟨List.nodup_append.mpr ⟨?_, distinct _, ?_⟩, distinct _, ?_⟩
  · cases (x.snapshot g).active <;> simp
  · intro k hk l hl e
    obtain ⟨v, hv, rfl⟩ := List.mem_map.mp hk
    obtain ⟨w, hw, rfl⟩ := List.mem_map.mp hl
    have same := states (by simp [Snapshot.listed, hv]) (by simp [Snapshot.listed, hw]) e
    rw [active hv, tidy.state_suspended hw] at same
    cases same
  · intro k hk l hl e
    rw [← List.map_append] at hk
    obtain ⟨v, hv, rfl⟩ := List.mem_map.mp hk
    obtain ⟨w, hw, rfl⟩ := List.mem_map.mp hl
    have same := states (List.mem_append_left _ hv) (by simp [Snapshot.listed, hw]) e
    rw [tidy.state_schedulable hw] at same
    rcases List.mem_append.mp hv with hv | hv
    · cases same.symm.trans (active hv)
    · cases same.symm.trans (tidy.state_suspended hv)

end

/-- A snapshot of a cog that exists shows its unfinished tasks, each once. -/
theorem History.pictured (h : History (.empty r memory) moves m) (hn : ∀ v ∈ moves, v.before.Nameable)
    (hx : m.cogs.get? g = some x) (hlock : x.lock = none) : Pictured moves m g x (x.snapshot g) := by
  have tidy := (h.roll.2 hx).tidy
  have listed {v : TaskView} : v ∈ (x.snapshot g).listed ↔
      ∃ record, x.scheduler.records.get? v.id = some record ∧ record.view = v :=
    mem_listed h.reachable hx tidy
  have complete {k : TaskId} : k ∈ (x.snapshot g).listed.map (·.id) ↔ k ∈ Table.keys x.scheduler.records := by
    rw [Table.mem_keys, List.mem_map, Option.isSome_iff_exists]
    constructor
    · rintro ⟨v, hv, rfl⟩
      obtain ⟨record, hr, -⟩ := listed.mp hv
      exact ⟨record, hr⟩
    · rintro ⟨record, hr⟩
      exact ⟨record.view, listed.mpr ⟨record, (tidy.id_eq hr).symm ▸ hr, rfl⟩, tidy.id_eq hr⟩
  have length : (x.snapshot g).listed.length = x.scheduler.records.length := by
    have perm : ((x.snapshot g).listed.map (·.id)).Perm (Table.keys x.scheduler.records) :=
      (List.perm_ext_iff_of_nodup (nodup_listed h.reachable hx tidy) tidy.distinct).mpr fun k => complete
    simpa [Table.keys] using perm.length_eq
  have recorded := h.submitted_split hx
  have order (p : TaskView → Bool) : ((x.scheduler.viewsWhere p).map (·.id)).Sublist (accepted g moves) := by
    rw [tidy.ids_viewsWhere, h.taken hn hx hlock]
    exact (List.filter_sublist.map _).trans (h.sorted hx)
  constructor
  case distinct => exact nodup_listed h.reachable hx tidy
  case complete =>
    intro k
    rw [complete, Table.mem_keys]
    exact h.recorded_iff hn hx hlock
  case views => exact listed
  case suspended => exact tidy.state_suspended
  case schedulable => exact tidy.state_schedulable
  case active =>
    intro v hv
    obtain ⟨running, record, hr, rfl⟩ := (active_iff h.reachable hx tidy).mp hv
    obtain ⟨-, c, stance, context, holder, hl, hs⟩ := h.reachable.running hx hr running
    exact ⟨running, c, stance, context, holder, hl, Stance.active?_eq_some.mp hs⟩
  case running =>
    intro k record hr
    rw [active_iff h.reachable hx tidy]
    exact ⟨fun running => ⟨running, record, (tidy.id_eq hr).symm ▸ hr, rfl⟩, And.left⟩
  case ready => simp [Cog.snapshot, Scheduler.ready, Scheduler.suspended, viewsWhere, List.filter_filter, Bool.and_comm]
  case order => exact ⟨order _, order _, order _⟩
  case counted =>
    rw [length]
    exact recorded
  case inFlight =>
    intro few
    rw [length]
    exact h.inFlight_eq hn hx hlock few

/-! ## Whole runs -/

/-- While the lock of its scheduler is free, a cog that exists shows its unfinished tasks, each
once; one that is gone shows nothing. -/
theorem snapshot_consistent (r : Registry) (memory : A) (h : History (.empty r memory) moves m)
    (hn : ∀ v ∈ moves, v.before.Nameable) (hx : m.cogs.get? g = some x) (hlock : x.lock = none) :
    ∃ s, m.snapshot g = some s ∧ (m.cogExists g = true → Pictured moves m g x s) ∧
      (m.cogExists g = false → s.listed = [] ∧ s.ready = [] ∧ s.metrics.inFlight = 0) := by
  have shown : m.snapshot g = some (if m.cogExists g then x.snapshot g else { cog := g, name := x.name }) := by
    rw [Machine.snapshot, hx, Option.map_some]
  refine ⟨_, shown, ?_, ?_⟩
  · intro there
    rw [if_pos there]
    exact h.pictured hn hx hlock
  · intro gone
    rw [if_neg (by simp [gone])]
    exact ⟨rfl, rfl, rfl⟩

/-- One task waits for a future, one is ready, one has the slot, and one is in the queue. -/
def pictureActions : List (Action Unit Unit Unit) :=
  [.found "cog" (),
    .arrive (.submit ⟨1⟩ "waiting" (.await (.future ⟨1⟩) fun _ => .exit (.ok ())) fun _ =>
      .submit ⟨1⟩ "ready" (.await .always fun _ => .exit (.ok ())) fun _ =>
        .submit ⟨1⟩ "running" (.block (fun _ => false) (.exit (.ok ()))) fun _ =>
          .submit ⟨1⟩ "queued" (.exit (.ok ())) fun _ => .exit (.ok ()))] ++
    List.replicate 30 (.step (.caller 1)) ++
    [1, 2, 3].flatMap fun c => List.replicate 20 (.step (.context ⟨c⟩))

def pictureMoves : List (Move Unit Unit Unit) :=
  (Machine.empty { namePrefix := "cog", admits := fun _ => true } ()).moves pictureActions

def picture : Machine Unit Unit Unit :=
  pictureActions.foldl perform (.empty { namePrefix := "cog", admits := fun _ => true } ())

theorem snapshot_consistent_picture : ∃ x s, picture.cogs.get? ⟨1⟩ = some x ∧
    picture.snapshot ⟨1⟩ = some s ∧ Pictured pictureMoves picture ⟨1⟩ x s ∧
    s.active.map (·.id) = some ⟨3⟩ ∧ s.suspended.map (·.id) = [⟨1⟩, ⟨2⟩] ∧
    s.ready.map (·.id) = [⟨2⟩] ∧ s.schedulable.map (·.id) = [⟨4⟩] := by
  have founded : (picture.cogs.get? ⟨1⟩).isSome := by decide +kernel
  obtain ⟨x, hx⟩ := Option.isSome_iff_exists.mp founded
  have free : (picture.cogs.get? ⟨1⟩).map (·.lock) = some none := by decide +kernel
  have shown : (picture.snapshot ⟨1⟩).map (fun s => (s.active.map (·.id), s.suspended.map (·.id),
      s.ready.map (·.id), s.schedulable.map (·.id))) =
        some (some ⟨3⟩, [⟨1⟩, ⟨2⟩], [⟨2⟩], [⟨4⟩]) := by decide +kernel
  rw [hx] at free
  have ran : History (.empty { namePrefix := "cog", admits := fun _ => true } ()) pictureMoves picture :=
    history_moves _ pictureActions
  obtain ⟨s, hs, there, -⟩ := snapshot_consistent { namePrefix := "cog", admits := fun _ => true } ()
    ran (by decide +kernel) hx (Option.some.inj free)
  rw [hs] at shown
  obtain ⟨active, suspended, ready, schedulable⟩ :
      s.active.map (·.id) = some ⟨3⟩ ∧ s.suspended.map (·.id) = [⟨1⟩, ⟨2⟩] ∧
        s.ready.map (·.id) = [⟨2⟩] ∧ s.schedulable.map (·.id) = [⟨4⟩] := by
    simpa using shown
  exact ⟨x, s, hx, hs, there (by decide +kernel), active, suspended, ready, schedulable⟩

/-- The registry is shut down, and the holder lets go of the cog, while one of its tasks runs and
the other is in the queue: the context of the first takes the cog with it. -/
def goneActions : List (Action Unit Unit Unit) :=
  [.found "cog" (),
    .arrive (.submit ⟨1⟩ "first" (.exit (.ok ())) fun _ =>
      .submit ⟨1⟩ "second" (.exit (.ok ())) fun _ => .request .shutdown fun _ => .exit (.ok ()))] ++
    List.replicate 16 (.step (.caller 1)) ++ [.drop ⟨1⟩] ++ List.replicate 20 (.step (.context ⟨1⟩))

def goneMoves : List (Move Unit Unit Unit) :=
  (Machine.empty { namePrefix := "cog", admits := fun _ => true } ()).moves goneActions

def gone : Machine Unit Unit Unit :=
  goneActions.foldl perform (.empty { namePrefix := "cog", admits := fun _ => true } ())

/-- A task that has been accepted and has not ended is in no list of the snapshot. -/
theorem snapshot_of_gone_cog : History (.empty { namePrefix := "cog", admits := fun _ => true } ()) goneMoves gone ∧
    (∀ v ∈ goneMoves, v.before.Nameable) ∧ (gone.cogs.get? ⟨1⟩).map (·.lock) = some none ∧
    ⟨2⟩ ∈ accepted ⟨1⟩ goneMoves ∧ gone.unfinished ⟨1⟩ ⟨2⟩ = true ∧
    (gone.snapshot ⟨1⟩).map (·.listed) = some [] :=
  ⟨history_moves _ goneActions, by decide +kernel, by decide +kernel, by decide +kernel,
    by decide +kernel, by decide +kernel⟩

end ObjectGroups
