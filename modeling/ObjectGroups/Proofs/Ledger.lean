/-
The queue and the records of a cog agree.

The queue of a scheduler and its records of unfinished tasks are two
collections, changed by different operations. `Tidy` says how they fit
together: the records that say queued are those of the tasks in the queue and
stand in the same order, nothing has happened to these tasks yet, and every
other record is of a task that has been claimed.
-/
import Mathlib.Data.List.Nodup
import ObjectGroups.Proofs.History
import ObjectGroups.Snapshot

namespace ObjectGroups

variable {S A V : Type} {a : Agent} {g : CogId} {own : Option CogId} {s s' : Stance}
  {x x' : Cog S A V} {t : TaskId} {claimed : List TaskId}

/-! ## Tables -/

namespace Table

variable {κ α : Type} [DecidableEq κ] {table : Table κ α} {k : κ} {e : κ × α}

theorem put_new (h : ∀ e ∈ table, e.1 ≠ k) (b : α) : table.put k b = table ++ [(k, b)] := by
  induction table with
  | nil => rfl
  | cons e table ih =>
    have other : e.1 ≠ k := h e List.mem_cons_self
    simp [put, other, ih fun e he => h e (List.mem_cons_of_mem _ he)]

theorem mem_remove : e ∈ table.remove k ↔ e ∈ table ∧ e.1 ≠ k := by
  simp [remove]

theorem mem_modify {f : α → α} (h : e ∈ table.modify k f) :
    (e ∈ table ∧ e.1 ≠ k) ∨ ∃ b, (k, b) ∈ table ∧ e = (k, f b) := by
  obtain ⟨⟨j, b⟩, hd, rfl⟩ := List.mem_map.mp h
  by_cases hj : j = k
  · subst hj
    exact .inr ⟨b, hd, by simp⟩
  · exact .inl (by simpa [hj] using hd)

theorem keys_modify (f : α → α) : keys (table.modify k f) = keys table := by
  unfold keys modify
  rw [List.map_map]
  refine List.map_congr_left fun e _ => ?_
  by_cases he : e.1 = k <;> simp [he]

theorem nodup_remove (h : (keys table).Nodup) : (keys (table.remove k)).Nodup :=
  h.sublist (List.filter_sublist.map _)

omit [DecidableEq κ] in
/-- No key stands twice in the table. -/
theorem unique (h : (keys table).Nodup) {b d : α} (hb : (k, b) ∈ table) (hd : (k, d) ∈ table) :
    b = d :=
  congrArg Prod.snd (List.inj_on_of_nodup_map h hb hd rfl)

theorem modify_absent (h : table.has k = false) (f : α → α) : table.modify k f = table := by
  induction table with
  | nil => rfl
  | cons e table ih =>
    obtain ⟨j, b⟩ := e
    by_cases hj : j = k
    · simp [has, get?, hj] at h
    · have rest : has table k = false := by simpa [has, get?, hj] using h
      have same := ih rest
      unfold modify at same ⊢
      simp [hj, same]

theorem remove_absent (h : table.get? k = none) : table.remove k = table := by
  induction table with
  | nil => rfl
  | cons e table ih =>
    obtain ⟨j, b⟩ := e
    by_cases hj : j = k
    · simp [get?, hj] at h
    · have rest : get? table k = none := by simpa [get?, hj] using h
      have same := ih rest
      unfold remove at same ⊢
      rw [List.filter_cons, if_pos (by simpa using hj), same]

end Table

/-! ## Tasks that have never started -/

/-- The tasks whose records say that they are queued. -/
def unstarted (records : Table TaskId TaskRecord) : List TaskId :=
  Table.keys (records.filter fun e => e.2.view.state = .queued)

section
variable {records : Table TaskId TaskRecord}

theorem mem_unstarted : t ∈ unstarted records ↔ ∃ r, (t, r) ∈ records ∧ r.view.state = .queued := by
  simp [unstarted, Table.keys]

theorem unstarted_append (more : Table TaskId TaskRecord) :
    unstarted (records ++ more) = unstarted records ++ unstarted more := by
  simp [unstarted, Table.keys]

theorem unstarted_remove (t : TaskId) :
    unstarted (records.remove t) = (unstarted records).filter (· ≠ t) := by
  induction records with
  | nil => rfl
  | cons e records ih =>
    unfold unstarted Table.keys Table.remove at ih ⊢
    by_cases he : e.1 = t <;> by_cases hq : e.2.view.state = .queued <;> simp_all

/-- A task that gets another state is not among those that have never started. -/
theorem unstarted_modify {f : TaskRecord → TaskRecord}
    (hf : ∀ r, (t, r) ∈ records → (f r).view.state ≠ .queued) :
    unstarted (records.modify t f) = (unstarted records).filter (· ≠ t) := by
  induction records with
  | nil => rfl
  | cons e records ih =>
    have rest := ih fun r hr => hf r (List.mem_cons_of_mem _ hr)
    obtain ⟨k, r⟩ := e
    unfold unstarted Table.keys Table.modify at rest ⊢
    by_cases hk : k = t
    · subst hk
      have started := hf r List.mem_cons_self
      by_cases hq : r.view.state = .queued <;> simp_all
    · by_cases hq : r.view.state = .queued <;> simp_all

end

/-- Nothing has happened to the task if its record says that it is queued. -/
structure TaskRecord.Plain (t : TaskId) (r : TaskRecord) : Prop where
  id : r.view.id = t
  untouched : r.view.state = .queued → r.view.context = none ∧ r.startedAt = none

namespace Scheduler

theorem records_setState (y : Scheduler S A V) (st : TaskState) (f : TaskRecord → TaskRecord) :
    (y.setState t st f).records =
      y.records.modify t fun r => f { r with view := { r.view with state := st } } := by
  unfold setState
  split
  · rfl
  · next h => rw [Table.modify_absent (by simpa using h)]

theorem records_finish (y : Scheduler S A V) (outcome : TaskOutcome) (now : Instant) :
    (y.finish t outcome now).2.records = y.records.remove t := by
  unfold finish
  split
  · next h => rw [Table.remove_absent h]
  · rfl

/-- The records of a cog fit its queue and the tasks that have been claimed. -/
structure Tidy (claimed : List TaskId) (y : Scheduler S A V) : Prop where
  queued : unstarted y.records = y.queued
  distinct : (Table.keys y.records).Nodup
  plain : ∀ e ∈ y.records, e.2.Plain e.1
  known : ∀ e ∈ y.records, e.1 ∈ claimed ++ y.queued
  nodup : (claimed ++ y.queued).Nodup

namespace Tidy

variable {y y' : Scheduler S A V}

theorem start : Tidy [] ({} : Scheduler S A V) := by
  constructor <;> simp [unstarted, Table.keys, Scheduler.queued]

variable (h : y.Tidy claimed)
include h

theorem same (hr : y'.records = y.records) (hq : y'.queue = y.queue) : y'.Tidy claimed := by
  have queued : y'.queued = y.queued := congrArg (List.map _) hq
  exact ⟨hr ▸ queued ▸ h.queued, hr ▸ h.distinct, hr ▸ h.plain, hr ▸ queued ▸ h.known,
    queued ▸ h.nodup⟩

/-- A task that is not in the queue gets another record. -/
theorem modify {f : TaskRecord → TaskRecord} (ht : t ∉ y.queued)
    (hr : y'.records = y.records.modify t f) (hq : y'.queue = y.queue)
    (hf : ∀ r, (f r).view.id = r.view.id ∧ ((f r).view.state = .queued → r.view.state = .queued)) :
    y'.Tidy claimed := by
  have queued : y'.queued = y.queued := congrArg (List.map _) hq
  have started (r : TaskRecord) (hm : (t, r) ∈ y.records) : (f r).view.state ≠ .queued := by
    intro hs
    exact ht (h.queued ▸ mem_unstarted.mpr ⟨r, hm, (hf r).2 hs⟩)
  constructor
  case queued =>
    rw [hr, queued, unstarted_modify started, h.queued, List.filter_eq_self]
    intro k hk
    simpa using fun e : k = t => ht (e ▸ hk)
  case distinct =>
    rw [hr, Table.keys_modify]
    exact h.distinct
  case plain =>
    intro e he
    rcases Table.mem_modify (hr ▸ he) with ⟨he, -⟩ | ⟨r, hm, rfl⟩
    · exact h.plain e he
    · exact ⟨(hf r).1.trans (h.plain _ hm).id, fun hs => absurd hs (started r hm)⟩
  case known =>
    intro e he
    rw [queued]
    rcases Table.mem_modify (hr ▸ he) with ⟨he, -⟩ | ⟨r, hm, rfl⟩
    · exact h.known e he
    · exact h.known (t, r) hm
  case nodup => exact queued ▸ h.nodup

/-- A task that is not in the queue loses its record. -/
theorem remove (ht : t ∉ y.queued) (hr : y'.records = y.records.remove t) (hq : y'.queue = y.queue) :
    y'.Tidy claimed := by
  have queued : y'.queued = y.queued := congrArg (List.map _) hq
  constructor
  case queued =>
    rw [hr, queued, unstarted_remove, h.queued, List.filter_eq_self]
    intro k hk
    simpa using fun e : k = t => ht (e ▸ hk)
  case distinct =>
    rw [hr]
    exact Table.nodup_remove h.distinct
  case plain =>
    intro e he
    exact h.plain e (Table.mem_remove.mp (hr ▸ he)).1
  case known =>
    intro e he
    rw [queued]
    exact h.known e (Table.mem_remove.mp (hr ▸ he)).1
  case nodup => exact queued ▸ h.nodup

/-- The head of the queue is claimed. -/
theorem take {body : Body S A V} {rest : List (TaskId × Body S A V)} {f : TaskRecord → TaskRecord}
    (hy : y.queue = (t, body) :: rest) (hr : y'.records = y.records.modify t f)
    (hq : y'.queue = rest)
    (hf : ∀ r, (f r).view.id = r.view.id ∧ (f r).view.state ≠ .queued) :
    y'.Tidy (claimed ++ [t]) := by
  have before : y.queued = t :: y'.queued := by simp [Scheduler.queued, hy, hq]
  have nodup : (claimed ++ [t] ++ y'.queued).Nodup := by
    simpa [before] using h.nodup
  have known (k : TaskId) (hk : k ∈ claimed ++ y.queued) : k ∈ claimed ++ [t] ++ y'.queued := by
    simpa [before] using hk
  constructor
  case queued =>
    have other : t ∉ y'.queued := by
      intro ht
      have parts := (List.nodup_append.mp nodup).2.2 t (by simp) t ht
      exact parts rfl
    rw [hr, unstarted_modify fun r _ => (hf r).2, h.queued, before]
    simp only [ne_eq, decide_not, List.filter_cons, decide_true, Bool.not_true, Bool.false_eq_true,
      if_false]
    rw [List.filter_eq_self]
    intro k hk
    simpa using fun e : k = t => other (e ▸ hk)
  case distinct =>
    rw [hr, Table.keys_modify]
    exact h.distinct
  case plain =>
    intro e he
    rcases Table.mem_modify (hr ▸ he) with ⟨he, -⟩ | ⟨r, hm, rfl⟩
    · exact h.plain e he
    · exact ⟨(hf r).1.trans (h.plain _ hm).id, fun hs => absurd hs (hf r).2⟩
  case known =>
    intro e he
    rcases Table.mem_modify (hr ▸ he) with ⟨he, -⟩ | ⟨r, hm, rfl⟩
    · exact known _ (h.known e he)
    · exact known _ (h.known (t, r) hm)
  case nodup => exact nodup

/-- A new task comes at the end. -/
theorem enqueue {view : TaskView} (body : Body S A V) (hnew : view.id ∉ claimed ++ y.queued)
    (hs : view.state = .queued) (hc : view.context = none) :
    (y.enqueue view body).Tidy claimed := by
  have queued : (y.enqueue view body).queued = y.queued ++ [view.id] := by
    simp [Scheduler.queued, Scheduler.enqueue]
  have records : (y.enqueue view body).records = y.records ++ [(view.id, { view := view })] :=
    Table.put_new (fun e he same => hnew (by rw [← same]; exact h.known e he)) _
  constructor
  case queued =>
    rw [records, queued, unstarted_append, h.queued]
    simp [unstarted, Table.keys, hs]
  case distinct =>
    rw [records, Table.keys, List.map_append]
    refine List.nodup_append.mpr ⟨h.distinct, by simp, fun k hk l hl e => ?_⟩
    obtain ⟨entry, he, rfl⟩ := List.mem_map.mp hk
    obtain rfl := List.mem_singleton.mp hl
    have known := h.known entry he
    rw [e] at known
    exact hnew known
  case plain =>
    intro e he
    rw [records] at he
    rcases List.mem_append.mp he with he | he
    · exact h.plain e he
    · obtain rfl := List.mem_singleton.mp he
      exact ⟨rfl, fun _ => ⟨hc, rfl⟩⟩
  case known =>
    intro e he
    rw [records] at he
    rw [queued, ← List.append_assoc]
    rcases List.mem_append.mp he with he | he
    · exact List.mem_append_left _ (h.known e he)
    · obtain rfl := List.mem_singleton.mp he
      exact List.mem_append_right _ List.mem_cons_self
  case nodup =>
    rw [queued, ← List.append_assoc]
    refine List.nodup_append.mpr ⟨h.nodup, by simp, fun k hk l hl e => ?_⟩
    obtain rfl := List.mem_singleton.mp hl
    exact hnew (e ▸ hk)

/-- The last task is taken back. -/
theorem withdraw {q : List TaskId} (hq : y.queued = q ++ [t]) : (y.withdraw t).Tidy claimed := by
  have queued : (y.withdraw t).queued = q := by
    have last : (y.withdraw t).queued = y.queued.dropLast := by
      simp [Scheduler.queued, Scheduler.withdraw]
    rw [last, hq, List.dropLast_concat]
  have nodup : (claimed ++ q ++ [t]).Nodup := by
    rw [List.append_assoc, ← hq]
    exact h.nodup
  have other (k : TaskId) (hk : k ∈ claimed ++ q) : k ≠ t := by
    intro e
    exact (List.nodup_append.mp nodup).2.2 k hk t (by simp) e
  constructor
  case queued =>
    show unstarted (y.records.remove t) = _
    rw [queued, unstarted_remove, h.queued, hq, List.filter_append]
    have kept : q.filter (· ≠ t) = q := by
      rw [List.filter_eq_self]
      intro k hk
      simpa using other k (List.mem_append_right _ hk)
    rw [kept]
    simp
  case distinct => exact Table.nodup_remove h.distinct
  case plain =>
    intro e he
    exact h.plain e (Table.mem_remove.mp he).1
  case known =>
    intro e he
    obtain ⟨he, hne⟩ := Table.mem_remove.mp he
    rw [queued]
    have before := h.known e he
    rw [hq, ← List.append_assoc] at before
    rcases List.mem_append.mp before with hk | hk
    · exact hk
    · exact absurd (List.mem_singleton.mp hk) hne
  case nodup =>
    rw [queued]
    exact (List.nodup_append.mp nodup).1

end Tidy

/-! ## Records after each operation -/

section
variable (y : Scheduler S A V) (t : TaskId) (c : ContextId) (now : Instant)

theorem records_suspend (label : String) :
    (y.suspend t c label).records = y.records.modify t fun r =>
      { r with view := { r.view with
        state := .suspended, guard := some label, ready := false,
        suspensions := r.view.suspensions + 1 } } := by
  rw [← records_release (y := y) (d := c)]
  exact records_setState ..

theorem records_resume :
    (y.resume t c now).records = y.records.modify t fun r =>
      { view := { r.view with state := .running, context := some c, guard := none, ready := false }
        startedAt := some (r.startedAt.getD now) } := records_setState ..

theorem records_abort : (y.abort t c now).2.records = y.records.remove t := records_finish ..

theorem records_complete (outcome : TaskOutcome) :
    (y.complete t outcome now).2.records = y.records.remove t := records_finish ..

theorem records_strand : (y.strand t c now).2.records = y.records.remove t := by
  rw [← records_release (y := y) (d := c)]
  exact records_finish ..

end

end Scheduler

open Scheduler

/-- A deed keeps the queue and the records together. -/
theorem Deed.tidy {loud : Bool} (h : Deed g a own loud s x s' x') (tidy : x.scheduler.Tidy claimed)
    (hseat : own = some g → ∀ k active, s.seat? = some ⟨k, active⟩ → k ∉ x.scheduler.queued)
    (hnew : ∀ seat view, s = .enrol seat g view → view.id ∉ claimed ++ x.scheduler.queued ∧
      view.state = .queued ∧ view.context = none)
    (hlast : ∀ k, s.offers g = some k → ∃ q, x.scheduler.queued = q ++ [k]) :
    x'.scheduler.Tidy (claimed ++ (s.claims s').toList) := by
  -- Only a claim adds to what has been claimed.
  have still (hs : s.claims s' = none) (hx : x'.scheduler.Tidy claimed) :
      x'.scheduler.Tidy (claimed ++ (s.claims s').toList) := by simpa [hs] using hx
  cases h with
  | take now _ _ hq =>
    exact tidy.take hq (records_setState ..) (queue_setState ..) fun r => ⟨rfl, nofun⟩
  | submit body =>
    obtain ⟨new, state, context⟩ := hnew _ _ rfl
    exact still rfl (tidy.enqueue body new state context)
  | enqueue body =>
    obtain ⟨new, state, context⟩ := hnew _ _ rfl
    exact still rfl (tidy.enqueue body new state context)
  | withdraw =>
    obtain ⟨q, hq⟩ := hlast _ (if_pos rfl)
    exact still rfl (tidy.withdraw hq)
  | @suspend c t _ label | @handOver c t _ label =>
    exact still rfl (tidy.modify (hseat rfl t true rfl) (records_suspend x.scheduler t c label)
      (queue_suspend ..) fun r => ⟨rfl, nofun⟩)
  | markReady =>
    exact still rfl (tidy.modify (f := fun r => { r with view := { r.view with ready := true } })
      (hseat rfl _ false rfl) rfl rfl fun r => ⟨rfl, id⟩)
  | @abort c s t x now hs =>
    have seat : s.seat? = some ⟨t, false⟩ := by rcases hs with rfl | ⟨rfl, -⟩ <;> rfl
    have none : s.claims (.body (some ⟨t, false⟩)) = none := by
      rcases hs with rfl | ⟨rfl, -⟩ <;> rfl
    exact still none (tidy.remove (hseat rfl t false seat) (records_abort ..) (queue_abort ..))
  | @resume c t x now =>
    exact still rfl (tidy.modify (hseat rfl t false rfl) (records_resume x.scheduler t c now)
      (queue_resume ..) fun r => ⟨rfl, nofun⟩)
  | complete now =>
    exact still rfl (tidy.remove (hseat rfl _ true rfl) (records_complete ..) (queue_complete ..))
  | @strand c t x now =>
    exact still rfl (tidy.remove (hseat rfl t false rfl)
      (records_strand (x.scheduler.removeWaiter c) t c now) (queue_strand ..))
  | retire => exact still rfl (tidy.same records_release (queue_release ..))
  | _ => exact still rfl (tidy.same rfl rfl)

theorem Grant.tidy {c : ContextId} (h : Grant g c a own s x s' x') (tidy : x.scheduler.Tidy claimed) :
    x'.scheduler.Tidy claimed := by
  cases h <;> exact tidy.same rfl rfl

end ObjectGroups
