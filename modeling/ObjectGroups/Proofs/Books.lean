/-
What each entry into the books of a scheduler leaves alone.

The slot, the task in it, the queue and the waiters are changed by few
operations each; all others keep them.
-/
import ObjectGroups.Scheduler

namespace ObjectGroups

namespace Scheduler

variable {S A V : Type} (s : Scheduler S A V)

/-- The tasks in the queue, in order. -/
def queued : List TaskId := s.queue.map (·.1)

section
variable (t : TaskId) (st : TaskState) (f : TaskRecord → TaskRecord)

@[simp] theorem active_setState : (s.setState t st f).active = s.active := by
  unfold setState; split <;> rfl

@[simp] theorem activeTask_setState : (s.setState t st f).activeTask = s.activeTask := by
  unfold setState; split <;> rfl

@[simp] theorem queue_setState : (s.setState t st f).queue = s.queue := by
  unfold setState; split <;> rfl

@[simp] theorem waiters_setState : (s.setState t st f).waiters = s.waiters := by
  unfold setState; split <;> rfl

end

section
variable (t : TaskId) (c : ContextId) (now : Instant)

@[simp] theorem active_markRunning : (s.markRunning t c now).active = s.active :=
  active_setState ..

@[simp] theorem activeTask_markRunning : (s.markRunning t c now).activeTask = s.activeTask :=
  activeTask_setState ..

@[simp] theorem queue_markRunning : (s.markRunning t c now).queue = s.queue :=
  queue_setState ..

@[simp] theorem waiters_markRunning : (s.markRunning t c now).waiters = s.waiters :=
  waiters_setState ..

@[simp] theorem activeTask_release : (s.release c).activeTask = s.activeTask := by
  unfold release; split <;> rfl

@[simp] theorem queue_release : (s.release c).queue = s.queue := by
  unfold release; split <;> rfl

@[simp] theorem waiters_release : (s.release c).waiters = s.waiters := by
  unfold release; split <;> rfl

theorem active_release : (s.release c).active = if s.active = some c then none else s.active := by
  unfold release; split <;> rfl

end

section
variable (t : TaskId) (c : ContextId) (label : String)

@[simp] theorem active_suspend : (s.suspend t c label).active = (s.release c).active :=
  active_setState ..

@[simp] theorem activeTask_suspend : (s.suspend t c label).activeTask = none :=
  activeTask_setState ..

@[simp] theorem queue_suspend : (s.suspend t c label).queue = s.queue :=
  (queue_setState ..).trans (queue_release ..)

@[simp] theorem waiters_suspend : (s.suspend t c label).waiters = s.waiters :=
  (waiters_setState ..).trans (waiters_release ..)

end

section
variable (t : TaskId) (outcome : TaskOutcome) (now : Instant)

@[simp] theorem active_finish : (s.finish t outcome now).2.active = s.active := by
  unfold finish; split <;> rfl

@[simp] theorem activeTask_finish : (s.finish t outcome now).2.activeTask = s.activeTask := by
  unfold finish; split <;> rfl

@[simp] theorem queue_finish : (s.finish t outcome now).2.queue = s.queue := by
  unfold finish; split <;> rfl

@[simp] theorem waiters_finish : (s.finish t outcome now).2.waiters = s.waiters := by
  unfold finish; split <;> rfl

@[simp] theorem active_complete : (s.complete t outcome now).2.active = s.active :=
  active_finish ..

@[simp] theorem queue_complete : (s.complete t outcome now).2.queue = s.queue :=
  queue_finish ..

@[simp] theorem waiters_complete : (s.complete t outcome now).2.waiters = s.waiters :=
  waiters_finish ..

end

section
variable (t : TaskId) (c : ContextId) (now : Instant)

@[simp] theorem active_resume : (s.resume t c now).active = some c :=
  active_setState ..

@[simp] theorem activeTask_resume : (s.resume t c now).activeTask = some t :=
  activeTask_setState ..

@[simp] theorem queue_resume : (s.resume t c now).queue = s.queue :=
  queue_setState ..

@[simp] theorem waiters_resume : (s.resume t c now).waiters = s.waiters :=
  waiters_setState ..

@[simp] theorem active_abort : (s.abort t c now).2.active = s.active :=
  active_finish ..

@[simp] theorem activeTask_abort : (s.abort t c now).2.activeTask = s.activeTask :=
  activeTask_finish ..

@[simp] theorem queue_abort : (s.abort t c now).2.queue = s.queue :=
  queue_finish ..

@[simp] theorem waiters_abort : (s.abort t c now).2.waiters = s.waiters.filter (· ≠ c) :=
  waiters_finish ..

@[simp] theorem active_strand : (s.strand t c now).2.active = (s.release c).active :=
  active_finish ..

@[simp] theorem activeTask_strand :
    (s.strand t c now).2.activeTask = if s.activeTask = some t then none else s.activeTask := by
  simp [strand, retire]

@[simp] theorem queue_strand : (s.strand t c now).2.queue = s.queue := by
  simp [strand, retire]

@[simp] theorem waiters_strand : (s.strand t c now).2.waiters = s.waiters := by
  simp [strand, retire]

end

theorem mem_addWaiter (c d : ContextId) : d ∈ (s.addWaiter c).waiters ↔ d = c ∨ d ∈ s.waiters := by
  unfold addWaiter
  split
  · next h =>
    have hc : c ∈ s.waiters := by simpa using h
    constructor
    · exact .inr
    · rintro (rfl | hd)
      · exact hc
      · exact hd
  · simp [or_comm]

theorem mem_removeWaiter (c d : ContextId) :
    d ∈ (s.removeWaiter c).waiters ↔ d ≠ c ∧ d ∈ s.waiters := by
  simp [removeWaiter, and_comm]

/-- A claim takes the head of the queue if the claimant may work, and otherwise retires it. -/
theorem claim_eq (c : ContextId) (shutdown : Bool) (now : Instant) :
    (∃ t body rest, s.active = some c ∧ shutdown = false ∧ s.queue = (t, body) :: rest ∧
      s.claim c shutdown now =
        (some (t, body), ({ s with queue := rest, activeTask := some t }).markRunning t c now)) ∨
    ((s.active = some c → shutdown = true ∨ s.queue = []) ∧
      s.claim c shutdown now = (none, (s.release c).retire)) := by
  unfold claim
  by_cases hc : s.active = some c
  · cases shutdown with
    | true => exact .inr ⟨fun _ => .inl rfl, by simp⟩
    | false => cases hq : s.queue with
      | nil => exact .inr ⟨fun _ => .inr rfl, by simp [hc]⟩
      | cons e rest => exact .inl ⟨e.1, e.2, rest, hc, rfl, rfl, by simp [hc]⟩
  · exact .inr ⟨fun h => absurd h hc, by simp [hc]⟩

/-! ## Records of unfinished tasks -/

section
variable (t : TaskId) (c : ContextId) (now : Instant)

theorem record_setState (k : TaskId) (st : TaskState) (f : TaskRecord → TaskRecord) :
    (s.setState t st f).records.get? k =
      if k = t then (s.records.get? t).map fun r => f { r with view := { r.view with state := st } }
      else s.records.get? k := by
  unfold setState
  split
  · rw [Table.get?_modify]
    split
    · next e => rw [e]
    · rfl
  · next h =>
    have none : s.records.get? t = none := by simpa [Table.has] using h
    split
    · next e => rw [e, none]; rfl
    · rfl

@[simp] theorem record_finish (outcome : TaskOutcome) (k : TaskId) :
    (s.finish t outcome now).2.records.get? k =
      if k = t then none else s.records.get? k := by
  unfold finish
  split
  · next h =>
    split
    · next e => rw [e, h]
    · rfl
  · exact Table.get?_remove ..

theorem record_abort (k : TaskId) : (s.abort t c now).2.records.get? k =
    if k = t then none else s.records.get? k := record_finish ..

/-- A task that has taken the slot back is not suspended any more. -/
theorem state_resume {r : TaskRecord} (h : (s.resume t c now).records.get? t = some r) :
    r.view.state = .running := by
  rw [resume, markRunning, record_setState, if_pos rfl] at h
  obtain ⟨r', -, rfl⟩ := Option.map_eq_some_iff.mp h
  rfl

end

end Scheduler

end ObjectGroups
