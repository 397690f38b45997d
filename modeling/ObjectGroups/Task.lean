/-
Tasks from outside: their states, how they end, and the description of one at
a point in time.
-/
import ObjectGroups.Id
import ObjectGroups.Time

namespace ObjectGroups

inductive TaskState where
  /-- Submitted and never started. -/
  | queued
  /-- Holds the active slot of its cog. -/
  | running
  /-- Waits for a guard, or for the slot to come back. -/
  | suspended
  | finished
deriving DecidableEq, Repr

inductive TaskOutcome where
  | completed
  /-- The body returned an error or panicked. -/
  | failed
  /-- Cancelled while suspended. -/
  | aborted
deriving DecidableEq, Repr

def TaskState.name : TaskState → String
  | .queued => "Queued"
  | .running => "Running"
  | .suspended => "Suspended"
  | .finished => "Finished"

def TaskState.all : List TaskState := [.queued, .running, .suspended, .finished]

def TaskState.ofName? (s : String) : Option TaskState := all.find? (·.name = s)

def TaskOutcome.name : TaskOutcome → String
  | .completed => "Completed"
  | .failed => "Failed"
  | .aborted => "Aborted"

def TaskOutcome.all : List TaskOutcome := [.completed, .failed, .aborted]

def TaskOutcome.ofName? (s : String) : Option TaskOutcome := all.find? (·.name = s)

/-- What a task looks like at a point in time. -/
structure TaskView where
  id : TaskId
  name : String
  cog : CogId
  state : TaskState := .queued
  /-- The label of the guard it is suspended on. -/
  guard : Option String := none
  /-- Suspended, and its guard has become true for good. -/
  ready : Bool := false
  /-- The context that hosts it, once it has started. -/
  context : Option ContextId := none
  suspensions : Nat := 0
  submittedAt : Instant
deriving DecidableEq, Repr

/-- What the holder of a task's handle sees; it outlives the task. -/
structure TaskHandle where
  state : TaskState := .queued
  outcome : Option TaskOutcome := none
deriving DecidableEq, Repr

def TaskHandle.finished (h : TaskHandle) : Bool := h.state = .finished

/-- The description of the handle of task `t`. -/
def TaskHandle.text (t : TaskId) (h : TaskHandle) : String :=
  Text.fields "TaskHandle" [("id", t.text), ("state", h.state.name)]

/-- The description of a task by its identity and name. -/
def TaskId.describe (t : TaskId) (name : String) : String :=
  Text.fields "Task" [("id", t.text), ("name", Text.quoted name)]

/-- What a scheduler keeps about an unfinished task. -/
structure TaskRecord where
  view : TaskView
  startedAt : Option Instant := none
deriving DecidableEq, Repr

end ObjectGroups
