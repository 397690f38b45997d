/-
The books of one cog's scheduler: what its lock protects.

`queue` holds the tasks that have never started, in order of arrival; `active`
is the active slot, the one context that may run task code; `records` describe
the unfinished tasks in order of submission, and `handles` show every task,
also a finished one, to who submitted it. `waiters` are the contexts that wait
for a guard outside the lock; a broadcast unparks them.
-/
import ObjectGroups.Body
import ObjectGroups.Metrics

namespace ObjectGroups

structure Scheduler (S A V : Type) where
  queue : List (TaskId × Body S A V) := []
  active : Option ContextId := none
  /-- The task that the active context hosts. -/
  activeTask : Option TaskId := none
  records : Table TaskId TaskRecord := []
  handles : Table TaskId TaskHandle := []
  waiters : List ContextId := []
  metrics : Metrics := {}

namespace Scheduler

variable {S A V : Type}

def viewOf (s : Scheduler S A V) (t : TaskId) : Option TaskView :=
  (s.records.get? t).map (·.view)

def views (s : Scheduler S A V) : List TaskView := s.records.values.map (·.view)

/-- Unfinished tasks that satisfy `p`, in order of submission. -/
def viewsWhere (s : Scheduler S A V) (p : TaskView → Bool) : List TaskView := s.views.filter p

/-- Accepts a task at the end of the queue. -/
def enqueue (s : Scheduler S A V) (view : TaskView) (body : Body S A V) : Scheduler S A V :=
  { s with
    queue := s.queue ++ [(view.id, body)]
    records := s.records.put view.id { view }
    handles := s.handles.put view.id {}
    metrics := { s.metrics with submitted := s.metrics.submitted + 1 } }

/-- Takes the task accepted last back. -/
def withdraw (s : Scheduler S A V) (t : TaskId) : Scheduler S A V :=
  { s with
    queue := s.queue.dropLast
    records := s.records.remove t
    handles := s.handles.remove t
    metrics := { s.metrics with submitted := s.metrics.submitted - 1 } }

/-- Changes the record of an unfinished task and the state its handle shows along with it. -/
def setState (s : Scheduler S A V) (t : TaskId) (state : TaskState) (f : TaskRecord → TaskRecord) :
    Scheduler S A V :=
  if s.records.has t then
    { s with
      records := s.records.modify t fun r => f { r with view := { r.view with state } }
      handles := s.handles.modify t fun h => { h with state } }
  else s

def markRunning (s : Scheduler S A V) (t : TaskId) (c : ContextId) (now : Instant) : Scheduler S A V :=
  s.setState t .running fun r =>
    { view := { r.view with context := some c, guard := none, ready := false }
      startedAt := some (r.startedAt.getD now) }

def markSuspended (s : Scheduler S A V) (t : TaskId) (label : String) : Scheduler S A V :=
  let s' := s.setState t .suspended fun r =>
    { r with view := { r.view with
        guard := some label, ready := false, suspensions := r.view.suspensions + 1 } }
  { s' with metrics := { s'.metrics with suspensions := s'.metrics.suspensions + 1 } }

def markReady (s : Scheduler S A V) (t : TaskId) : Scheduler S A V :=
  { s with records := s.records.modify t fun r => { r with view := { r.view with ready := true } } }

/-- Counts a task that has ended; a cancelled one has not been executed. -/
def count (m : Metrics) (outcome : TaskOutcome) (r : TaskRecord) (now : Instant) : Metrics :=
  let m := match outcome with
    | .completed => { m with completed := m.completed + 1 }
    | .failed => { m with failed := m.failed + 1 }
    | .aborted => { m with aborted := m.aborted + 1 }
  match outcome, r.startedAt with
  | .aborted, _ => m
  | _, none => m
  | _, some t => m.record now r.view.name (t.until_ now)

/-- The last view of a task. -/
def lastView (v : TaskView) : TaskView := { v with state := .finished, guard := none, ready := false }

/-- Ends a task: its record goes, its handle keeps the outcome. Gives the last view, if the task was unfinished. -/
def finish (s : Scheduler S A V) (t : TaskId) (outcome : TaskOutcome) (now : Instant) :
    Option TaskView × Scheduler S A V :=
  match s.records.get? t with
  | none => (none, s)
  | some r =>
    (some (lastView r.view),
      { s with
        records := s.records.remove t
        handles := s.handles.modify t fun _ => { state := .finished, outcome := some outcome }
        metrics := count s.metrics outcome r now })

/-- The slot goes to a context that has just been started. -/
def grant (s : Scheduler S A V) (c : ContextId) : Scheduler S A V :=
  { s with
    active := some c
    metrics := { s.metrics with contextsStarted := s.metrics.contextsStarted + 1 } }

def retire (s : Scheduler S A V) : Scheduler S A V :=
  { s with metrics := { s.metrics with contextsRetired := s.metrics.contextsRetired + 1 } }

/-- Gives the slot up if `c` holds it. -/
def release (s : Scheduler S A V) (c : ContextId) : Scheduler S A V :=
  if s.active = some c then { s with active := none } else s

/-- First phase of an await: the task gives the slot up and is suspended. -/
def suspend (s : Scheduler S A V) (t : TaskId) (c : ContextId) (label : String) : Scheduler S A V :=
  ({ s.release c with activeTask := none }).markSuspended t label

def addWaiter (s : Scheduler S A V) (c : ContextId) : Scheduler S A V :=
  { s with waiters := if s.waiters.contains c then s.waiters else s.waiters ++ [c] }

def removeWaiter (s : Scheduler S A V) (c : ContextId) : Scheduler S A V :=
  { s with waiters := s.waiters.filter (· ≠ c) }

/-- A suspended task takes the slot back. -/
def resume (s : Scheduler S A V) (t : TaskId) (c : ContextId) (now : Instant) : Scheduler S A V :=
  let s := ({ s with active := some c, activeTask := some t }).markRunning t c now
  { s with metrics := { s.metrics with resumptions := s.metrics.resumptions + 1 } }

/-- Ends a suspended task that has been interrupted. The slot is left alone. -/
def abort (s : Scheduler S A V) (t : TaskId) (c : ContextId) (now : Instant) :
    Option TaskView × Scheduler S A V :=
  (s.removeWaiter c).retire.finish t .aborted now

/-- The active context ends its task. -/
def complete (s : Scheduler S A V) (t : TaskId) (outcome : TaskOutcome) (now : Instant) :
    Option TaskView × Scheduler S A V :=
  ({ s with activeTask := none }).finish t outcome now

/-- Ends a task whose body left without the slot. -/
def strand (s : Scheduler S A V) (t : TaskId) (c : ContextId) (now : Instant) :
    Option TaskView × Scheduler S A V :=
  let s := s.release c
  let s := { s with activeTask := if s.activeTask = some t then none else s.activeTask }
  s.retire.finish t .failed now

/-- What a context does between tasks: take the head of the queue, or leave. -/
def claim (s : Scheduler S A V) (c : ContextId) (shutdown : Bool) (now : Instant) :
    Option (TaskId × Body S A V) × Scheduler S A V :=
  let head := if s.active = some c && !shutdown then s.queue.head? else none
  match head with
  | some (t, body) =>
    (some (t, body), ({ s with queue := s.queue.tail, activeTask := some t }).markRunning t c now)
  | none => (none, (s.release c).retire)

end Scheduler

end ObjectGroups
