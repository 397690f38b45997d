/-
Notices to the listeners of a cog, and what the runtime reports of trouble.

A listener answers each notice; an error or a panic of one listener is
reported and keeps no other listener from its notice.
-/
import ObjectGroups.Error
import ObjectGroups.Exit
import ObjectGroups.Task

namespace ObjectGroups

inductive NoticeKind where
  | added
  | suspended (guard : String)
  | ready
  | resumed (guard : String)
  | finished (outcome : TaskOutcome)
deriving DecidableEq, Repr

/-- A change of one task, with the view of the task right after it. -/
structure Notice where
  kind : NoticeKind
  task : TaskView
deriving DecidableEq, Repr

def NoticeKind.name : NoticeKind → String
  | .added => "added"
  | .suspended _ => "suspended"
  | .ready => "ready"
  | .resumed _ => "resumed"
  | .finished _ => "finished"

structure Listener where
  answer : Notice → Exit ObserverError Unit

/-- A notice that has reached a listener: the `position`th of its cog, from zero. -/
structure Delivery where
  cog : CogId
  position : Nat
  notice : Notice
deriving DecidableEq, Repr

/-- Trouble worth a line in the log. -/
inductive Report where
  | taskFailed (cog : String) (task : TaskId) (e : TaskError)
  | taskPanicked (cog : String) (task : TaskId) (p : Payload)
  | leftOutside (cog : String) (context : ContextId) (task : TaskId)
  /-- A submission was taken back, since no context could be started for it. -/
  | notStarted (cog : String) (task : TaskId) (e : RuntimeError)
  /-- No context could be started for the tasks in the queue. -/
  | queueNotStarted (cog : String) (e : RuntimeError)
  | listenerFailed (cog : String) (event : NoticeKind) (e : ObserverError)
  | listenerPanicked (cog : String) (event : NoticeKind)
  | stillLive (live : Nat) (timeout : Span)
deriving DecidableEq, Repr

inductive Severity where
  | warn
  | error
deriving DecidableEq, Repr

def Severity.name : Severity → String
  | .warn => "WARN"
  | .error => "ERROR"

namespace Report

def severity : Report → Severity
  | .taskFailed .. | .listenerFailed .. | .stillLive .. => .warn
  | _ => .error

def message : Report → String
  | .taskFailed .. => "task failed"
  | .taskPanicked .. => "task panicked"
  | .leftOutside .. => "task left its body outside the active slot"
  | .notStarted .. => "could not start execution context"
  | .queueNotStarted .. => "could not start execution context for queued tasks"
  | .listenerFailed .. => "scheduler listener failed"
  | .listenerPanicked .. => "scheduler listener panicked"
  | .stillLive .. => "execution contexts still live after timeout"

/-- The name under which a listener's method is reported. -/
def eventName (k : NoticeKind) : String := "task_" ++ k.name

/-- The details, each under its name. -/
def details : Report → List (String × String)
  | .taskFailed cog task e => [("cog", cog), ("task", task.display), ("error", e.message)]
  | .taskPanicked cog task p => [("cog", cog), ("task", task.display), ("panic", p.message)]
  | .leftOutside cog context task =>
    [("cog", cog), ("context", context.display), ("task", task.display)]
  | .notStarted cog task e => [("cog", cog), ("task", task.display), ("error", e.message)]
  | .queueNotStarted cog e => [("cog", cog), ("error", e.message)]
  | .listenerFailed cog k e => [("cog", cog), ("event", eventName k), ("error", e.message)]
  | .listenerPanicked cog k => [("cog", cog), ("event", eventName k)]
  | .stillLive live timeout =>
    [("live", toString live), ("timeout_ms", toString (timeout / 1000000 % Word.size))]

end Report

/-- The report that a listener's answer asks for, if any. -/
def Listener.trouble (cog : String) (l : Listener) (n : Notice) : List Report :=
  match l.answer n with
  | .ok () => []
  | .error e => [.listenerFailed cog n.kind e]
  | .panic _ => [.listenerPanicked cog n.kind]

end ObjectGroups
