/-
What can go wrong, one type a place where it goes wrong. `message` is the
text for a reader, `text` the description of the value.
-/
import ObjectGroups.Text.Quoted

namespace ObjectGroups

open Text

/-- While a guard is evaluated or waited for. -/
inductive GuardError where
  | evaluation (m : String)
  | interrupted
deriving DecidableEq, Repr

/-- Returned by a task's body, or handed to it by an await that failed. -/
inductive TaskError where
  | failed (m : String)
  | guard (e : GuardError)
  /-- The task is cancelled, and its context no longer holds the active slot. -/
  | interrupted
  | notActive
  | panicked (m : String)
deriving DecidableEq, Repr

/-- While a configuration is loaded or checked. -/
inductive ConfigError where
  | io (m : String)
  | parse
  | invalid (m : String)
deriving DecidableEq, Repr

/-- Returned by the entry points of the runtime. -/
inductive RuntimeError where
  /-- The system refused a thread. -/
  | spawn (cause : String)
  | shutDown
  | config (e : ConfigError)
deriving DecidableEq, Repr

/-- A listener refused a notice. -/
inductive ObserverError where
  | listener (m : String)
deriving DecidableEq, Repr

namespace GuardError

def message : GuardError → String
  | .evaluation m => "guard evaluation failed: " ++ m
  | .interrupted => "wait interrupted"

def text : GuardError → String
  | .evaluation m => wrapped "Evaluation" (quoted m)
  | .interrupted => "Interrupted"

end GuardError

namespace TaskError

def message : TaskError → String
  | .failed m => "task failed: " ++ m
  | .guard e => e.message
  | .interrupted => "task interrupted"
  | .notActive => "execution context does not hold the active slot"
  | .panicked m => "task panicked: " ++ m

def text : TaskError → String
  | .failed m => wrapped "Failed" (quoted m)
  | .guard e => wrapped "Guard" e.text
  | .interrupted => "Interrupted"
  | .notActive => "NotActive"
  | .panicked m => wrapped "Panicked" (quoted m)

/-- An interrupted wait cancels the task; any other failure of a guard is passed on as such. -/
def ofGuard : GuardError → TaskError
  | .interrupted => .interrupted
  | e => .guard e

end TaskError

namespace ConfigError

/-- What the reader of a document says when it cannot read it. -/
def syntaxText : String := "TOML parse error"

def message : ConfigError → String
  | .io m => "config I/O error: " ++ m
  | .parse => "config parse error: " ++ syntaxText
  | .invalid m => "invalid config: " ++ m

/-- The error with what lies behind it, outermost first. -/
def chain : ConfigError → List String
  | .io m => [(io m).message, m]
  | .parse => [parse.message, syntaxText]
  | .invalid m => [(invalid m).message]

end ConfigError

namespace RuntimeError

def message : RuntimeError → String
  | .spawn cause => "failed to spawn execution context: " ++ cause
  | .shutDown => "runtime is shut down"
  | .config e => e.message

/-- The error with what lies behind it, outermost first. -/
def chain : RuntimeError → List String
  | .spawn cause => [(spawn cause).message, cause]
  | .shutDown => [shutDown.message]
  | .config e => e.chain

end RuntimeError

namespace ObserverError

def message : ObserverError → String
  | .listener m => "listener failed: " ++ m

def text : ObserverError → String
  | .listener m => wrapped "Listener" (quoted m)

end ObserverError

end ObjectGroups
