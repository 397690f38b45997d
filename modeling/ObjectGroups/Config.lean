/-
Configuration of a runtime: how its threads are named and sized, how long it
waits for them at the end, and what it logs.

Values come from three places, later ones winning: the defaults, a document,
and overrides by key. A number among the overrides that is none is passed
over. Only the result of all three is checked.
-/
import ObjectGroups.Error
import ObjectGroups.Text.Blank
import ObjectGroups.Text.Natural
import ObjectGroups.Time

namespace ObjectGroups

structure ThreadConfig where
  /-- What the names of threads begin with. -/
  namePrefix : String := "cog"
  /-- Bytes of stack for a thread, if not what the system gives. -/
  stackSize : Option Nat := none
  /-- How long to wait for contexts to retire. -/
  shutdownTimeoutMs : Nat := 5000
deriving DecidableEq, Repr

structure LoggingConfig where
  filter : String := "info"
deriving DecidableEq, Repr

structure RuntimeConfig where
  threads : ThreadConfig := {}
  logging : LoggingConfig := {}
deriving DecidableEq, Repr

def ThreadConfig.shutdownTimeout (t : ThreadConfig) : Span := .ofMillis t.shutdownTimeoutMs

namespace RuntimeConfig

/-- The smallest stack a context is given. -/
def minStackSize : Nat := 64 * 1024

def validate (c : RuntimeConfig) : Except ConfigError Unit :=
  if Text.blank c.threads.namePrefix then
    .error (.invalid "threads.name_prefix must not be empty")
  else match c.threads.stackSize with
    | some size =>
      if size < minStackSize then
        .error (.invalid ("threads.stack_size " ++ toString size ++ " is below the " ++
          toString minStackSize ++ " byte minimum"))
      else .ok ()
    | none => .ok ()

/-- The keys of the overrides. -/
def prefixKey : String := "COG_THREAD_PREFIX"

def stackKey : String := "COG_STACK_SIZE"

def timeoutKey : String := "COG_SHUTDOWN_TIMEOUT_MS"

def filterKey : String := "COG_LOG"

/-- Each field takes the value of its key, if there is one that it can take. -/
def override (c : RuntimeConfig) (lookup : String → Option String) : RuntimeConfig where
  threads :=
    { namePrefix := (lookup prefixKey).getD c.threads.namePrefix
      stackSize := ((lookup stackKey).bind Text.natural?).or c.threads.stackSize
      shutdownTimeoutMs :=
        ((lookup timeoutKey).bind Text.natural?).getD c.threads.shutdownTimeoutMs }
  logging := { filter := (lookup filterKey).getD c.logging.filter }

/-- An environment as a lookup: an empty value counts as none. -/
def environment (env : String → Option String) (key : String) : Option String :=
  (env key).filter fun v => !v.isEmpty

/-- The configuration with the environment's overrides, if it is valid. -/
def finish (c : RuntimeConfig) (env : String → Option String) : Except ConfigError RuntimeConfig :=
  let c := c.override (environment env)
  match c.validate with
  | .ok () => .ok c
  | .error e => .error e

/-- Defaults and the environment's overrides. -/
def ofEnvironment (env : String → Option String) : Except ConfigError RuntimeConfig :=
  finish {} env

end RuntimeConfig

end ObjectGroups
