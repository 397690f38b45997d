/-
What scripts share beside the cogs: futures, cogs, guards, contexts and gates
by name, the trace of their steps, and the turn-taking.

A body waits before each step until it is granted one step. `waiting` holds
the tasks that wait so, with the gate that the step waits at; `grant` is the
task that may go on.
-/
import ObjectGroups.Registry
import ObjectGroups.Snapshot
import ObjectGroups.Script.Expr

namespace ObjectGroups.Script

/-- What a step or a call from outside came to. -/
inductive Reading where
  | done
  | started
  | opened
  | error (m : String)
  | panic (m : String)
  | refused (e : RuntimeError)
  | flag (b : Bool)
  | int (n : Int)
  | text (s : String)
  | texts (xs : List String)
  | task (t : TaskId)
  /-- A value that a future did not take. -/
  | rejected (n : Int)
  | standing (t : TaskId) (c : ContextId) (active : Bool) (cog : String)
  | instant (t : Option Instant)
  | flags (bs : List Bool)
  | timer (deadline : Option Instant) (requested : Span) (label : String)
  /-- A future settled twice: whether the first took, what the second handed back, and the value. -/
  | settledTwice (took : Bool) (back value : Option String)
  | config (namePrefix : String) (stackSize : Option Nat)
  | context (c : ContextId) (x : Context)
  /-- The end of a context: whether it was interrupted, and whether it saw a shutdown. -/
  | ending (said : String) (c : ContextId) (interrupted shutdown : Bool)
  | snapshot (s : Snapshot)
  | cog (c : CogId) (name : String)
  | absent

namespace Reading

def ofSubmission : Exit RuntimeError TaskId → Reading
  | .ok t => .task t
  | .error e => .refused e
  | .panic p => .panic p.message

def ofAnswer : Answer → Reading
  | .ok b => .flag b
  | .error e => .error e.message
  | .panic p => .panic p.message

def ofPark : Except GuardError Unit → Reading
  | .ok () => .done
  | .error e => .error e.message

/-- What guard code that has no errors of its own came to. -/
def ofCall {α : Type} (f : α → Reading) : Except Payload α → Reading
  | .ok a => f a
  | .error p => .panic p.message

end Reading

structure TraceEntry where
  task : TaskId
  step : String
  reading : Reading

structure Bench where
  futures : Table String FutureId := []
  /-- Cogs that scripts can name. -/
  cogs : Table String CogId := []
  opened : List String := []
  guards : Table String (Guard Store) := []
  /-- Contexts that scripts can name. -/
  contexts : Table String ContextId := []
  waiting : Table TaskId (Option String) := []
  grant : Option TaskId := none
  trace : List TraceEntry := []
  /-- Results of calls that block, by the name of the call. -/
  ended : Table String Reading := []
  /-- Values that the bodies of calls return. -/
  values : Table TaskId Int := []
  /-- Tasks whose submission was accepted, with their cogs and names. -/
  accepted : Table TaskId (CogId × String) := []
  /-- Result of the call from outside. -/
  result : Option Reading := none

namespace Bench

def isOpen (b : Bench) (gate : String) : Bool := b.opened.contains gate

def openGate (b : Bench) (gate : String) : Bench :=
  { b with opened := if b.isOpen gate then b.opened else b.opened ++ [gate] }

/-- The task to be granted the next step: of those whose gate is open, the one with the lowest number. -/
def next (b : Bench) : Option TaskId :=
  let able := b.waiting.filter fun e => match e.2 with
    | none => true
    | some gate => b.isOpen gate
  (able.map (·.1)).foldl (fun best t => match best with
    | none => some t
    | some u => some (if t.val < u.val then t else u)) none

def future (b : Bench) (name : String) : FutureId := (b.futures.get? name).getD ⟨0⟩

end Bench

end ObjectGroups.Script
