/-
Programs that run on the threads of the runtime: bodies of tasks and of
contexts, and callers from outside.

A body is a tree of what it does next. It may work on the state of its cog
while it holds the active slot, on memory of its own beside all cogs, wait
for that memory, await a guard, submit a task, start a context, or make one of
the requests below; it ends with a value, an error or a panic. `S` is the
state of a cog, `A` the memory beside the cogs, `V` the values of futures and
calls.
-/
import ObjectGroups.Guard
import ObjectGroups.Task

namespace ObjectGroups

/-- The task whose body a thread runs, and whether it holds the active slot of the task's cog. -/
structure Seat where
  task : TaskId
  active : Bool
deriving DecidableEq, Repr

/-- Where a body runs. -/
structure Place where
  context : Option ContextId
  cog : Option CogId
  /-- The name of that cog. -/
  cogName : String
  seat : Option Seat
deriving DecidableEq, Repr

/-- The result of an asynchronous call. -/
abbrev Settled (V : Type) := Except TaskError V

/-- What a body asks of the runtime besides awaiting, submitting and starting contexts. -/
inductive Request (S V : Type) where
  | place
  | now
  /-- Moves the clock. -/
  | advance (d : Span)
  | newFuture
  | peek (f : FutureId)
  /-- Hands the value back if the future has one already. -/
  | resolve (f : FutureId) (v : Settled V)
  /-- Whether the context was live. -/
  | interrupt (c : ContextId)
  /-- The same through a handle, which outlives the context. -/
  | cancel (c : ContextId)
  | interruptParker (p : ParkerId)
  | wake (w : Waker)
  | shutdown
  /-- Whether shutdown has been requested, as the contexts see it. -/
  | isShutdown
  | isInterrupted (p : ParkerId)
  /-- The unfinished tasks of a cog, in order of submission. -/
  | tasks (c : CogId)
  | evaluate (c : CogId) (g : Guard S)
  /-- Waits for a guard without a task. -/
  | wait (c : CogId) (g : Guard S) (p : ParkerId)
  | park (p : ParkerId) (deadline : Option Instant)
  /-- Waits until no context is live. -/
  | awaitIdle (d : Span)
  /-- The same, and reports contexts that are live after all that time. -/
  | awaitTermination (d : Span)
  /-- Waits until a task of the cog has finished. -/
  | awaitTask (c : CogId) (t : TaskId) (d : Span)

/-- What each request is answered with. -/
abbrev Request.Reply {S V : Type} : Request S V → Type
  | .place => Place
  | .now => Instant
  | .advance _ => Unit
  | .newFuture => FutureId
  | .peek _ => Option (Settled V)
  | .resolve _ _ => Option (Settled V)
  | .interrupt _ => Bool
  | .cancel _ => Unit
  | .interruptParker _ => Unit
  | .wake _ => Unit
  | .shutdown => Unit
  | .isShutdown => Bool
  | .isInterrupted _ => Bool
  | .tasks _ => List TaskView
  | .evaluate _ _ => Answer
  | .wait _ _ _ => Answer
  | .park _ _ => Except GuardError Unit
  | .awaitIdle _ => Bool
  | .awaitTermination _ => Bool
  | .awaitTask _ _ _ => Bool

inductive Body (S A V : Type) where
  | exit (r : Exit TaskError V)
  /-- Works on the state of the cog; refused without the active slot. -/
  | access (change : S → S) (next : S → Body S A V) (refused : Body S A V)
  /-- Works on the memory beside the cogs. `next` sees what it was before. -/
  | memory (change : A → A) (next : A → Body S A V)
  /-- Waits until the memory beside the cogs allows it to go on. -/
  | block (ready : A → Bool) (next : Body S A V)
  | await (g : Guard S) (next : Exit TaskError Unit → Body S A V)
  | submit (cog : CogId) (name : String) (task : Body S A V)
      (next : Exit RuntimeError TaskId → Body S A V)
  /-- Starts a context that runs `main` and hosts no tasks. -/
  | start (label : String) (waker : Waker) (main : Body S A V)
      (next : Exit RuntimeError ContextId → Body S A V)
  | request (r : Request S V) (next : r.Reply → Body S A V)

namespace Body

variable {S A V : Type}

/-- Runs `b` and goes on with how it ended. -/
def attempt (b : Body S A V) (after : Exit TaskError V → Body S A V) : Body S A V :=
  match b with
  | .exit r => after r
  | .access change next refused =>
    .access change (fun s => (next s).attempt after) (refused.attempt after)
  | .memory change next => .memory change fun a => (next a).attempt after
  | .block ready next => .block ready (next.attempt after)
  | .await g next => .await g fun r => (next r).attempt after
  | .submit cog name task next => .submit cog name task fun r => (next r).attempt after
  | .start label waker main next => .start label waker main fun r => (next r).attempt after
  | .request r next => .request r fun x => (next x).attempt after

/-- What a call settles its future with: a panic counts as an error. -/
def settled : Exit TaskError V → Settled V
  | .ok v => .ok v
  | .error e => .error e
  | .panic p => .error (.panicked p.message)

/-- How a call's task ends once its future is settled. -/
def status : Settled V → Exit TaskError V
  | .ok v => .ok v
  | .error e => .error e

/-- The body of a call's task: runs `b` and settles `f` with its result. -/
def calling (f : FutureId) (b : Body S A V) : Body S A V :=
  b.attempt fun r => .request (.resolve f (settled r)) fun _ => .exit (status (settled r))

/-- An asynchronous call: a task that settles a new future. -/
def call (cog : CogId) (name : String) (b : Body S A V)
    (next : Exit RuntimeError (TaskId × FutureId) → Body S A V) : Body S A V :=
  .request .newFuture fun f =>
    .submit cog name (calling f b) fun r => next (r.map fun t => (t, f))

end Body

end ObjectGroups
