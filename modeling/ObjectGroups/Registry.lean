/-
Which execution contexts are live, and whether new ones are let in.

A context is entered before its thread starts and struck off when the thread
ends or could not be started; its number is never used again. Shutdown closes
the registry for good. `admits` tells whether the system grants a thread to a
context.
-/
import ObjectGroups.Exit
import ObjectGroups.Future
import ObjectGroups.Word

namespace ObjectGroups

/-- Bytes that the system does not give at once. -/
def memoryLimit : Nat := 32 * 1024 * 1024 * 1024

structure Registry where
  namePrefix : String
  stackSize : Option Nat := none
  admits : ContextId → Bool
  shutdown : Bool := false
  live : List ContextId := []
  started : Nat := 0
  nextContext : ContextId := ⟨1⟩
  /-- Whether somebody besides the contexts holds the registry. -/
  held : Bool := true

/-- What is known of a context: its name, what to wake when it is interrupted,
and the cog whose tasks it hosts, if it hosts any. -/
structure Context where
  name : String
  waker : Waker
  cog : Option CogId
deriving DecidableEq, Repr

/-- The description of a context. -/
def Context.text (c : ContextId) (x : Context) : String :=
  Text.fields "ContextHandle" [("id", c.text), ("name", Text.quoted x.name)]

namespace Registry

def stackFits : Option Nat → Bool
  | none => true
  | some n => n < memoryLimit

/-- Bytes in front of a stack that stay unused. -/
def guardSize : Nat := 4096

/-- Whether a stack with its guard goes beyond the end of all addresses. -/
def stackWraps : Option Nat → Bool
  | none => false
  | some n => Word.size ≤ n + guardSize

/-- The registry of a runtime whose threads have stacks of the given size. -/
def create (namePrefix : String) (stackSize : Option Nat) : Registry :=
  { namePrefix, stackSize, admits := fun _ => stackFits stackSize }

def contextName (r : Registry) (label : String) (c : ContextId) : String :=
  r.namePrefix ++ "-" ++ label ++ "-" ++ toString c.val

/-- A thread name ends at the character zero, so it cannot hold one. -/
def nameable (name : String) : Bool := !name.toList.contains '\x00'

def allocate (r : Registry) : ContextId × Registry :=
  (r.nextContext, { r with nextContext := r.nextContext.next })

def enter (r : Registry) (c : ContextId) : Registry := { r with live := r.live ++ [c] }

def strike (r : Registry) (c : ContextId) : Registry := { r with live := r.live.filter (· ≠ c) }

def countStarted (r : Registry) : Registry := { r with started := r.started + 1 }

/-- The live contexts in the order of their numbers. -/
def liveIds (r : Registry) : List ContextId := r.live.mergeSort fun a b => a.val ≤ b.val

/-- Shutdown as a context sees it: a registry that nobody holds counts as shut down. -/
def closed (r : Registry) : Bool := r.shutdown || (!r.held && r.live.isEmpty)

/-- Why a context cannot be started although the registry is open. -/
def refusal (r : Registry) : String :=
  if stackWraps r.stackSize then "Invalid argument (os error 22)"
  else "Resource temporarily unavailable (os error 11)"

/-- What the panic over a name that is none says. -/
def namePanic : Payload := .text "thread name"

end Registry

end ObjectGroups
