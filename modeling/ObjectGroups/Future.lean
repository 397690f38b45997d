/-
Write-once values and who waits for them.

The first `resolve` fixes the value and takes the list of waiters, to be woken
one by one; a later one hands its value back. A subscription drops the waiters
that are gone and adds its own unless it is there already; once the value is
fixed there is nothing left to wait for, and it adds nothing.
-/
import ObjectGroups.Id

namespace ObjectGroups

/-- A parker: that of an execution context, or one that belongs to nobody. -/
inductive ParkerId where
  | own (c : ContextId)
  | loose (n : Nat)
deriving DecidableEq, Repr

/-- What can be woken when something outside has changed. -/
inductive Waker where
  | parker (p : ParkerId)
  | scheduler (c : CogId)
  | counter (n : Nat)
deriving DecidableEq, Repr

structure Future (V : Type) where
  value : Option V := none
  waiters : List Waker := []

namespace Future

variable {V : Type}

def resolved (f : Future V) : Bool := f.value.isSome

/-- The waiters to wake and the future with its value, or nothing if it has one already. -/
def resolve (f : Future V) (v : V) : Option (List Waker × Future V) :=
  match f.value with
  | some _ => none
  | none => some (f.waiters, { value := some v, waiters := [] })

/-- `alive` tells which wakers still exist. -/
def subscribe (f : Future V) (alive : Waker → Bool) (w : Waker) : Future V :=
  if f.resolved then f
  else
    let kept := f.waiters.filter alive
    { f with waiters := if kept.contains w then kept else kept ++ [w] }

def text (f : Future V) : String := Text.fields "Fut" [("resolved", toString f.resolved)]

end Future

end ObjectGroups
