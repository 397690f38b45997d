/-
How a computation ends: with a value, with an error it returns, or with a
panic that unwinds through its caller.
-/
namespace ObjectGroups

/-- What a panic carries. -/
inductive Payload where
  | text (s : String)
  | other
deriving DecidableEq, Repr

def Payload.message : Payload → String
  | .text s => s
  | .other => "non-string panic payload"

inductive Exit (ε α : Type) where
  | ok (a : α)
  | error (e : ε)
  | panic (p : Payload)
deriving DecidableEq, Repr

namespace Exit

variable {ε α β : Type}

def map (f : α → β) : Exit ε α → Exit ε β
  | .ok a => .ok (f a)
  | .error e => .error e
  | .panic p => .panic p

def bind (x : Exit ε α) (f : α → Exit ε β) : Exit ε β :=
  match x with
  | .ok a => f a
  | .error e => .error e
  | .panic p => .panic p

instance : Monad (Exit ε) where
  pure := .ok
  bind := Exit.bind

/-- The same end for a computation that has no errors of its own. -/
def ofExcept : Except Payload α → Exit ε α
  | .ok a => .ok a
  | .error p => .panic p

end Exit

end ObjectGroups
