/-
Names of the things the runtime hands out. Tasks, contexts and futures are
numbered in the order in which they come into being; a number is never used
twice.
-/
import ObjectGroups.Text.Quoted

namespace ObjectGroups

/-- One method activation. -/
structure TaskId where
  val : Nat
deriving DecidableEq, Repr

/-- One execution context. -/
structure ContextId where
  val : Nat
deriving DecidableEq, Repr

/-- One write-once value. -/
structure FutureId where
  val : Nat
deriving DecidableEq, Repr

/-- One concurrent object group. -/
structure CogId where
  val : Nat
deriving DecidableEq, Repr

namespace TaskId

def next (t : TaskId) : TaskId := ⟨t.val + 1⟩

def display (t : TaskId) : String := "task-" ++ toString t.val

def text (t : TaskId) : String := Text.wrapped "TaskId" (toString t.val)

end TaskId

namespace ContextId

def next (c : ContextId) : ContextId := ⟨c.val + 1⟩

def display (c : ContextId) : String := "ctx-" ++ toString c.val

def text (c : ContextId) : String := Text.wrapped "ContextId" (toString c.val)

end ContextId

namespace CogId

/-- A cog's identity shows as a text of its own, which the runtime gives it. -/
def text (uuid : String) : String := Text.wrapped "CogId" uuid

/-- The description of a cog by its identity and name. -/
def describe (uuid name : String) : String :=
  Text.fields "Cog" [("id", text uuid), ("name", Text.quoted name)]

end CogId

end ObjectGroups
