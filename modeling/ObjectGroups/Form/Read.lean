/-
Values read back from their JSON forms.

A value that is one of a few names may also stand as an object with that name
as its only member, of value null.
-/
import ObjectGroups.Json
import ObjectGroups.Task
import ObjectGroups.Uuid
import ObjectGroups.Word

namespace ObjectGroups

namespace Json

/-- A name that stands for a value by itself. -/
def name? : Json → Option String
  | .str s => some s
  | .obj [(s, .null)] => some s
  | _ => none

/-- An integer of 64 bits without a sign. -/
def natural? : Json → Option Nat
  | .int n => if Word.unsigned n then some n.toNat else none
  | _ => none

end Json

def TaskState.ofForm? (j : Json) : Option TaskState := j.name?.bind ofName?

def TaskOutcome.ofForm? (j : Json) : Option TaskOutcome := j.name?.bind ofName?

def TaskId.ofForm? (j : Json) : Option TaskId := j.natural?.map (⟨·⟩)

def ContextId.ofForm? (j : Json) : Option ContextId := j.natural?.map (⟨·⟩)

def Uuid.ofForm? : Json → Option Uuid
  | .str s => ofString? s
  | _ => none

end ObjectGroups
