/-
The variables of a process, as entries `NAME=value`.

A variable is looked up by what its entry begins with, so a name may go on
behind the first equals sign of an entry.
-/
import ObjectGroups.Text.Scan

namespace ObjectGroups

structure Environment where
  entries : List String := []

namespace Environment

open Text

/-- The value of a variable. Nothing has an empty name. -/
def get? (env : Environment) (name : String) : Option String :=
  if name.isEmpty then none
  else env.entries.findSome? fun e =>
    ((Scan.word (name ++ "=")).run e.toList).map fun r => String.ofList r.2

def add (env : Environment) (name value : String) : Environment where
  entries := env.entries ++ [name ++ "=" ++ value]

/-- No entry can hold the character zero. -/
def holds (value : String) : Bool := !value.toList.contains '\x00'

end Environment

end ObjectGroups
