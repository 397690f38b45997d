/-
JSON values and how they are written.

A number with neither fraction nor exponent is an integer, of any size; every
other number, and minus zero, is kept as its text. An object keeps its members
in order and may name one twice. A string with half of a surrogate pair is no
text, and `unpaired` stands for it, and for an object with such a name in it.
-/
import ObjectGroups.Table
import ObjectGroups.Text.Digits

namespace ObjectGroups

inductive Json where
  | null
  | bool (b : Bool)
  | int (n : Int)
  | real (text : String)
  | str (s : String)
  | unpaired
  | arr (xs : List Json)
  | obj (ms : List (String × Json))

namespace Json

/-- An object whose members stand in the order of their names. -/
def object (ms : List (String × Json)) : Json := .obj (Table.byName ms)

def escaped (c : Char) : String :=
  if c = '"' then "\\\""
  else if c = '\\' then "\\\\"
  else if c = '\n' then "\\n"
  else if c = '\r' then "\\r"
  else if c = '\t' then "\\t"
  else if c = '\x08' then "\\b"
  else if c = '\x0c' then "\\f"
  else if c.toNat < 32 then "\\u" ++ Text.paddedHex 4 c.toNat
  else c.toString

def quote (s : String) : String := "\"" ++ String.join (s.toList.map escaped) ++ "\""

/-- `open_`, the parts between commas and `close`, on lines of their own if `indent` says how deep. -/
def enclosed (indent : Option Nat) (open_ close : String) (parts : List String) : String :=
  match indent with
  | none => open_ ++ String.intercalate "," parts ++ close
  | some n =>
    if parts.isEmpty then open_ ++ close
    else
      let pad (k : Nat) := "\n" ++ String.ofList (List.replicate (2 * k) ' ')
      open_ ++ String.intercalate "," (parts.map fun p => pad (n + 1) ++ p) ++ pad n ++ close

mutual

/-- The text of a value: on one line, or indented from depth `n` on if `indent` is `some n`. -/
def write (indent : Option Nat) : Json → String
  | .null => "null"
  | .bool b => toString b
  | .int n => toString n
  | .real text => text
  | .str s => quote s
  | .unpaired => quote ""
  | .arr xs => enclosed indent "[" "]" (writeAll (indent.map (· + 1)) xs)
  | .obj ms => enclosed indent "\x7b" "\x7d" (writeMembers (indent.map (· + 1)) ms)

def writeAll (indent : Option Nat) : List Json → List String
  | [] => []
  | x :: xs => write indent x :: writeAll indent xs

def writeMembers (indent : Option Nat) : List (String × Json) → List String
  | [] => []
  | (k, x) :: ms =>
    (quote k ++ (if indent.isSome then ": " else ":") ++ write indent x) :: writeMembers indent ms

end

def compact (j : Json) : String := j.write none

def pretty (j : Json) : String := j.write (some 0)

/-- The member of that name, if the value is an object that has one. -/
def member? (j : Json) (name : String) : Option Json :=
  match j with
  | .obj ms => (ms.find? fun m => m.1 = name).map (·.2)
  | _ => none

end Json

end ObjectGroups
