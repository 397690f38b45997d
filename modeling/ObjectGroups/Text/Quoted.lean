/-
Text between double quotes, as descriptions of values show it: a quote, a
backslash and the common controls by a backslash and a letter, any other
invisible character by its number.
-/
import ObjectGroups.Text.Digits
import ObjectGroups.Text.Invisible

namespace ObjectGroups.Text

def quotedChar (c : Char) : String :=
  if c = '\x00' then "\\0"
  else if c = '\t' then "\\t"
  else if c = '\r' then "\\r"
  else if c = '\n' then "\\n"
  else if c = '\\' then "\\\\"
  else if c = '"' then "\\\""
  else if invisible c then "\\u\x7b" ++ hex c.toNat ++ "\x7d"
  else c.toString

def quoted (s : String) : String :=
  "\"" ++ String.join (s.toList.map quotedChar) ++ "\""

/-- A value with named fields, such as `Point \x7b x: 1, y: 2 \x7d`. -/
def fields (name : String) (fs : List (String × String)) : String :=
  name ++ " \x7b " ++ String.intercalate ", " (fs.map fun f => f.1 ++ ": " ++ f.2) ++ " \x7d"

/-- A value around one other, such as `Box(1)`. -/
def wrapped (name inner : String) : String := name ++ "(" ++ inner ++ ")"

end ObjectGroups.Text
