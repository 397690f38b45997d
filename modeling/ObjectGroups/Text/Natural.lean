/-
A number of 64 bits in decimal: digits, and a plus in front if one likes.
Nothing else may stand around it.
-/
import ObjectGroups.Text.Digits
import ObjectGroups.Word

namespace ObjectGroups.Text

/-- The digits of a number without its sign. -/
def unsigned : List Char → List Char
  | '+' :: ds => ds
  | ds => ds

def natural? (s : String) : Option Nat :=
  match unsigned s.toList with
  | [] => none
  | ds => (ofDigits? 10 ds).filter fun n => n < Word.size

end ObjectGroups.Text
