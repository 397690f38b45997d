/-
Reading text from the front: a scan takes what is left of a text and gives a
value and what it leaves, or nothing if the text does not begin as it should.
A scan that gives nothing has read nothing, so another may be tried with `<|>`.
-/
namespace ObjectGroups.Text

abbrev Scan (α : Type) : Type := StateT (List Char) Option α

namespace Scan

variable {α : Type}

/-- The value of a scan that reads the whole text. -/
def whole (x : Scan α) (s : String) : Option α :=
  match x.run s.toList with
  | some (a, []) => some a
  | _ => none

/-- Nothing is left. -/
def atEnd : Scan Unit
  | [] => some ((), [])
  | _ => none

/-- The next character, if it is one of those. -/
def one (p : Char → Bool) : Scan Char
  | [] => none
  | c :: cs => if p c then some (c, cs) else none

def char (c : Char) : Scan Unit := do
  let _ ← one (· = c)

/-- The given characters, one after the other. -/
def word (w : String) : Scan Unit := w.toList.forM char

/-- As many of those characters as there are. -/
def while_ (p : Char → Bool) : Scan (List Char) := fun cs => some (cs.takeWhile p, cs.dropWhile p)

/-- The next `n` characters. -/
def exactly (n : Nat) : Scan (List Char) := fun cs =>
  if n ≤ cs.length then some (cs.take n, cs.drop n) else none

/-- A scan that may fail without harm. -/
def optional (x : Scan α) : Scan (Option α) := (some <$> x) <|> pure none

def upTo (fuel : Nat) (x : Scan α) : Scan (List α) :=
  match fuel with
  | 0 => pure []
  | fuel + 1 => do
    match ← optional x with
    | none => pure []
    | some a => return a :: (← upTo fuel x)

/-- The scan over and over, until it fails. A scan that reads something each
time cannot succeed more often than there are characters. -/
def many (x : Scan α) : Scan (List α) := fun cs => upTo cs.length x cs

/-- One or more, with a separator between them. -/
def separated (x : Scan α) (separator : Scan Unit) : Scan (List α) := do
  let a ← x
  return a :: (← many (separator *> x))

/-- What a scan reads, as it is written. -/
def written (x : Scan α) : Scan String := fun cs => do
  let (_, rest) ← x cs
  some (String.ofList (cs.take (cs.length - rest.length)), rest)

end Scan

end ObjectGroups.Text
