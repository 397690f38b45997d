/-
Reading JSON.

The grammar is that of the standard: four blanks, numbers without zeros in
front, strings without control characters. Each function takes what is left of
the text and gives what it leaves; `fuel` bounds the depth of the calls by the
length of the text, and every call reads at least one character.
-/
import ObjectGroups.Json

namespace ObjectGroups.Json

def isBlank (c : Char) : Bool := c = ' ' || c = '\n' || c = '\t' || c = '\r'

def skip (cs : List Char) : List Char := cs.dropWhile isBlank

/-- The rest after the given characters, if the text begins with them. -/
def after? (word cs : List Char) : Option (List Char) :=
  match word, cs with
  | [], cs => some cs
  | _, [] => none
  | w :: word, c :: cs => if w = c then after? word cs else none

/-- Four hexadecimal digits. -/
def unit? : List Char → Option (Nat × List Char)
  | a :: b :: c :: d :: cs => (Text.ofDigits? 16 [a, b, c, d]).map fun u => (u, cs)
  | _ => none

def isHigh (u : Nat) : Bool := 0xD800 ≤ u && u ≤ 0xDBFF

def isLow (u : Nat) : Bool := 0xDC00 ≤ u && u ≤ 0xDFFF

/-- What stands for itself after a backslash. -/
def plainEscape? : Char → Option Char
  | '"' => some '"'
  | '\\' => some '\\'
  | '/' => some '/'
  | 'b' => some '\x08'
  | 'f' => some '\x0c'
  | 'n' => some '\n'
  | 'r' => some '\r'
  | 't' => some '\t'
  | _ => none

/-- The rest of a string after its opening quote: its text, or `none` for the
text if a surrogate in it has no partner. `done` are the characters so far, last first. -/
def chars (fuel : Nat) (paired : Bool) (done : List Char) (cs : List Char) :
    Option (Option String × List Char) :=
  match fuel with
  | 0 => none
  | fuel + 1 => match cs with
    | [] => none
    | '"' :: cs => some (if paired then some (String.ofList done.reverse) else none, cs)
    | '\\' :: 'u' :: cs => do
      let (u, cs) ← unit? cs
      if isHigh u then
        match cs with
        | '\\' :: 'u' :: ds => do
          let (v, ds) ← unit? ds
          if isLow v then
            chars fuel paired
              (Char.ofNat (0x10000 + (u - 0xD800) * 0x400 + (v - 0xDC00)) :: done) ds
          else chars fuel false done cs
        | _ => chars fuel false done cs
      else if isLow u then chars fuel false done cs
      else chars fuel paired (Char.ofNat u :: done) cs
    | '\\' :: c :: cs => do
      let c ← plainEscape? c
      chars fuel paired (c :: done) cs
    | c :: cs => if c.toNat < 32 then none else chars fuel paired (c :: done) cs

def string (cs : List Char) : Option (Option String × List Char) := chars (cs.length + 1) true [] cs

def digits (cs : List Char) : List Char × List Char :=
  (cs.takeWhile Char.isDigit, cs.dropWhile Char.isDigit)

/-- The fraction of a number, if there is one. -/
def fraction (cs : List Char) : Option (List Char × List Char) :=
  match cs with
  | '.' :: cs => match digits cs with
    | ([], _) => none
    | (ds, rest) => some ('.' :: ds, rest)
  | _ => some ([], cs)

/-- The exponent of a number, if there is one. -/
def exponent (cs : List Char) : Option (List Char × List Char) :=
  match cs with
  | e :: cs' =>
    if e = 'e' || e = 'E' then
      let (sign, cs') := match cs' with
        | '+' :: r => (['+'], r)
        | '-' :: r => (['-'], r)
        | r => ([], r)
      match digits cs' with
      | ([], _) => none
      | (ds, rest) => some (e :: sign ++ ds, rest)
    else some ([], cs)
  | [] => some ([], [])

def number (cs : List Char) : Option (Json × List Char) := do
  let (negative, cs) := match cs with
    | '-' :: r => (true, r)
    | r => (false, r)
  let (whole, cs) := match cs with
    | '0' :: r => (['0'], r)
    | r => digits r
  if whole.isEmpty then none
  else
    let (frac, cs) ← fraction cs
    let (expo, cs) ← exponent cs
    let n := (Text.ofDigits? 10 whole).getD 0
    if frac.isEmpty && expo.isEmpty && !(negative && n = 0) then
      some (.int (if negative then -(n : Int) else n), cs)
    else some (.real (String.ofList ((if negative then ['-'] else []) ++ whole ++ frac ++ expo)), cs)

mutual

def value (fuel : Nat) (cs : List Char) : Option (Json × List Char) :=
  match fuel with
  | 0 => none
  | fuel + 1 => match skip cs with
    | '[' :: cs => match skip cs with
      | ']' :: cs => some (.arr [], cs)
      | cs => elements fuel [] cs
    | '\x7b' :: cs => match skip cs with
      | '\x7d' :: cs => some (.obj [], cs)
      | cs => members fuel true [] cs
    | '"' :: cs => match string cs with
      | some (some s, cs) => some (.str s, cs)
      | some (none, cs) => some (.unpaired, cs)
      | none => none
    | 't' :: cs => (after? ['r', 'u', 'e'] cs).map fun cs => (.bool true, cs)
    | 'f' :: cs => (after? ['a', 'l', 's', 'e'] cs).map fun cs => (.bool false, cs)
    | 'n' :: cs => (after? ['u', 'l', 'l'] cs).map fun cs => (.null, cs)
    | cs => number cs

/-- The rest of an array; `done` are the elements so far, last first. -/
def elements (fuel : Nat) (done : List Json) (cs : List Char) : Option (Json × List Char) :=
  match fuel with
  | 0 => none
  | fuel + 1 => match value fuel cs with
    | none => none
    | some (x, cs) => match skip cs with
      | ',' :: cs => elements fuel (x :: done) cs
      | ']' :: cs => some (.arr (x :: done).reverse, cs)
      | _ => none

/-- The rest of an object; `done` are the members so far, last first, and
`paired` tells whether all their names are text. -/
def members (fuel : Nat) (paired : Bool) (done : List (String × Json)) (cs : List Char) :
    Option (Json × List Char) :=
  match fuel with
  | 0 => none
  | fuel + 1 => match skip cs with
    | '"' :: cs => match string cs with
      | some (k, cs) => match skip cs with
        | ':' :: cs => match value fuel cs with
          | none => none
          | some (x, cs) =>
            let paired := paired && k.isSome
            let done := (k.getD "", x) :: done
            match skip cs with
            | ',' :: cs => members fuel paired done cs
            | '\x7d' :: cs => some (if paired then .obj done.reverse else .unpaired, cs)
            | _ => none
        | _ => none
      | none => none
    | _ => none

end

/-- The value that the whole text is, if it is one. -/
def read? (s : String) : Option Json :=
  match value (2 * s.length + 2) s.toList with
  | some (x, rest) => if (skip rest).isEmpty then some x else none
  | none => none

end ObjectGroups.Json
