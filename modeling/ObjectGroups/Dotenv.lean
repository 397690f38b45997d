/-
Files of environment variables.

A line sets a variable: a name, an equals sign and a value, with `export` in
front if one likes. A value may be quoted, and a quote that is open at the end
of a line goes on on the next. A value may name variables, which are looked up
in the environment as it is by then. A comment begins at a `#` with a blank
before it. Reading stops at the first line that is none of this; what stands
before it counts.

A variable that is set already keeps its value. For one that is not, a value
that the environment cannot hold is the end of everything.
-/
import ObjectGroups.Environment
import ObjectGroups.Text.Alphanumeric
import ObjectGroups.Text.Blank

namespace ObjectGroups

namespace Dotenv

open Text

/-! Lines. -/

/-- Whether a line may end here. -/
inductive Ink where
  | complete
  | blank
  | escape
  | weak
  | weakEscape
  | strong
  | strongEscape
deriving DecidableEq, Repr

def Ink.opened : Char → Ink
  | '\\' => .escape
  | '"' => .weak
  | '\'' => .strong
  | _ => .complete

def Ink.next (s : Ink) (c : Char) : Ink :=
  match s with
  | .complete => if isBlank c && c ≠ '\n' && c ≠ '\r' then .blank else .opened c
  | .blank => .opened c
  | .escape => .complete
  | .weak => if c = '\\' then .weakEscape else if c = '"' then .complete else .weak
  | .weakEscape => .weak
  | .strong => if c = '\\' then .strongEscape else if c = '\'' then .complete else .strong
  | .strongEscape => .strong

/-- Follows a line to its end, or to the comment in it: what stands before a comment. -/
def Ink.follow : Ink → List Char → Ink × Option (List Char)
  | s, [] => (s, none)
  | s, c :: cs =>
    if s = .blank && c = '#' then (s, some [])
    else
      let (s', cut) := (s.next c).follow cs
      (s', cut.map (c :: ·))

/-- The lines of a text, each with its end. -/
def physical : List Char → List (List Char)
  | [] => []
  | c :: cs =>
    if c = '\n' then [c] :: physical cs
    else match physical cs with
      | [] => [[c]]
      | l :: ls => (c :: l) :: ls

/-- A line without its end. -/
def unended (l : List Char) : List Char :=
  match l.reverse with
  | '\n' :: '\r' :: r => r.reverse
  | '\n' :: r => r.reverse
  | _ => l

/-- Joins lines that go on; the last is `none` if it should go on and does not.
`before` is what has been read of the present one. -/
def logical (before : List Char) (s : Ink) : List (List Char) → List (Option (List Char))
  | [] => if s = .complete then [] else [none]
  | l :: ls =>
    let whole := before ++ l
    if (whole.dropWhile isBlank).head? = some '#' then some [] :: logical [] .complete ls
    else match s.follow l with
      | (_, some cut) => some (before ++ cut) :: logical [] .complete ls
      | (.complete, none) => some (unended whole) :: logical [] .complete ls
      | (s', none) => logical whole s' ls

/-! Values. -/

inductive Mode where
  | plain
  /-- Between double quotes. -/
  | weak
  /-- Between single quotes. -/
  | strong
  | escape (weak : Bool)
  /-- In the name of a variable, possibly between braces. -/
  | name (weak braced : Bool) (cs : List Char)
  /-- Only a comment may follow. -/
  | ending
deriving DecidableEq, Repr

def Mode.of (weak : Bool) : Mode := if weak then .weak else .plain

/-- The value of a variable, empty if it is not set. -/
def expand (env : Environment) (name : List Char) : List Char :=
  ((env.get? (String.ofList name)).getD "").toList

def escaped? : Char → Option Char
  | 'n' => some '\n'
  | c => if ['\\', '\'', '"', '$', ' '].contains c then some c else none

/-- The value that the characters stand for. A name ends before the first
character that can be in none, which stands for itself whatever it is. -/
def value (env : Environment) : Mode → List Char → Option (List Char)
  | .plain, [] => some []
  | .escape false, [] => some []
  | .ending, [] => some []
  | .name false false n, [] => some (expand env n)
  | _, [] => none
  | .ending, c :: cs =>
    if c = ' ' || c = '\t' then value env .ending cs else if c = '#' then some [] else none
  | .escape weak, c :: cs => match escaped? c with
    | some d => (value env (.of weak) cs).map (d :: ·)
    | none => none
  | .strong, c :: cs =>
    if c = '\'' then value env .plain cs else (value env .strong cs).map (c :: ·)
  | .name weak braced n, c :: cs =>
    if isAlphanumeric c then value env (.name weak braced (n ++ [c])) cs
    else if braced then
      if c = '\x7d' then (value env (.of weak) cs).map (expand env n ++ ·)
      else value env (.name weak true (n ++ [c])) cs
    else if c = '\x7b' && n.isEmpty then value env (.name weak true []) cs
    else if c = '$' then (value env (.name weak false []) cs).map (expand env n ++ ·)
    else (value env (.of weak) cs).map fun r => expand env n ++ c :: r
  | .weak, c :: cs =>
    if c = '$' then value env (.name true false []) cs
    else if c = '"' then value env .plain cs
    else if c = '\\' then value env (.escape true) cs
    else (value env .weak cs).map (c :: ·)
  | .plain, c :: cs =>
    if c = '$' then value env (.name false false []) cs
    else if c = '\'' then value env .strong cs
    else if c = '"' then value env .weak cs
    else if c = '\\' then value env (.escape false) cs
    else if c = ' ' || c = '\t' then value env .ending cs
    else (value env .plain cs).map (c :: ·)

/-! Assignments. -/

def skip (cs : List Char) : List Char := cs.dropWhile isBlank

def isLetter (c : Char) : Bool := c.isAlpha || c = '_'

def isNamePart (c : Char) : Bool := c.isAlphanum || c = '_' || c = '.'

/-- A name and what stands behind it and the blanks after it. -/
def name? (cs : List Char) : Option (List Char × List Char) :=
  match cs with
  | c :: _ => if isLetter c then some (cs.takeWhile isNamePart, skip (cs.dropWhile isNamePart)) else none
  | [] => none

def equals? : List Char → Option (List Char)
  | '=' :: cs => some cs
  | _ => none

/-- The name that is set, and what stands behind the equals sign. -/
def target? (cs : List Char) : Option (List Char × List Char) :=
  match name? cs with
  | none => none
  | some (n, rest) => match equals? rest with
    | some rest => some (n, rest)
    | none =>
      if n = "export".toList then
        match name? rest with
        | some (n, rest) => (equals? rest).map fun rest => (n, rest)
        | none => none
      else none

/-- What a line sets: nothing, a variable, or, if the line is none, `none`. -/
def assignment (env : Environment) (line : List Char) : Option (Option (String × String)) :=
  let cs := skip (line.reverse.dropWhile isBlank).reverse
  if cs.isEmpty || cs.head? = some '#' then some none
  else match target? cs with
    | none => none
    | some (n, rest) =>
      let rest := skip rest
      let v := if rest.isEmpty || rest.head? = some '#' then some [] else value env .plain rest
      v.map fun v => some (String.ofList n, String.ofList v)

/-- Sets what the lines set, up to the first that is none. Nothing comes of
setting a variable to what the environment cannot hold. -/
def apply (env : Environment) : List (Option (List Char)) → Option Environment
  | [] => some env
  | none :: _ => some env
  | some line :: rest => match assignment env line with
    | none => some env
    | some none => apply env rest
    | some (some (k, v)) =>
      if (env.get? k).isSome then apply env rest
      else if Environment.holds v then apply (env.add k v) rest
      else none

/-- The environment with the variables of a file. -/
def load (env : Environment) (text : String) : Option Environment :=
  let cs := match text.toList with
    | '\ufeff' :: cs => cs
    | cs => cs
  apply env (logical [] .complete (physical cs))

/-! Names that a file asks for. -/

/-- What stands between braces behind a dollar sign. -/
def braced : List Char → List String
  | [] => []
  | c :: cs =>
    let more := braced cs
    match c, cs with
    | '$', '\x7b' :: cs => String.ofList (cs.takeWhile (· ≠ '\x7d')) :: more
    | _, _ => more

/-- Everything in a text that could be the name of a variable. -/
def words (text : String) : List String :=
  let runs (p : Char → Bool) := (text.toList.splitBy fun a b => p a = p b).map String.ofList
  (runs isNamePart ++ runs isAlphanumeric ++ braced text.toList).eraseDups

end Dotenv

end ObjectGroups
