/-
Reading TOML documents. A document is read line by line, a line being a
header, an entry or blank; the lines then make up the sections of which the
document is built.

Lists and inline tables stand within each other up to a depth, and a key has
up to a number of parts.
-/
import ObjectGroups.Toml.Scalar

namespace ObjectGroups.Toml.Grammar

open Text

/-- How deep values may stand within each other, and how many parts a key may have. -/
def depthLimit : Nat := 79

def isBare (c : Char) : Bool := c.isAlphanum || c = '-' || c = '_'

def bareName : Scan String := do
  let c ← Scan.one isBare
  return String.ofList (c :: (← Scan.while_ isBare))

/-- A key of one or more names with points between them. -/
def key : Scan (List String × String) := do
  let names ← Scan.separated (do spaces; let k ← basic <|> literal <|> bareName; spaces; pure k)
    (Scan.char '.')
  match names.getLast? with
  | some last => if names.length ≤ depthLimit then pure (names.dropLast, last) else failure
  | none => failure

/-- A key and its value. -/
def entry (value : Scan Toml) : Scan Entry := do
  let (path, k) ← key
  Scan.char '='
  spaces
  return { path, key := k, value := ← value }

/-- Elements between brackets; the last may be followed by a comma. -/
def list (value : Scan Toml) : Scan Toml := do
  Scan.char '['
  let xs ← Scan.optional (Scan.separated (gap *> value <* gap) (Scan.char ','))
  if xs.isSome then
    let _ ← Scan.optional (Scan.char ',')
  gap
  Scan.char ']'
  return .list (xs.getD [])

/-- Entries between braces, all on one line. -/
def inlineTable (value : Scan Toml) : Scan Toml := do
  Scan.char '\x7b'
  let es ← Scan.optional (Scan.separated (entry value <* spaces) (Scan.char ','))
  spaces
  Scan.char '\x7d'
  match ofEntries (es.getD []) with
  | some t => pure t
  | none => failure

/-- A value in which others may stand `depth` deep. -/
def value : Nat → Scan Toml
  | 0 => scalar
  | depth + 1 => scalar <|> list (value depth) <|> inlineTable (value depth)

inductive Line where
  | blank
  | header (repeated : Bool) (path : List String) (key : String)
  | entry (e : Entry)

def headerBetween (repeated : Bool) (left right : String) : Scan Line := do
  Scan.word left
  let (path, k) ← key
  Scan.word right
  return .header repeated path k

def content : Scan Line := do
  match ← Scan.optional (headerBetween true "[[" "]]" <|> headerBetween false "[" "]") with
  | some l => return l
  | none => match ← Scan.optional (entry (value depthLimit)) with
    | some e => return .entry e
    | none => return .blank

/-- A line, of which there is none at the end of the text. -/
def line : Scan Line := do
  match ← Scan.optional Scan.atEnd with
  | some _ => failure
  | none =>
    spaces
    let l ← content
    trailing
    return l

/-- The entries before the first header, and the sections. -/
def sections : List Line → List Entry × List Section
  | [] => ([], [])
  | .blank :: ls => sections ls
  | .entry e :: ls =>
    let (es, ss) := sections ls
    (e :: es, ss)
  | .header repeated path key :: ls =>
    let (entries, ss) := sections ls
    ([], { repeated, path, key, entries } :: ss)

def document : Scan Toml := do
  let _ ← Scan.optional (Scan.char '\ufeff')
  let (top, rest) := sections (← Scan.many line)
  Scan.atEnd
  match ofSections top rest with
  | some t => pure t
  | none => failure

end ObjectGroups.Toml.Grammar

/-- The document that the whole text is, if it is one. -/
def ObjectGroups.Toml.read? (s : String) : Option ObjectGroups.Toml :=
  ObjectGroups.Text.Scan.whole ObjectGroups.Toml.Grammar.document s
