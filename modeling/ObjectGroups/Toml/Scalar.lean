/-
The parts of a TOML document that stand by themselves: blanks, comments,
strings, numbers and dates. A real number too large for binary floating
point of 64 bits is refused, unless it is negative; an integer must fit 64
signed bits, a day its month.
-/
import ObjectGroups.Text.Digits
import ObjectGroups.Text.Scan
import ObjectGroups.Toml
import ObjectGroups.Word

namespace ObjectGroups.Toml.Grammar

open Text

def isSpace (c : Char) : Bool := c = ' ' || c = '\t'

def spaces : Scan Unit := do
  let _ ← Scan.while_ isSpace

def newline : Scan Unit := Scan.word "\n" <|> Scan.word "\r\n"

/-- Controls other than the tab may stand nowhere. -/
def isAllowed (c : Char) : Bool := c = '\t' || (32 ≤ c.toNat && c.toNat ≠ 127)

def comment : Scan Unit := do
  Scan.char '#'
  let _ ← Scan.while_ isAllowed

/-- Nothing more on the line but a comment. -/
def trailing : Scan Unit := do
  spaces
  let _ ← Scan.optional comment
  newline <|> Scan.atEnd

/-- Blanks, comments and ends of lines, as many as there are. -/
def gap : Scan Unit := do
  spaces
  let _ ← Scan.many (do let _ ← Scan.optional comment; newline; spaces)

/-! Strings. -/

/-- The character of a number in so many hexadecimal digits. -/
def numbered (digits : Nat) : Scan Char := do
  match ofDigits? 16 (← Scan.exactly digits) with
  | some n => if n < 0xD800 || (0xDFFF < n && n < 0x110000) then pure (Char.ofNat n) else failure
  | none => failure

def escape : Scan Char := do
  Scan.char '\\'
  match ← Scan.one fun _ => true with
  | 'b' => pure '\x08'
  | 't' => pure '\t'
  | 'n' => pure '\n'
  | 'f' => pure '\x0c'
  | 'r' => pure '\r'
  | '"' => pure '"'
  | '\\' => pure '\\'
  | 'u' => numbered 4
  | 'U' => numbered 8
  | _ => failure

def plain (quote : Char) : Scan Char :=
  Scan.one fun c => isAllowed c && c ≠ quote && (quote ≠ '"' || c ≠ '\\')

/-- Between double quotes, with escapes. -/
def basic : Scan String := do
  Scan.char '"'
  let cs ← Scan.many (plain '"' <|> escape)
  Scan.char '"'
  return String.ofList cs

/-- Between single quotes, as it stands. -/
def literal : Scan String := do
  Scan.char '\''
  let cs ← Scan.many (plain '\'')
  Scan.char '\''
  return String.ofList cs

/-- A backslash before the end of a line, with all blanks up to the next character. -/
def continuation : Scan Unit := do
  Scan.char '\\'
  spaces
  newline
  let _ ← Scan.many ((do let _ ← Scan.one isSpace) <|> newline)

/-- One or two quotes inside a string of several lines. -/
def innerQuotes (quote : Char) : Scan (List Char) := do
  let qs ← Scan.while_ (· = quote)
  if qs.length = 1 || qs.length = 2 then pure qs else failure

/-- The three quotes that close such a string, after up to two that belong to it. -/
def closingQuotes (quote : Char) : Scan (List Char) := do
  let qs ← Scan.while_ (· = quote)
  if 3 ≤ qs.length && qs.length ≤ 5 then pure (qs.drop 3) else failure

/-- A string of several lines; the end of a line right after the opening quotes is left out. -/
def multiline (quote : Char) (piece : Scan (List Char)) : Scan String := do
  Scan.word (String.ofList [quote, quote, quote])
  let _ ← Scan.optional newline
  let body ← Scan.many (piece <|> ((fun _ => ['\n']) <$> newline) <|> innerQuotes quote)
  let last ← closingQuotes quote
  return String.ofList (body.flatten ++ last)

def basicPiece : Scan (List Char) :=
  ((fun c => [c]) <$> plain '"') <|> ((fun c => [c]) <$> escape) <|> ((fun _ => []) <$> continuation)

def literalPiece : Scan (List Char) := (fun c => [c]) <$> plain '\''

def string : Scan String :=
  multiline '"' basicPiece <|> basic <|> multiline '\'' literalPiece <|> literal

/-! Numbers. -/

/-- Digits with single underscores between them, which are left out. -/
def digits (p : Char → Bool) : Scan (List Char) := do
  let d ← Scan.one p
  return d :: (← Scan.many (Scan.one p <|> (Scan.char '_' *> Scan.one p)))

/-- A sign, if there is one: whether it is a minus. -/
def sign : Scan Bool := do
  return (← Scan.optional (Scan.one fun c => c = '+' || c = '-')) = some '-'

/-- Digits of a number, without zeros in front. -/
def wholePart : Scan (List Char) := do
  match ← Scan.optional (Scan.char '0') with
  | some _ => return ['0']
  | none => digits Char.isDigit

def numberOf (ds : List Char) : Nat := (ofDigits? 10 ds).getD 0

/-- A number of that base, whose digits follow its mark. -/
def based (mark : String) (base : Nat) : Scan Toml := do
  Scan.word mark
  match ofDigits? base (← digits fun c => (digitValue? base c).isSome) with
  | some n => if Word.signed n then pure (.integer n) else failure
  | none => failure

def decimalInteger : Scan Toml := do
  let minus ← sign
  let n : Int := numberOf (← wholePart)
  let n := if minus then -n else n
  if Word.signed n then pure (.integer n) else failure

def integer : Scan Toml := based "0x" 16 <|> based "0o" 8 <|> based "0b" 2 <|> decimalInteger

/-- Whether `n` times ten to the power `e` rounds to no finite number of 64 bits. -/
def overflows (n : Nat) (e : Int) : Bool :=
  let size : Int := (Nat.toDigits 10 n).length + e
  let bound := Nat.pow 2 1024 - Nat.pow 2 970
  if n = 0 || size < 300 then false
  else if 320 < size then true
  else if 0 ≤ e then bound ≤ n * Nat.pow 10 e.toNat
  else bound * Nat.pow 10 (-e).toNat ≤ n

def exponent : Scan Int := do
  let _ ← Scan.one fun c => c = 'e' || c = 'E'
  let minus ← sign
  let n : Int := numberOf (← digits Char.isDigit)
  return if minus then -n else n

def fractionPart : Scan (List Char) := do
  Scan.char '.'
  digits Char.isDigit

/-- A number with a fraction, an exponent or both. -/
def decimalReal : Scan Unit := do
  let minus ← sign
  let whole ← wholePart
  let fraction ← Scan.optional fractionPart
  let exp ← Scan.optional exponent
  let ds := fraction.getD []
  if fraction.isNone && exp.isNone then failure
  else if !minus && overflows (numberOf (whole ++ ds)) (exp.getD 0 - ds.length) then failure
  else pure ()

def namedReal : Scan Unit := do
  let _ ← sign
  Scan.word "inf" <|> Scan.word "nan"

def real : Scan Toml := .real <$> Scan.written (decimalReal <|> namedReal)

/-! Dates and times. -/

/-- A number of so many digits within bounds. -/
def within? (width low high : Nat) : Scan Nat := do
  match ofDigits? 10 (← Scan.exactly width) with
  | some n => if low ≤ n && n ≤ high then pure n else failure
  | none => failure

def daysIn (year month : Nat) : Nat :=
  if month = 2 then
    if year % 4 = 0 && (year % 100 ≠ 0 || year % 400 = 0) then 29 else 28
  else if month = 4 || month = 6 || month = 9 || month = 11 then 30
  else 31

def date : Scan Unit := do
  let year ← within? 4 0 9999
  Scan.char '-'
  let month ← within? 2 1 12
  Scan.char '-'
  let _ ← within? 2 1 (daysIn year month)

def time : Scan Unit := do
  let _ ← within? 2 0 23
  Scan.char ':'
  let _ ← within? 2 0 59
  Scan.char ':'
  let _ ← within? 2 0 60
  let _ ← Scan.optional (do
    Scan.char '.'
    let _ ← Scan.one Char.isDigit
    let _ ← Scan.while_ Char.isDigit)

def offset : Scan Unit :=
  (do let _ ← Scan.one fun c => c = 'Z' || c = 'z') <|> (do
    let _ ← Scan.one fun c => c = '+' || c = '-'
    let _ ← within? 2 0 23
    Scan.char ':'
    let _ ← within? 2 0 59)

def dateTime : Scan Unit := do
  date
  let _ ← Scan.optional (do
    let _ ← Scan.one fun c => c = 'T' || c = 't' || c = ' '
    time
    Scan.optional offset)

def moment : Scan Toml := .moment <$> Scan.written (dateTime <|> time)

def bool : Scan Toml :=
  ((fun _ => .bool true) <$> Scan.word "true") <|> ((fun _ => .bool false) <$> Scan.word "false")

/-- A value without parts. -/
def scalar : Scan Toml := (.text <$> string) <|> moment <|> real <|> integer <|> bool

end ObjectGroups.Toml.Grammar
