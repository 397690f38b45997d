/-
Text for where there is no terminal: without controls, and without the
sequences that an escape begins.

A sequence is one of a few kinds, by the character behind the escape. Some end
with a final character, some with a bell or a string terminator, and any ends
where another escape begins. White space shows also within a sequence, and so
does what follows it; the next control character takes the sequence up again.
-/
namespace ObjectGroups.Text

/-- Where in a sequence text stands. -/
inductive Sequence where
  /-- In none. -/
  | outside
  | escape
  /-- Behind a mark that selects a further set of finals. -/
  | marked
  /-- In the parameters of a control sequence. -/
  | control
  /-- At the beginning of a device string. -/
  | device
  | deviceParameters
  | deviceMarked
  /-- In a command to the operating system. -/
  | command
  /-- In a string that a string terminator ends. -/
  | string
deriving DecidableEq, Repr

/-- White space among the controls. -/
def isBreak (c : Char) : Bool := c = '\t' || c = '\n' || c = '\x0c' || c = '\r'

def isControl (c : Char) : Bool := c.toNat < 0x20 || c.toNat = 0x7f

/-- Whether the string terminator is among the bytes of the character. -/
def terminates (c : Char) : Bool := (String.utf8EncodeChar c).contains 0x9c

namespace Sequence

/-- Whether white space shows here. -/
def permeable : Sequence → Bool
  | .outside | .escape | .marked | .control => true
  | _ => false

def opened (c : Char) : Sequence :=
  if c = '[' then .control
  else if c = ']' then .command
  else if c = 'P' then .device
  else if c = 'X' || c = '^' || c = '_' then .string
  else if c.toNat < 0x30 then .marked
  else .outside

/-- A device string at a character that is neither a control nor outside of ASCII. -/
def deviceNext (s : Sequence) (c : Char) : Sequence :=
  let n := c.toNat
  if 0x40 ≤ n then .string
  else if n < 0x30 then .deviceMarked
  else if s = .deviceMarked || (s = .deviceParameters && 0x3c ≤ n) then .string
  else .deviceParameters

/-- Where text stands behind a character that does not show. -/
def next (s : Sequence) (c : Char) : Sequence :=
  let n := c.toNat
  match s with
  | .command => if n = 7 then .outside else s
  | .string => if terminates c then .outside else s
  | _ =>
    if isControl c || 0x80 ≤ n then s
    else match s with
      | .escape => opened c
      | .marked => if n < 0x30 then s else .outside
      | .control => if n < 0x40 then s else .outside
      | .device | .deviceParameters | .deviceMarked => s.deviceNext c
      | _ => s

end Sequence

/-- What of the characters shows; `showing` tells whether the last one did. -/
def plainChars (s : Sequence) (showing : Bool) : List Char → List Char
  | [] => []
  | c :: cs =>
    if c = '\x1b' then plainChars .escape false cs
    else if c = '\x18' || c = '\x1a' then plainChars .outside false cs
    else if isBreak c && (showing || s.permeable) then c :: plainChars s true cs
    else if isControl c then plainChars (s.next c) false cs
    else if showing || s = .outside then
      c :: plainChars (if 0x80 ≤ c.toNat then .outside else s) true cs
    else plainChars (s.next c) false cs

def plain (s : String) : String := String.ofList (plainChars .outside false s.toList)

end ObjectGroups.Text
