/-
Universally unique identifiers: 128 bits, written as 32 hexadecimal digits in
groups of 8, 4, 4, 4 and 12.

Reading also takes the digits without hyphens, and the groups in braces or
behind `urn:uuid:`. Letters may be of either case everywhere.
-/
import ObjectGroups.Text.Digits

namespace ObjectGroups

structure Uuid where
  bits : BitVec 128
deriving DecidableEq, Repr

namespace Uuid

/-- The kind of the identifier: the first digit of the third group. -/
def version (u : Uuid) : Nat := (u.bits.extractLsb' 76 4).toNat

/-- An identifier of random bits, of which four say so and two name the layout. -/
def random (entropy : BitVec 128) : Uuid where
  bits := entropy.extractLsb' 80 48 ++ (4 : BitVec 4) ++ entropy.extractLsb' 64 12 ++
    (2 : BitVec 2) ++ entropy.extractLsb' 0 62

def text (u : Uuid) : String :=
  let group (start digits : Nat) : String := Text.paddedHex digits (u.bits.extractLsb' start (4 * digits)).toNat
  String.intercalate "-" [group 96 8, group 80 4, group 64 4, group 48 4, group 0 12]

/-- The digits of five groups with hyphens between them. -/
def ungrouped? (cs : List Char) : Option (List Char) :=
  let groups := [cs.take 8, (cs.drop 9).take 4, (cs.drop 14).take 4, (cs.drop 19).take 4, cs.drop 24]
  if [8, 13, 18, 23].all fun i => cs[i]? = some '-' then some groups.flatten else none

/-- What a text of that length holds between the marks around it. -/
def digits? (cs : List Char) : Option (List Char) :=
  match cs.length with
  | 32 => some cs
  | 36 => ungrouped? cs
  | 38 => if cs.head? = some '\x7b' && cs.getLast? = some '\x7d' then
      ungrouped? (cs.drop 1).dropLast else none
  | 45 => if (cs.take 9).map Char.toLower = "urn:uuid:".toList then ungrouped? (cs.drop 9) else none
  | _ => none

def ofString? (s : String) : Option Uuid :=
  ((digits? s.toList).bind (Text.ofDigits? 16)).map fun n => ⟨.ofNat 128 n⟩

end Uuid

end ObjectGroups
