/-
Digits of a number: padded to a width, as a fraction without the zeros at its
end, and read back.
-/
namespace ObjectGroups.Text

/-- `n` in decimal, with zeros in front up to `width` digits. -/
def padded (width n : Nat) : String :=
  let ds := Nat.toDigits 10 n
  String.ofList (List.replicate (width - ds.length) '0' ++ ds)

/-- The digits `ds` without the zeros at the end. -/
def trimZeros (ds : List Char) : List Char :=
  (ds.reverse.dropWhile (· == '0')).reverse

/-- `whole.part`, where `part` has `width` digits; zeros at the end and then an empty fraction are left out. -/
def decimal (whole part width : Nat) : String :=
  match trimZeros (padded width part).toList with
  | [] => toString whole
  | ds => toString whole ++ "." ++ String.ofList ds

/-- `n` in lower-case hexadecimal, with zeros in front up to `width` digits. -/
def paddedHex (width n : Nat) : String :=
  let ds := Nat.toDigits 16 n
  String.ofList (List.replicate (width - ds.length) '0' ++ ds)

/-- `n` in lower-case hexadecimal. -/
def hex (n : Nat) : String := paddedHex 1 n

/-- The value of a digit of that base, which is at most sixteen; letters may be of either case. -/
def digitValue? (base : Nat) (c : Char) : Option Nat :=
  let value : Option Nat :=
    if '0' ≤ c && c ≤ '9' then some (c.toNat - '0'.toNat)
    else if 'a' ≤ c && c ≤ 'f' then some (c.toNat - 'a'.toNat + 10)
    else if 'A' ≤ c && c ≤ 'F' then some (c.toNat - 'A'.toNat + 10)
    else none
  value.filter fun v => v < base

/-- The number that the digits stand for, if all of them are digits of that base. -/
def ofDigits? (base : Nat) (ds : List Char) : Option Nat :=
  ds.foldlM (fun n d => (digitValue? base d).map fun v => n * base + v) 0

end ObjectGroups.Text
