/-
How spans and instants are written.

A span is shown in the largest of `s`, `ms`, `µs` and `ns` that it fills at
least once, with the rest as a decimal fraction. An instant is shown by its
two parts. A timestamp is an instant read as a time of day after midnight of
1 January 1970, with no fraction of a second or the shortest exact one of
three, six or nine digits.
-/
import ObjectGroups.Time
import ObjectGroups.Text.Quoted

namespace ObjectGroups

open Text

def Span.text (d : Span) : String :=
  let n := d.subsecond
  if 0 < d.seconds then decimal d.seconds n 9 ++ "s"
  else if 1000000 ≤ n then decimal (n / 1000000) (n % 1000000) 6 ++ "ms"
  else if 1000 ≤ n then decimal (n / 1000) (n % 1000) 3 ++ "µs"
  else toString n ++ "ns"

namespace Instant

def seconds (t : Instant) : Int := t / 1000000000

def subsecond (t : Instant) : Nat := (t % 1000000000).toNat

def text (t : Instant) : String :=
  fields "Instant" [("tv_sec", toString t.seconds), ("tv_nsec", toString t.subsecond)]

/-- Year, month and day of the given day, counted from 1 January 1970. The
year of the count begins in March, so that a leap day is its last day. -/
def civil (day : Int) : Int × Nat × Nat :=
  let z := day + 719468
  let era := z / 146097
  let doe := (z % 146097).toNat
  let yoe := (doe - doe / 1460 + doe / 36524 - doe / 146096) / 365
  let doy := doe - (365 * yoe + yoe / 4 - yoe / 100)
  let mp := (5 * doy + 2) / 153
  let d := doy - (153 * mp + 2) / 5 + 1
  let m := if mp < 10 then mp + 3 else mp - 9
  let y := (yoe : Int) + era * 400
  (if m ≤ 2 then y + 1 else y, m, d)

/-- A year has four digits; one that needs more, or lies before the year zero, has a sign. -/
def yearText (y : Int) : String :=
  if 0 ≤ y ∧ y ≤ 9999 then padded 4 y.toNat
  else (if y < 0 then "-" else "+") ++ padded 4 y.natAbs

def fraction (n : Nat) : String :=
  if n = 0 then ""
  else if n % 1000000 = 0 then "." ++ padded 3 (n / 1000000)
  else if n % 1000 = 0 then "." ++ padded 6 (n / 1000)
  else "." ++ padded 9 n

def timestamp (t : Instant) : String :=
  let secs := t.seconds
  let (y, m, d) := civil (secs / 86400)
  let s := (secs % 86400).toNat
  yearText y ++ "-" ++ padded 2 m ++ "-" ++ padded 2 d ++ "T" ++
    padded 2 (s / 3600) ++ ":" ++ padded 2 (s / 60 % 60) ++ ":" ++ padded 2 (s % 60) ++
    fraction t.subsecond ++ "Z"

end Instant

end ObjectGroups
