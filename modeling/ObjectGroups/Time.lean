/-
The clock. An instant is a count of nanoseconds from the clock's zero, a span
a count of nanoseconds. Seconds of an instant fit 64 signed bits: an instant
beyond that does not exist, and `Instant.after?` says so.
-/
import ObjectGroups.Word

namespace ObjectGroups

/-- Nanoseconds from the clock's zero. -/
abbrev Instant := Int

/-- A length of time in nanoseconds. -/
abbrev Span := Nat

namespace Span

def perSecond : Nat := 1000000000

/-- The longest span there is: the largest 64-bit count of seconds and one nanosecond short of another. -/
def longest : Span := (Word.size - 1) * perSecond + (perSecond - 1)

def ofMillis (ms : Nat) : Span := ms * 1000000

def seconds (d : Span) : Nat := d / perSecond

def subsecond (d : Span) : Nat := d % perSecond

end Span

namespace Instant

/-- Whether the whole seconds of `t` fit 64 signed bits. -/
def exists? (t : Instant) : Bool :=
  Word.signed (t / 1000000000)

/-- The instant `d` after `t`, if there is one. -/
def after? (t : Instant) (d : Span) : Option Instant :=
  if exists? (t + d) then some (t + d) else none

/-- Time from `t` to `u`, zero if `u` is not later. -/
def until_ (t u : Instant) : Span := (u - t).toNat

/-- Whether a wait with this deadline is over; a wait without one never is. -/
def due (now : Instant) : Option Instant → Bool
  | some d => decide (d ≤ now)
  | none => false

/-- The later of two optional instants: an absent one does not count. -/
def latest : List (Option Instant) → Option Instant
  | [] => none
  | none :: ds => latest ds
  | some d :: ds => match latest ds with
    | some e => some (max d e)
    | none => some d

/-- The earlier of two optional instants: an absent one does not count. -/
def earliest : List (Option Instant) → Option Instant
  | [] => none
  | none :: ds => earliest ds
  | some d :: ds => match earliest ds with
    | some e => some (min d e)
    | none => some d

end Instant

end ObjectGroups
