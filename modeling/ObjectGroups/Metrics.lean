/-
Counters of one scheduler, and three tables by task name: how often a task of
that name has run to its end, how long it took on average, and when it last
ended.
-/
import ObjectGroups.Table
import ObjectGroups.Time

namespace ObjectGroups

structure Metrics where
  submitted : Nat := 0
  completed : Nat := 0
  failed : Nat := 0
  /-- Tasks cancelled while suspended. -/
  aborted : Nat := 0
  suspensions : Nat := 0
  resumptions : Nat := 0
  contextsStarted : Nat := 0
  contextsRetired : Nat := 0
  executed : Table String Nat := []
  average : Table String Span := []
  lastRun : Table String Instant := []
deriving DecidableEq, Repr

namespace Metrics

/-- The mean of `count` spans, of which the last is `d` and the others have the
mean `before`. It moves from the old mean by the `count`th part of the
difference, in binary floating point, and is cut to whole nanoseconds of 64 bits. -/
def mean (before d : Span) (count : Nat) : Span :=
  if count = 1 then d
  else
    let b := Float.ofNat before
    (b + (Float.ofNat d - b) / Float.ofNat count).toUInt64.toNat

/-- Notes an execution of `name` that took `d` and ended at `now`. -/
def record (m : Metrics) (now : Instant) (name : String) (d : Span) : Metrics :=
  let count := (m.executed.get? name).getD 0 + 1
  { m with
    executed := m.executed.put name count
    lastRun := m.lastRun.put name now
    average := m.average.put name (mean ((m.average.get? name).getD 0) d count) }

/-- Tasks submitted and not yet finished. The sum of the finished ones is one of 64 bits. -/
def inFlight (m : Metrics) : Nat :=
  m.submitted - (m.completed + m.failed + m.aborted) % Word.size

end Metrics

end ObjectGroups
