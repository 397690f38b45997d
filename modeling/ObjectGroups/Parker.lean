/-
Parking with one permit and a sticky interrupt.

`unpark` leaves a permit, at most one; a park takes it and goes on, and waits
if there is none. An interrupt is never taken back: it ends every park, also
one that would find a permit. A park with a deadline that is woken by the
clock goes on without a permit.

Waiting is on a condition variable. A thread that waits is `asleep`; the flag
says whether it has been notified since, and a notified thread looks at the
parker again. `Parker.look` is one turn of that loop.
-/
import ObjectGroups.Error
import ObjectGroups.Time

namespace ObjectGroups

structure Parker where
  permit : Bool := false
  interrupted : Bool := false
deriving DecidableEq, Repr

/-- A thread at a condition variable: about to look at the condition, or waiting to be notified. -/
inductive Sleep where
  | awake
  | asleep (notified : Bool)
deriving DecidableEq, Repr

def Sleep.notify : Sleep → Sleep
  | .awake => .awake
  | .asleep _ => .asleep true

/-- One turn of a wait: it has ended with a result, or the thread sleeps from now on. -/
inductive Turn (α : Type) where
  | ended (a : α)
  | sleeps
deriving DecidableEq, Repr

namespace Parker

def unpark (p : Parker) : Parker := { p with permit := true }

def interrupt (p : Parker) : Parker := { p with interrupted := true }

/-- What a park finds when it looks: the result and the parker after it, or nothing to go on with. -/
def check (p : Parker) : Turn (Except GuardError Unit × Parker) :=
  if p.interrupted then .ended (.error .interrupted, p)
  else if p.permit then .ended (.ok (), { p with permit := false })
  else .sleeps

/-- A park whose deadline has passed while it slept. -/
def timeout (p : Parker) : Except GuardError Unit :=
  if p.interrupted then .error .interrupted else .ok ()

/-- One turn of a park at clock reading `now`; `none` if the thread stays asleep. -/
def look (p : Parker) (now : Instant) (deadline : Option Instant) :
    Sleep → Option (Turn (Except GuardError Unit × Parker))
  | .awake => some p.check
  | .asleep true => some p.check
  | .asleep false => if Instant.due now deadline then some (.ended (p.timeout, p)) else none

end Parker

end ObjectGroups
