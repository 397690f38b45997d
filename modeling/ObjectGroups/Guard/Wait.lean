/-
Waiting for a guard outside the scheduler, one step at a time.

The wait is a hint: it ends when its guard is likely to hold, and who waits
asks the guard again. A guard on the state alone cannot change meanwhile, so
its wait only evaluates it. A future is looked at, subscribed to and looked at
again before the thread parks, so that a resolution in between is seen or
leaves a permit. A timer parks until its deadline and no permit ends it.
`all` waits for each part in turn, also after one that did not hold, since
every part outside must have had its wait; the parts still to come stand in
`frames`. `any` subscribes to all of its parts, evaluates itself, and parks
once, for as long as a part has a source or a deadline.

A step reads the sight, the state and the parker; `WaitMove` is what it does
to the outside.
-/
import ObjectGroups.Guard

namespace ObjectGroups

variable {S : Type}

/-- Where a wait goes on after a park that found a permit. -/
inductive AfterPark (S : Type) where
  | future (f : FutureId)
  | timer (deadline : Instant)
  | never
  | any (gs : List (Guard S))
  | user (g : Guard S) (next : Except GuardError Unit → WaitPlan)

inductive WaitPoint (S : Type) where
  | enter (g : Guard S)
  | future (f : FutureId)
  | join (f : FutureId)
  | recheck (f : FutureId)
  | timer (deadline : Instant)
  | never
  /-- Subscribed, `external` if to anything, and about to evaluate. -/
  | anyPoll (gs : List (Guard S)) (external : Bool)
  /-- Evaluated to false, and about to ask for the deadline. -/
  | anyAim (gs : List (Guard S)) (external : Bool)
  | anyLast (gs : List (Guard S))
  | user (g : Guard S) (plan : WaitPlan)
  | park (deadline : Option Instant) (sleep : Sleep) (after : AfterPark S)
  | done (r : Answer)

/-- A wait in progress. A frame is an `all` one of whose parts is being waited
for: whether all parts before held, and the parts to come. -/
structure Wait (S : Type) where
  point : WaitPoint S
  frames : List (Bool × List (Guard S)) := []

def Wait.start (g : Guard S) : Wait S := { point := .enter g }

structure WaitMove (S : Type) where
  /-- Futures with which the thread's parker is registered. -/
  joins : List FutureId := []
  parker : Parker
  wait : Wait S

namespace WaitPoint

def enterAny (v : Sight) (gs : List (Guard S)) : List FutureId × WaitPoint S :=
  match Guard.sources v (.any gs) with
  | (fs, .ok external) => (fs, .anyPoll gs external)
  | (fs, .error p) => (fs, .done (.panic p))

def aim (v : Sight) (gs : List (Guard S)) (external : Bool) : WaitPoint S :=
  match Guard.deadline v (.any gs) with
  | .error p => .done (.panic p)
  | .ok none => if external then .park none .awake (.any gs) else .done (.ok false)
  | .ok (some d) => .park (some d) .awake (.any gs)

def afterPark (r : Except GuardError Unit) : AfterPark S → WaitPoint S
  | .user g next => .user g (next r)
  | after => match r with
    | .error e => .done (.error e)
    | .ok () => match after with
      | .future f => .future f
      | .timer d => .timer d
      | .never => .never
      | .any gs => .anyLast gs
      | .user g next => .user g (next r)

end WaitPoint

namespace Wait

/-- The next step, or nothing while the thread sleeps or once the wait has ended. -/
def step (v : Sight) (s : S) (p : Parker) (w : Wait S) : Option (WaitMove S) :=
  let goOn (x : WaitPoint S) : Option (WaitMove S) := some { parker := p, wait := { w with point := x } }
  match w.point with
  | .enter g => match g with
    | .always => goOn (.done (.ok true))
    | .field _ _ => goOn (.done (g.evaluate v s))
    | .future f => goOn (.future f)
    | .timer (some d) _ => goOn (.timer d)
    | .timer none _ => goOn .never
    | .all [] => goOn (.done (.ok true))
    | .all (c :: cs) => some { parker := p, wait := ⟨.enter c, (true, cs) :: w.frames⟩ }
    | .any gs =>
      let (fs, x) := WaitPoint.enterAny v gs
      some { joins := fs, parker := p, wait := { w with point := x } }
    | .user u => goOn (.user g (u.wait v))
  | .future f => goOn (if v.resolved f then .done (.ok true) else .join f)
  | .join f => some { joins := [f], parker := p, wait := { w with point := .recheck f } }
  | .recheck f => goOn (if v.resolved f then .done (.ok true) else .park none .awake (.future f))
  | .timer d => goOn (if d ≤ v.now then .done (.ok true) else .park (some d) .awake (.timer d))
  | .never => goOn (.park none .awake .never)
  | .anyPoll gs external => goOn (match Guard.evaluate v s (.any gs) with
      | .ok false => .anyAim gs external
      | r => .done r)
  | .anyAim gs external => goOn (WaitPoint.aim v gs external)
  | .anyLast gs => goOn (.done (Guard.evaluate v s (.any gs)))
  | .user g plan => match plan with
    | .answer r => goOn (.done r)
    | .evaluate next => goOn (.user g (next (g.evaluate v s)))
    | .park deadline next => goOn (.park deadline .awake (.user g next))
  | .park deadline sleep after => match p.look v.now deadline sleep with
    | none => none
    | some .sleeps => goOn (.park deadline (.asleep false) after)
    | some (.ended (r, p')) =>
      some { parker := p', wait := { w with point := WaitPoint.afterPark r after } }
  | .done r => match w.frames with
    | [] => none
    | (held, rest) :: frames => match r with
      | .ok b => match rest with
        | [] => some { parker := p, wait := ⟨.done (.ok (b && held)), frames⟩ }
        | c :: cs => some { parker := p, wait := ⟨.enter c, (b && held, cs) :: frames⟩ }
      | _ => some { parker := p, wait := ⟨.done r, frames⟩ }

/-- The result, once there is one. -/
def result? (w : Wait S) : Option Answer :=
  match w.point, w.frames with
  | .done r, [] => some r
  | _, _ => none

/-- The wait with its thread notified, if it sleeps. -/
def notify (w : Wait S) : Wait S :=
  match w.point with
  | .park deadline sleep after => { w with point := .park deadline sleep.notify after }
  | _ => w

end Wait

end ObjectGroups
