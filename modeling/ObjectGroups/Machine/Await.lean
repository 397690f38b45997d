/-
Awaiting a guard, phase by phase.

First the task gives the slot up, under the lock, and a new context is started
if tasks are queued. Then it waits for the guard outside the lock. Last it
takes the lock again and, whenever the slot is free, asks the guard; once the
guard holds, the task takes the slot in the same critical section. Otherwise
it sleeps until it is notified or the guard's deadline passes.

An interrupt ends the task as aborted, and the slot is left alone. A guard
that fails or panics still gets the slot back, to end the body as the active
task. A guard whose label panics as well while it is evaluated under the lock
is beyond that: its panic unwinds into the body, which goes on without the
slot.
-/
import ObjectGroups.Machine.Start

namespace ObjectGroups

variable {S A V : Type}

namespace Machine

/-- The label under which an await is reported; a guard that cannot tell gets a stand-in. -/
def awaitLabel (v : Sight) (g : Guard S) : String :=
  match g.label v with
  | .ok l => l
  | .error _ => "<guard>"

/-- The body goes on after its await. -/
def goOn (m : Machine S A V) (a : Agent) (aw : Awaiting S A V) (active : Bool)
    (r : Exit TaskError Unit) : Machine S A V :=
  m.setControl a (.run (some ⟨aw.task, active⟩) (aw.next r))

/-- Ends an interrupted task, under the lock, and gives the lock back. -/
def abort (m : Machine S A V) (a : Agent) (c : ContextId) (g : CogId) (x : Cog S A V)
    (aw : Awaiting S A V) : Machine S A V :=
  let (view, scheduler) := x.scheduler.abort aw.task c m.now
  let m := m.onCog g fun y => { y with scheduler, lock := none }
  m.announceEnd a g .aborted view (.run (some ⟨aw.task, false⟩) (aw.next (.error .interrupted)))

/-- The task takes the slot, under the lock, and gives the lock back. -/
def takeSlot (m : Machine S A V) (a : Agent) (c : ContextId) (g : CogId) (x : Cog S A V)
    (aw : Awaiting S A V) (failure : Option GuardError) : Machine S A V :=
  let scheduler := x.scheduler.resume aw.task c m.now
  let r : Exit TaskError Unit := match failure with
    | some e => .error (.guard e)
    | none => .ok ()
  let m := m.onCog g fun y => { y with scheduler, lock := none }
  m.setControl a (announce g (.resumed aw.label) (scheduler.viewOf aw.task)
    (.run (some ⟨aw.task, true⟩) (aw.next r)))

/-- The wait outside the lock has ended with `r`. -/
def waited (m : Machine S A V) (a : Agent) (c : ContextId) (aw : Awaiting S A V) (r : Answer) :
    Machine S A V :=
  let phase : Phase S :=
    match containedAnswer "wait" r with
    | .error .interrupted => .abort
    | .error e => if m.interrupted c then .abort else .reenter (some e)
    | .ok b =>
      if m.interrupted c then .abort
      else if b && (aw.guard.stays m.sight).toOption = some true then .ready
      else .reenter none
  m.turned.setControl a (.awaiting aw phase)

/-- One step of the wait outside the lock. -/
def stepWait (m : Machine S A V) (a : Agent) (c : ContextId) (x : Cog S A V) (aw : Awaiting S A V)
    (w : Wait S) : Option (Machine S A V) :=
  match w.result? with
  | some r => some (m.waited a c aw r)
  | none => match w.step m.sight x.state (m.parker (.own c)) with
    | none => none
    | some move =>
      let m := { m with parkers := m.parkers.put (.own c) move.parker }
      some ((m.subscribe (.parker (.own c)) move.joins).turned.setControl a
        (.awaiting aw (.wait move.wait)))

/-- Looks at the slot and the guard, holding the lock. -/
def contend (m : Machine S A V) (a : Agent) (c : ContextId) (g : CogId) (x : Cog S A V)
    (aw : Awaiting S A V) (failure : Option GuardError) : Machine S A V :=
  if m.interrupted c then m.abort a c g x aw
  else if x.scheduler.active.isSome then m.setControl a (.awaiting aw (.doze failure))
  else match failure with
    | some _ => m.takeSlot a c g x aw failure
    | none => match aw.guard.evaluate m.sight x.state with
      | .ok true => m.turned.takeSlot a c g x aw none
      | .ok false => m.turned.setControl a (.awaiting aw (.doze none))
      | .error e => m.turned.takeSlot a c g x aw (some e)
      | .panic p => (m.turned.setLock g none).goOn a aw false (.panic p)

/-- Asks for the deadline, holding the lock, and sleeps without it. -/
def doze (m : Machine S A V) (a : Agent) (g : CogId) (aw : Awaiting S A V)
    (failure : Option GuardError) : Machine S A V :=
  let (failure, deadline) : Option GuardError × Option Instant :=
    match failure with
    | some e => (some e, none)
    | none => match contained "wake_deadline" (aw.guard.deadline m.sight) with
      | .ok d => (none, d)
      | .error e => (some e, none)
  (m.turned.setLock g none).setControl a (.awaiting aw (.asleep failure deadline false))

def stepAwait (m : Machine S A V) (a : Agent) (c : ContextId) (g : CogId) (x : Cog S A V)
    (aw : Awaiting S A V) (phase : Phase S) : Option (Machine S A V) :=
  match phase with
  | .release =>
    if x.lock.isSome then none
    else
      let m := m.onScheduler g (·.suspend aw.task c aw.label)
      if x.scheduler.queue.isEmpty then some (m.handedOver a c g aw)
      else some ((m.setLock g (some a)).setControl a (.starting .check (.handover aw)))
  | .wait w => m.stepWait a c x aw w
  | .ready =>
    if x.lock.isSome then none
    else
      let m := m.onScheduler g (·.markReady aw.task)
      let view := (m.cogs.get? g).bind fun y => y.scheduler.viewOf aw.task
      some (m.setControl a (announce g .ready view (.awaiting aw (.reenter none))))
  | .reenter failure =>
    if x.lock.isSome then none
    else
      let m := m.onCog g fun y =>
        { y with scheduler := y.scheduler.removeWaiter c, lock := some a }
      some (m.setControl a (.awaiting aw (match failure with
        | some e => .contend (some e)
        | none => .subscribe)))
  | .subscribe =>
    let (fs, r) := aw.guard.sources m.sight
    let failure : Option GuardError := match contained "subscribe" r with
      | .ok _ => none
      | .error e => some e
    some ((m.subscribe (.scheduler g) fs).turned.setControl a (.awaiting aw (.contend failure)))
  | .contend failure => some (m.contend a c g x aw failure)
  | .doze failure => some (m.doze a g aw failure)
  | .asleep failure deadline notified =>
    if x.lock.isNone && (notified || Instant.due m.now deadline) then
      some ((m.setLock g (some a)).setControl a (.awaiting aw (.contend failure)))
    else none
  | .abort => if x.lock.isSome then none else some (m.abort a c g x aw)

end Machine

end ObjectGroups
