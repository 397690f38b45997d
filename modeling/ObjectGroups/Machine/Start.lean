/-
Starting a context: look whether the registry is closed, enter the context,
ask the system for its thread. A shutdown may come between any two of these.

A context that is started for the queue of a cog gets the free slot of that
cog at once, under the lock that the starting thread holds all the while. If
the start fails, a submission is taken back, an await goes on without it, and
a context of its own is not there; in each case its entry has gone again. A
panic over the name unwinds through the starting thread and undoes nothing but
the entry and the lock.
-/
import ObjectGroups.Machine

namespace ObjectGroups

variable {S A V : Type}

namespace Errand

/-- The cog whose queue the context is to run; `own` is that of the starting thread. -/
def host (own : Option CogId) : Errand S A V → Option CogId
  | .submission _ c .. => some c
  | .handover _ => own
  | .direct .. => none

end Errand

namespace Machine

/-- The suspended task is through with its first phase, and waits for its guard. -/
def handedOver (m : Machine S A V) (a : Agent) (c : ContextId) (g : CogId) (aw : Awaiting S A V) :
    Machine S A V :=
  let m := ((m.broadcast g).onScheduler g (·.addWaiter c)).setLock g none
  let view := (m.cogs.get? g).bind fun x => x.scheduler.viewOf aw.task
  m.setControl a (announce g (.suspended aw.label) view (.awaiting aw (.wait (.start aw.guard))))

/-- The context `c` has its thread. -/
def startSucceeded (m : Machine S A V) (a : Agent) (own : Option CogId) (c : ContextId) :
    Errand S A V → Machine S A V
  | .submission seat g view next =>
    let m := ((m.onScheduler g (·.grant c)).broadcast g).setLock g none
    m.setControl a (announce g .added (some view) (.run seat (next (.ok view.id))))
  | .handover aw => match own, a.context? with
    | some g, some self => (m.onScheduler g (·.grant c)).handedOver a self g aw
    | _, _ => m
  | .direct seat _ _ _ next => m.setControl a (.run seat (next (.ok c)))

def startFailed (m : Machine S A V) (a : Agent) (own : Option CogId) (e : RuntimeError) :
    Errand S A V → Machine S A V
  | .submission seat g view next =>
    let name := ((m.cogs.get? g).map (·.name)).getD ""
    let m := (m.report (.notStarted name view.id e)).onScheduler g (·.withdraw view.id)
    (m.setLock g none).setControl a (.run seat (next (.error e)))
  | .handover aw => match own, a.context? with
    | some g, some self =>
      let name := ((m.cogs.get? g).map (·.name)).getD ""
      (m.report (.queueNotStarted name e)).handedOver a self g aw
    | _, _ => m
  | .direct seat _ _ _ next => m.setControl a (.run seat (next (.error e)))

def startUnwound (m : Machine S A V) (a : Agent) (own : Option CogId) (p : Payload) :
    Errand S A V → Machine S A V
  | .submission seat g _ next => (m.setLock g none).setControl a (.run seat (next (.panic p)))
  | .handover aw => match own with
    | some g => (m.setLock g none).setControl a (.run (some ⟨aw.task, false⟩) (aw.next (.panic p)))
    | none => m
  | .direct seat _ _ _ next => m.setControl a (.run seat (next (.panic p)))

/-- What a new context is called after, what an interrupt of it wakes, and what its thread does. -/
def newcomer (m : Machine S A V) (own : Option CogId) (e : Errand S A V) :
    String × Waker × Thread S A V :=
  match e with
  | .direct _ label waker main _ => (label, waker, { cog := none, control := .run none main })
  | _ => match e.host own with
    | some g =>
      (((m.cogs.get? g).map (·.name)).getD "", .scheduler g, { cog := some g, control := .claim })
    | none => ("", .counter 0, { cog := none, control := .leave })

def stepStart (m : Machine S A V) (a : Agent) (own : Option CogId) (stage : Stage) (e : Errand S A V) :
    Machine S A V :=
  match stage with
  | .check =>
    if m.registry.shutdown then m.startFailed a own .shutDown e
    else
      let (c, registry) := m.registry.allocate
      { m with registry }.setControl a (.starting (.register c) e)
  | .register c =>
    let (label, waker, _) := m.newcomer own e
    { m with
      contexts := m.contexts.put c
        { name := m.registry.contextName label c, waker, cog := e.host own }
      parkers := m.parkers.put (.own c) {}
      registry := m.registry.enter c }.setControl a (.starting (.launch c) e)
  | .launch c =>
    let name := ((m.contexts.get? c).map (·.name)).getD ""
    if !Registry.nameable name then (m.strike c).startUnwound a own Registry.namePanic e
    else if !m.registry.admits c then (m.strike c).startFailed a own (.spawn m.registry.refusal) e
    else
      let (_, _, thread) := m.newcomer own e
      { m with
        threads := m.threads.put (.context c) thread
        registry := m.registry.countStarted }.startSucceeded a own c e

end Machine

end ObjectGroups
