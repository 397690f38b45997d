/-
Everything that happens, as one machine: the clock, the contexts and their
parkers, the futures, the cogs, and the threads with what each is about to do.

A thread's `Control` is a point between two critical sections. What one
section does under a lock is one step; where a section is split, since the
clock, an interrupt or a shutdown may come in between, the cog's `lock` names
the thread that holds it. A thread that sleeps on a condition variable has a
flag that tells whether it has been notified.
-/
import ObjectGroups.Guard.Wait
import ObjectGroups.Notice
import ObjectGroups.Registry
import ObjectGroups.Scheduler

namespace ObjectGroups

/-- A thread: the one of a context, or a caller from outside. -/
inductive Agent where
  | context (c : ContextId)
  | caller (n : Nat)
deriving DecidableEq, Repr

def Agent.context? : Agent → Option ContextId
  | .context c => some c
  | .caller _ => none

/-- A condition variable. -/
inductive Channel where
  /-- Contexts of a cog that wait for its slot. -/
  | slot (c : CogId)
  | parker (p : ParkerId)
  /-- Threads that wait until no context is live. -/
  | idle
  /-- Threads that wait for a task of a cog to finish. -/
  | task (c : CogId) (t : TaskId)
deriving DecidableEq, Repr

/-- Something to be done to another thread, one at a time and without a lock. -/
inductive Signal where
  | interrupt (p : ParkerId)
  | wake (w : Waker)
deriving DecidableEq, Repr

/-- An await in progress. -/
structure Awaiting (S A V : Type) where
  task : TaskId
  guard : Guard S
  label : String
  next : Exit TaskError Unit → Body S A V

/-- Where an await stands. A guard that has failed leaves its error, and the
task takes the slot back without asking the guard again. -/
inductive Phase (S : Type) where
  /-- About to give the slot up. -/
  | release
  /-- Waiting for the guard outside the lock. -/
  | wait (w : Wait S)
  /-- The guard holds for good, and the task is about to be marked ready. -/
  | ready
  /-- About to take the lock. -/
  | reenter (failure : Option GuardError)
  /-- Holds the lock and is about to subscribe the scheduler to the guard's futures. -/
  | subscribe
  /-- Holds the lock and is about to look at the slot and the guard. -/
  | contend (failure : Option GuardError)
  /-- Holds the lock and is about to ask for the deadline and sleep. -/
  | doze (failure : Option GuardError)
  | asleep (failure : Option GuardError) (deadline : Option Instant) (notified : Bool)
  /-- Interrupted outside the lock, and about to end the task. -/
  | abort

/-- How far the start of a context has come. -/
inductive Stage where
  /-- About to look whether the registry is closed. -/
  | check
  /-- About to enter the context. -/
  | register (c : ContextId)
  /-- About to ask the system for the thread. -/
  | launch (c : ContextId)
deriving DecidableEq, Repr

/-- What a context is started for. -/
inductive Errand (S A V : Type) where
  /-- To run the queue, into which a task has just been put. -/
  | submission (seat : Option Seat) (cog : CogId) (view : TaskView)
      (next : Exit RuntimeError TaskId → Body S A V)
  /-- To run the queue in place of a task that awaits. -/
  | handover (a : Awaiting S A V)
  /-- To run a body of its own. -/
  | direct (seat : Option Seat) (label : String) (waker : Waker) (main : Body S A V)
      (next : Exit RuntimeError ContextId → Body S A V)

/-- What a thread is about to do. -/
inductive Control (S A V : Type) where
  /-- Between tasks. -/
  | claim
  | run (seat : Option Seat) (b : Body S A V)
  /-- About to put a task into the queue of a cog. -/
  | enrol (seat : Option Seat) (cog : CogId) (view : TaskView) (task : Body S A V)
      (next : Exit RuntimeError TaskId → Body S A V)
  | starting (stage : Stage) (errand : Errand S A V)
  | awaiting (a : Awaiting S A V) (phase : Phase S)
  /-- The body has ended as the active task. -/
  | complete (t : TaskId) (outcome : TaskOutcome)
  /-- The body has ended without the slot. -/
  | strand (t : TaskId)
  /-- The thread is about to end. -/
  | leave
  /-- About to tell the listeners of a cog. -/
  | notify (cog : CogId) (n : Notice) (after : Control S A V)
  | signal (seat : Option Seat) (signals : List Signal) (next : Body S A V)
  /-- Has closed the registry, and is about to interrupt the contexts that are live. -/
  | sweep (seat : Option Seat) (next : Body S A V)
  | idle (seat : Option Seat) (deadline : Option Instant) (sleep : Sleep) (report : Option Span)
      (next : Bool → Body S A V)
  | linger (seat : Option Seat) (cog : CogId) (t : TaskId) (deadline : Option Instant)
      (sleep : Sleep) (next : Bool → Body S A V)
  | park (seat : Option Seat) (p : ParkerId) (deadline : Option Instant) (sleep : Sleep)
      (next : Except GuardError Unit → Body S A V)
  /-- Waiting for a guard without a task. -/
  | hold (seat : Option Seat) (cog : CogId) (p : ParkerId) (w : Wait S) (next : Answer → Body S A V)

structure Thread (S A V : Type) where
  /-- The cog whose tasks the thread hosts. -/
  cog : Option CogId
  control : Control S A V

structure Cog (S A V : Type) where
  name : String
  state : S
  scheduler : Scheduler S A V := {}
  /-- Tasks that have ended and were not cancelled. -/
  ended : Nat := 0
  listeners : List Listener := []
  /-- The thread that holds the scheduler's lock between two steps. -/
  lock : Option Agent := none
  /-- Whether somebody besides its contexts holds the cog. -/
  held : Bool := true

structure Machine (S A V : Type) where
  now : Instant := 0
  /-- Calls into guards so far. -/
  turn : Nat := 0
  registry : Registry
  contexts : Table ContextId Context := []
  parkers : Table ParkerId Parker := []
  futures : Table FutureId (Future (Settled V)) := []
  /-- Wakers that count how often they are woken. -/
  counters : Table Nat Nat := []
  cogs : Table CogId (Cog S A V) := []
  threads : Table Agent (Thread S A V) := []
  memory : A
  nextTask : TaskId := ⟨1⟩
  nextFuture : Nat := 1
  nextCog : Nat := 1
  nextCaller : Nat := 1
  reports : List Report := []
  deliveries : List Delivery := []

/-- Whether the thread `a` sleeps on the channel. -/
def Thread.sleepsOn {S A V : Type} (a : Agent) (t : Thread S A V) (ch : Channel) : Bool :=
  let own : Option Channel := a.context?.map fun c => .parker (.own c)
  match t.control with
  | .awaiting _ (.asleep ..) => t.cog.map Channel.slot = some ch
  | .awaiting _ (.wait _) => own = some ch
  | .idle .. => ch = .idle
  | .linger _ cog task .. => ch = .task cog task
  | .park _ p .. => ch = .parker p
  | .hold _ _ p .. => ch = .parker p
  | _ => false

/-- The control of a notified thread. -/
def Control.rouse {S A V : Type} : Control S A V → Control S A V
  | .awaiting a (.asleep failure deadline _) => .awaiting a (.asleep failure deadline true)
  | .awaiting a (.wait w) => .awaiting a (.wait w.notify)
  | .idle seat deadline sleep report next => .idle seat deadline sleep.notify report next
  | .linger seat cog t deadline sleep next => .linger seat cog t deadline sleep.notify next
  | .park seat p deadline sleep next => .park seat p deadline sleep.notify next
  | .hold seat cog p w next => .hold seat cog p w.notify next
  | c => c

namespace Machine

variable {S A V : Type}

def setControl (m : Machine S A V) (a : Agent) (c : Control S A V) : Machine S A V :=
  { m with threads := m.threads.modify a fun t => { t with control := c } }

def onCog (m : Machine S A V) (c : CogId) (f : Cog S A V → Cog S A V) : Machine S A V :=
  { m with cogs := m.cogs.modify c f }

def onScheduler (m : Machine S A V) (c : CogId) (f : Scheduler S A V → Scheduler S A V) :
    Machine S A V :=
  m.onCog c fun g => { g with scheduler := f g.scheduler }

def setLock (m : Machine S A V) (c : CogId) (holder : Option Agent) : Machine S A V :=
  m.onCog c fun g => { g with lock := holder }

/-- Whether nobody holds the lock of the cog's scheduler. -/
def unlocked (m : Machine S A V) (c : CogId) : Bool :=
  match m.cogs.get? c with
  | some g => g.lock.isNone
  | none => false

/-- A future that is not in the table is one that nobody has touched yet. -/
def future (m : Machine S A V) (f : FutureId) : Future (Settled V) := (m.futures.get? f).getD {}

def sight (m : Machine S A V) : Sight where
  now := m.now
  resolved f := (m.future f).resolved
  turn := m.turn

/-- After a call into a guard. -/
def turned (m : Machine S A V) : Machine S A V := { m with turn := m.turn + 1 }

/-- Every thread that sleeps on the channel is notified. -/
def notifyAll (m : Machine S A V) (ch : Channel) : Machine S A V :=
  { m with threads := m.threads.map fun (a, t) =>
      (a, if t.sleepsOn a ch then { t with control := t.control.rouse } else t) }

def parker (m : Machine S A V) (p : ParkerId) : Parker := (m.parkers.get? p).getD {}

def unpark (m : Machine S A V) (p : ParkerId) : Machine S A V :=
  ({ m with parkers := m.parkers.put p (m.parker p).unpark }).notifyAll (.parker p)

def interruptParker (m : Machine S A V) (p : ParkerId) : Machine S A V :=
  ({ m with parkers := m.parkers.put p (m.parker p).interrupt }).notifyAll (.parker p)

def interrupted (m : Machine S A V) (c : ContextId) : Bool := (m.parker (.own c)).interrupted

/-- Whether bodies can get hold of the parker. That of a context which hosts
tasks is known to this context and to the guards it waits for alone. -/
def lends (m : Machine S A V) : ParkerId → Bool
  | .loose _ => true
  | .own c => match m.contexts.get? c with
    | some x => x.cog.isNone
    | none => false

/-- Whether the cog still exists: somebody holds it or a thread hosts its tasks. -/
def cogExists (m : Machine S A V) (c : CogId) : Bool :=
  match m.cogs.get? c with
  | some g => g.held || m.threads.any fun e => e.2.cog = some c
  | none => false

/-- Whether the waker still exists. -/
def alive (m : Machine S A V) : Waker → Bool
  | .parker (.own c) => m.registry.live.contains c
  | .parker (.loose _) => true
  | .scheduler c => m.cogExists c
  | .counter n => m.counters.has n

/-- Registers a waker with futures. -/
def subscribe (m : Machine S A V) (w : Waker) (fs : List FutureId) : Machine S A V :=
  { m with
    futures := fs.foldl (fun t f =>
      t.put f (Future.subscribe ((t.get? f).getD {}) m.alive w)) m.futures }

/-- Wakes all who wait in the scheduler of a cog, for the slot or for a guard. -/
def broadcast (m : Machine S A V) (c : CogId) : Machine S A V :=
  match m.cogs.get? c with
  | some g => g.scheduler.waiters.foldl (fun m x => m.unpark (.own x)) (m.notifyAll (.slot c))
  | none => m

def report (m : Machine S A V) (r : Report) : Machine S A V := { m with reports := m.reports ++ [r] }

/-- The control that tells the listeners first, if there is something to tell. -/
def announce (cog : CogId) (kind : NoticeKind) (view : Option TaskView) (after : Control S A V) :
    Control S A V :=
  match view with
  | some task => .notify cog { kind, task } after
  | none => after

/-- Every listener of the cog gets the notice. -/
def deliver (m : Machine S A V) (c : CogId) (n : Notice) : Machine S A V :=
  match m.cogs.get? c with
  | some g =>
    { m with
      deliveries := m.deliveries ++
        (List.range g.listeners.length).map fun position => { cog := c, position, notice := n }
      reports := m.reports ++ g.listeners.flatMap fun l => l.trouble g.name n }
  | none => m

/-- The thread tells the listeners that a task has ended, whose waiters are notified, and goes on. -/
def announceEnd (m : Machine S A V) (a : Agent) (c : CogId) (outcome : TaskOutcome)
    (view : Option TaskView) (after : Control S A V) : Machine S A V :=
  let m := match view with
    | some v => m.notifyAll (.task c v.id)
    | none => m
  m.setControl a (announce c (.finished outcome) view after)

/-- A registry entry goes; who waits for the last one is notified. -/
def strike (m : Machine S A V) (c : ContextId) : Machine S A V :=
  let m := { m with registry := m.registry.strike c }
  if m.registry.live.isEmpty then m.notifyAll .idle else m

end Machine

end ObjectGroups
