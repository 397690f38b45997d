/-
The next step of a thread.

`step m a` is what the thread `a` does next, or nothing if it is blocked: by
a lock, asleep, or in a body that waits for memory beside the cogs.
`Action` adds what no thread does: the clock moves, a sleeper wakes without
being notified, a caller arrives, memory beside the cogs changes.
-/
import ObjectGroups.Machine.Await

namespace ObjectGroups

variable {S A V : Type}

namespace Machine

/-- The run loop of a context: take the next task or leave. -/
def stepClaim (m : Machine S A V) (a : Agent) (c : ContextId) (g : CogId) (x : Cog S A V) :
    Option (Machine S A V) :=
  if x.lock.isSome then none
  else
    match x.scheduler.claim c m.registry.shutdown m.now with
    | (some (t, body), scheduler) =>
      some ((m.onScheduler g fun _ => scheduler).setControl a (.run (some ⟨t, true⟩) body))
    | (none, scheduler) =>
      some (((m.onScheduler g fun _ => scheduler).broadcast g).setControl a .leave)

def stepEnrol (m : Machine S A V) (a : Agent) (seat : Option Seat) (g : CogId) (view : TaskView)
    (task : Body S A V) (next : Exit RuntimeError TaskId → Body S A V) : Option (Machine S A V) :=
  match m.cogs.get? g with
  | none => none
  | some x =>
    if x.lock.isSome then none
    else
      let m := m.onScheduler g (·.enqueue view task)
      if x.scheduler.active.isNone then
        some ((m.setLock g (some a)).setControl a (.starting .check (.submission seat g view next)))
      else
        some ((m.broadcast g).setControl a
          (announce g .added (some view) (.run seat (next (.ok view.id)))))

/-- The body has ended with `r`. -/
def stepExit (m : Machine S A V) (a : Agent) (t : Thread S A V) (seat : Option Seat)
    (r : Exit TaskError V) : Machine S A V :=
  match a, t.cog, seat with
  | .caller _, _, _ => { m with threads := m.threads.remove a }
  | .context _, some g, some s =>
    if s.active then
      let name := ((m.cogs.get? g).map (·.name)).getD ""
      let m := match r with
        | .ok _ => m
        | .error e => m.report (.taskFailed name s.task e)
        | .panic p => m.report (.taskPanicked name s.task p)
      let outcome : TaskOutcome := match r with
        | .ok _ => .completed
        | _ => .failed
      (m.onCog g fun x => { x with ended := x.ended + 1 }).setControl a (.complete s.task outcome)
    else m.setControl a (.strand s.task)
  | .context _, _, _ => m.setControl a .leave

def stepComplete (m : Machine S A V) (a : Agent) (g : CogId) (x : Cog S A V) (t : TaskId)
    (outcome : TaskOutcome) : Option (Machine S A V) :=
  if x.lock.isSome then none
  else
    let (view, scheduler) := x.scheduler.complete t outcome m.now
    some (((m.onScheduler g fun _ => scheduler).broadcast g).announceEnd a g outcome view .claim)

def stepStrand (m : Machine S A V) (a : Agent) (c : ContextId) (g : CogId) (x : Cog S A V)
    (t : TaskId) : Option (Machine S A V) :=
  if x.lock.isSome then none
  else
    let s := x.scheduler.removeWaiter c
    if s.records.has t then
      let (view, scheduler) := s.strand t c m.now
      let m := (m.onCog g fun y => { y with scheduler, ended := y.ended + 1 }).broadcast g
      some ((m.report (.leftOutside x.name c t)).announceEnd a g .failed view .leave)
    else some ((m.onScheduler g fun _ => s).setControl a .leave)

/-- The signals that interrupt a context: its flag, then whom to wake. -/
def interruption (m : Machine S A V) (c : ContextId) : List Signal :=
  match m.contexts.get? c with
  | some x => [.interrupt (.own c), .wake x.waker]
  | none => []

def stepSignal (m : Machine S A V) (a : Agent) (seat : Option Seat) (next : Body S A V) :
    List Signal → Option (Machine S A V)
  | [] => some (m.setControl a (.run seat next))
  | s :: rest =>
    let done (m : Machine S A V) : Option (Machine S A V) :=
      some (m.setControl a (.signal seat rest next))
    match s with
    | .interrupt p => done (m.interruptParker p)
    | .wake (.parker p) => done (m.unpark p)
    | .wake (.counter n) => done { m with counters := m.counters.modify n (· + 1) }
    | .wake (.scheduler g) =>
      if !m.cogExists g then done m
      else if m.unlocked g then done (m.notifyAll (.slot g))
      else none

def stepRequest (m : Machine S A V) (a : Agent) (t : Thread S A V) (seat : Option Seat)
    (r : Request S V) (next : r.Reply → Body S A V) : Machine S A V :=
  let run (m : Machine S A V) (b : Body S A V) : Machine S A V := m.setControl a (.run seat b)
  match r, next with
  | .place, next =>
    let cogName := ((t.cog.bind m.cogs.get?).map (·.name)).getD ""
    run m (next { context := a.context?, cog := t.cog, cogName, seat })
  | .now, next => run m (next m.now)
  | .advance d, next => run { m with now := m.now + d } (next ())
  | .newFuture, next =>
    run { m with nextFuture := m.nextFuture + 1 } (next ⟨m.nextFuture⟩)
  | .peek f, next => run m (next (m.future f).value)
  | .resolve f v, next => match (m.future f).resolve v with
    | none => run m (next (some v))
    | some (waiters, f') =>
      { m with futures := m.futures.put f f' }.setControl a
        (.signal seat (waiters.map .wake) (next none))
  | .interrupt c, next =>
    if m.registry.live.contains c then m.setControl a (.signal seat (m.interruption c) (next true))
    else run m (next false)
  | .cancel c, next => m.setControl a (.signal seat (m.interruption c) (next ()))
  | .interruptParker p, next =>
    if m.lends p then m.setControl a (.signal seat [.interrupt p] (next ())) else run m (next ())
  | .wake w, next => m.setControl a (.signal seat [.wake w] (next ()))
  | .shutdown, next =>
    if m.registry.shutdown then run m (next ())
    else { m with registry := { m.registry with shutdown := true } }.setControl a (.sweep seat (next ()))
  | .isShutdown, next => run m (next m.registry.closed)
  | .isInterrupted p, next => run m (next (m.parker p).interrupted)
  | .tasks g, next => run m (next (((m.cogs.get? g).map (·.scheduler.views)).getD []))
  | .evaluate g guard, next => match m.cogs.get? g with
    | some x => run m.turned (next (guard.evaluate m.sight x.state))
    | none => run m (next (.ok false))
  | .wait g guard p, next => m.setControl a (.hold seat g p (.start guard) next)
  | .park p deadline, next => m.setControl a (.park seat p deadline .awake next)
  | .awaitIdle d, next => m.setControl a (.idle seat (m.now.after? d) .awake none next)
  | .awaitTermination d, next => m.setControl a (.idle seat (m.now.after? d) .awake (some d) next)
  | .awaitTask g task d, next => m.setControl a (.linger seat g task (m.now.after? d) .awake next)

def stepBody (m : Machine S A V) (a : Agent) (t : Thread S A V) (seat : Option Seat)
    (b : Body S A V) : Option (Machine S A V) :=
  match b with
  | .exit r => some (m.stepExit a t seat r)
  | .access change next refused =>
    let refuse := some (m.setControl a (.run seat refused))
    match t.cog, seat with
    | some g, some s => match m.cogs.get? g with
      | some x =>
        if s.active then
          some ((m.onCog g fun y => { y with state := change y.state }).setControl a
            (.run seat (next x.state)))
        else refuse
      | none => refuse
    | _, _ => refuse
  | .memory change next =>
    some ({ m with memory := change m.memory }.setControl a (.run seat (next m.memory)))
  | .block ready next => if ready m.memory then some (m.setControl a (.run seat next)) else none
  | .await guard next => match seat with
    | some ⟨task, true⟩ =>
      some (m.turned.setControl a
        (.awaiting { task, guard, label := awaitLabel m.sight guard, next } .release))
    | _ => some (m.setControl a (.run seat (next (.error .notActive))))
  | .submit g name task next =>
    let view : TaskView := { id := m.nextTask, name, cog := g, submittedAt := m.now }
    let m := { m with nextTask := m.nextTask.next }
    if m.registry.shutdown then some (m.setControl a (.run seat (next (.error .shutDown))))
    else some (m.setControl a (.enrol seat g view task next))
  | .start label waker main next =>
    some (m.setControl a (.starting .check (.direct seat label waker main next)))
  | .request r next => some (m.stepRequest a t seat r next)

/-- One turn of a wait on a condition variable that tells at its end whether `holds`. -/
def boundedTurn (now : Instant) (holds : Bool) (deadline : Option Instant) :
    Sleep → Option (Turn Bool)
  | .asleep false => if Instant.due now deadline then some (.ended holds) else none
  | _ => some (if holds then .ended true else .sleeps)

/-- The next step of the thread `a`, or nothing if it is blocked or has ended. -/
def step (m : Machine S A V) (a : Agent) : Option (Machine S A V) :=
  match m.threads.get? a with
  | none => none
  | some t => match t.control with
    | .run seat b => m.stepBody a t seat b
    | .enrol seat g view task next => m.stepEnrol a seat g view task next
    | .starting stage e => some (m.stepStart a t.cog stage e)
    | .leave => match a with
      | .context c => some ({ m with threads := m.threads.remove a }.strike c)
      | .caller _ => some { m with threads := m.threads.remove a }
    | .notify g n after => some ((m.deliver g n).setControl a after)
    | .signal seat signals next => m.stepSignal a seat next signals
    | .sweep seat next =>
      some (m.setControl a (.signal seat (m.registry.live.flatMap m.interruption) next))
    | .idle seat deadline sleep report next =>
      match boundedTurn m.now m.registry.live.isEmpty deadline sleep with
      | none => none
      | some .sleeps => some (m.setControl a (.idle seat deadline (.asleep false) report next))
      | some (.ended b) =>
        let m := match b, report with
          | false, some d => m.report (.stillLive m.registry.live.length d)
          | _, _ => m
        some (m.setControl a (.run seat (next b)))
    | .linger seat g task deadline sleep next =>
      let finished := match (m.cogs.get? g).bind fun x => x.scheduler.handles.get? task with
        | some h => h.finished
        | none => false
      match boundedTurn m.now finished deadline sleep with
      | none => none
      | some .sleeps => some (m.setControl a (.linger seat g task deadline (.asleep false) next))
      | some (.ended b) => some (m.setControl a (.run seat (next b)))
    | .park seat p deadline sleep next =>
      if !m.lends p then none
      else match (m.parker p).look m.now deadline sleep with
        | none => none
        | some .sleeps => some (m.setControl a (.park seat p deadline (.asleep false) next))
        | some (.ended (r, p')) =>
          some ({ m with parkers := m.parkers.put p p' }.setControl a (.run seat (next r)))
    | .hold seat g p w next => match w.result? with
      | some r => some (m.setControl a (.run seat (next r)))
      | none => match m.cogs.get? g with
        | none => none
        | some x =>
          if !m.lends p then none
          else match w.step m.sight x.state (m.parker p) with
            | none => none
            | some move =>
              let m := { m with parkers := m.parkers.put p move.parker }
              some ((m.subscribe (.parker p) move.joins).turned.setControl a
                (.hold seat g p move.wait next))
    | .claim => match a, t.cog.bind fun g => (m.cogs.get? g).map fun x => (g, x) with
      | .context c, some (g, x) => m.stepClaim a c g x
      | _, _ => none
    | .awaiting aw phase => match a, t.cog.bind fun g => (m.cogs.get? g).map fun x => (g, x) with
      | .context c, some (g, x) => m.stepAwait a c g x aw phase
      | _, _ => none
    | .complete task outcome => match t.cog.bind fun g => (m.cogs.get? g).map fun x => (g, x) with
      | some (g, x) => m.stepComplete a g x task outcome
      | none => none
    | .strand task => match a, t.cog.bind fun g => (m.cogs.get? g).map fun x => (g, x) with
      | .context c, some (g, x) => m.stepStrand a c g x task
      | _, _ => none

end Machine

end ObjectGroups
