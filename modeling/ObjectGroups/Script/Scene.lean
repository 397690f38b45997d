/-
A scripted scene: a runtime with cogs of variables, and calls from outside,
one after the other.

After each call everything runs until it is blocked. Then the body with the
lowest task number of those that wait for their turn, and not at a closed
gate, is granted one step, until none can move. So exactly one step happens at
a time, and what a call comes to does not depend on which thread was faster.

The answer to a call tells what it returned, the steps in their order, what
the listeners heard, which blocking calls have returned, what was reported,
and every fact that is no longer what it was.
-/
import ObjectGroups.Machine.Create
import ObjectGroups.Script.World

namespace ObjectGroups.Script

/-- What a listener does with a notice. -/
inductive Manner where
  | records
  | fails
  | panics
  /-- Hears nothing. -/
  | quiet
deriving DecidableEq, Repr

def Manner.listener (x : Manner) : Listener where
  answer n := match x with
    | .records | .quiet => .ok ()
    | .fails => .error (.listener ("no " ++ n.kind.name))
    | .panics => .panic (.text n.kind.name)

inductive Call where
  | submit (cog name : String) (steps : List Step)
  | call (cog name f : String) (steps : List Step)
  | resolve (f : String) (n : Int)
  | peek (f : String)
  | openGate (g : String)
  | closeGate (g : String)
  | advance (d : Span)
  | interrupt (t : TaskId)
  | interruptContext (c : ContextId)
  | shutdown
  | awaitIdle (id : String) (d : Span)
  | awaitTermination (id : String)
  | awaitTask (id : String) (t : TaskId) (d : Span)
  | found (name : String) (vars : Table String Int)
  | drop (name : String)
  | listen (cog id : String) (manner : Manner)
  | view (cog : String)
  | snapshot (cog : String)
  | describe (cog : String)
  | describeTask (t : TaskId)
  | evaluate (cog : String) (e : Expr)
  | noteEnded (cog : String)

/-- Something that can be observed from outside. -/
inductive Fact where
  | vars (t : Table String Int)
  | lines (xs : List String)
  | task (t : Option TaskId)
  | context (c : Option ContextId)
  | count (n : Nat)
  | metrics (m : Metrics)
  | tasks (ts : List TaskId)
  | views (vs : List TaskView)
  | handle (name : String) (h : TaskHandle)
  | contexts (cs : List ContextId)
  | flag (b : Bool)
deriving DecidableEq

/-- A notice as a named listener heard it. -/
structure Heard where
  listener : String
  notice : Notice

structure Reply where
  result : Reading
  trace : List TraceEntry
  heard : List Heard
  ended : Table String Reading
  reports : List Report
  changed : Table String Fact

structure Scene where
  machine : World
  shutdownTimeout : Span
  /-- Names and manners of the listeners, by cog and position. -/
  ears : Table (CogId × Nat) (String × Manner) := []
  /-- The cogs whose view is kept, by the name under which it was asked for. -/
  views : Table String CogId := []
  /-- Whether the facts tell what views show. -/
  watching : Bool
  facts : Table String Fact := []

namespace Scene

/-- The facts about the cog of that name. -/
def cogFacts (watching : Bool) (name : String) (g : Cog Store Bench Int) : Table String Fact :=
  let s := g.scheduler
  [(name ++ ".vars", .vars g.state.vars.byName),
    (name ++ ".log", .lines g.state.log),
    (name ++ ".active", .task (s.activeView.map (·.id))),
    (name ++ ".active_ctx", .context s.active),
    (name ++ ".queued", .count s.queue.length),
    (name ++ ".ended", .count g.ended),
    (name ++ ".metrics", .metrics s.metrics)] ++
  if watching then
    [(name ++ ".schedulable", .tasks (s.schedulable.map (·.id))),
      (name ++ ".ready", .tasks (s.ready.map (·.id))),
      (name ++ ".suspended", .views s.suspended)]
  else []

def allFacts (watching : Bool) (m : World) : Table String Fact :=
  (m.memory.cogs.flatMap fun e => match m.cogs.get? e.2 with
    | some g => cogFacts watching e.1 g
    | none => []) ++
  (m.memory.accepted.filterMap fun e =>
    ((m.cogs.get? e.2.1).bind fun g => g.scheduler.handles.get? e.1).map fun h =>
      ("task " ++ toString e.1.val, .handle e.2.2 h)) ++
  [("live", .contexts m.registry.liveIds),
    ("started", .count m.registry.started),
    ("shutdown", .flag m.registry.shutdown)]

/-- A new cog under that name, which another cog may have had. -/
def addCog (s : Scene) (name : String) (vars : Table String Int) : Scene :=
  let m := match s.machine.memory.cogs.get? name with
    | some old => s.machine.perform (.drop old)
    | none => s.machine
  let (c, m) := m.found name { vars }
  { s with
    machine := m.perform (.memory fun b => { b with cogs := b.cogs.put name c }) }

/-- A runtime of that configuration with the given cogs. -/
def start (config : RuntimeConfig) (watching : Bool) (cogs : List (String × Table String Int)) :
    Except RuntimeError Scene :=
  match Machine.create config {} with
  | .error e => .error e
  | .ok machine =>
    let bare : Scene := { machine, shutdownTimeout := config.threads.shutdownTimeout, watching }
    let s := cogs.foldl (fun s c => s.addCog c.1 c.2) bare
    .ok { s with facts := allFacts watching s.machine }

def on (s : Scene) (f : World → World) : Scene :=
  { s with machine := f s.machine }

def noting (s : Scene) (f : Bench → Bench) : Scene := s.on (·.noting f)

/-- The scene with the result of a call that needs no thread. -/
def withResult (s : Scene) (r : Reading) : Scene := s.on (·.withResult r)

def calling (s : Scene) (f : (Reading → Play) → Play) : Scene := s.on (·.calling f)

def callingLater (s : Scene) (id : String) (f : (Reading → Play) → Play) : Scene :=
  s.on (·.callingLater id f)

/-- The cog of that name. -/
def cog? (s : Scene) (name : String) : Option CogId := s.machine.memory.cogs.get? name

def make (s : Scene) : Call → Scene
  | .submit cog name steps => s.calling fun next =>
    Acting.submit cog name (script steps) fun r => next (.ofSubmission r)
  | .call cog name f steps => s.calling fun next =>
    Acting.call cog name f (script steps) fun r => next (.ofSubmission r)
  | .resolve f n => s.calling (Acting.resolve f n)
  | .peek f => s.calling (Acting.peek f)
  | .openGate g => (s.noting (·.openGate g)).withResult .done
  | .closeGate g => s.noting fun b =>
    { b with opened := b.opened.filter (· ≠ g), result := some (.flag (b.isOpen g)) }
  | .advance d => (s.on (·.perform (.pass d))).withResult .done
  | .interrupt t => s.calling (Acting.interrupt t)
  | .interruptContext c => s.calling fun next => .request (.interrupt c) fun live => next (.flag live)
  | .shutdown => s.calling fun next => .request .shutdown fun _ => next .done
  | .awaitIdle id d => s.callingLater id fun next => .request (.awaitIdle d) fun r => next (.flag r)
  | .awaitTermination id => s.callingLater id fun next =>
    .request (.awaitTermination s.shutdownTimeout) fun r => next (.flag r)
  | .awaitTask id t d => match s.machine.memory.accepted.get? t with
    | some (c, _) => s.callingLater id fun next =>
      .request (.awaitTask c t d) fun r => next (.flag r)
    | none => s.withResult .absent
  | .found name vars => (s.addCog name vars).withResult .done
  | .drop name => match s.cog? name with
    | some c => ((s.on (·.perform (.drop c))).noting fun b =>
        { b with cogs := b.cogs.remove name }).withResult (.flag true)
    | none => s.withResult (.flag false)
  | .listen cog id manner => match s.cog? cog with
    | some c =>
      let position := ((s.machine.cogs.get? c).map (·.listeners.length)).getD 0
      ({ s with ears := s.ears.put (c, position) (id, manner) }.on
        (·.perform (.listen c manner.listener))).withResult .done
    | none => s.withResult .absent
  | .view cog => match s.cog? cog with
    | some c => { s with views := s.views.put cog c }.withResult (.flag true)
    | none => s.withResult .absent
  | .snapshot cog => s.withResult <| match (s.views.get? cog).bind s.machine.snapshot with
    | some x => .snapshot x
    | none => .absent
  | .describe cog => s.withResult <| match s.cog? cog with
    | some c => .cog c cog
    | none => .absent
  | .describeTask t => match s.machine.memory.accepted.get? t with
    | some (c, name) => match (s.machine.cogs.get? c).bind fun g => g.scheduler.handles.get? t with
      | some h =>
        let fresh := s.machine.nextTask
        (s.on fun m => { m with nextTask := fresh.next }).withResult
          (.texts [h.text t, fresh.describe name])
      | none => s.withResult .absent
    | none => s.withResult .absent
  | .evaluate cog e => match s.cog? cog with
    | some c => s.calling fun next =>
      Acting.build e fun g => .request (.evaluate c g) fun r => next (.ofAnswer r)
    | none => s.withResult .absent
  | .noteEnded cog => match s.cog? cog with
    | some c => (s.on (·.onCog c fun g => { g with ended := g.ended + 1 })).withResult .done
    | none => s.withResult .absent

/-- What the listeners that record heard, task by task. -/
def heard (s : Scene) : List Heard :=
  (s.machine.deliveries.filterMap fun d => match s.ears.get? (d.cog, d.position) with
    | some (id, manner) =>
      if manner = .quiet then none else some { listener := id, notice := d.notice }
    | none => none).mergeSort fun a b => a.notice.task.id.val ≤ b.notice.task.id.val

/-- Makes a call, lets everything run, and tells what has come of it. -/
def step (s : Scene) (c : Call) : Reply × Scene :=
  let s := s.make c
  let s := s.on (Machine.conduct Machine.patience)
  let facts := allFacts s.watching s.machine
  let changed := facts.filter fun e => s.facts.get? e.1 ≠ some e.2
  let (result, ended, m) := s.machine.takeResults
  ({ result, trace := m.memory.trace, heard := s.heard, ended, reports := m.reports, changed },
   { s with
     facts
     machine :=
       { m with reports := [], deliveries := [], memory := { m.memory with trace := [] } } })

def play : Scene → List Call → List Reply
  | _, [] => []
  | s, c :: cs =>
    let (r, s) := s.step c
    r :: play s cs

end Scene

end ObjectGroups.Script
