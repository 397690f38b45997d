/-
A rig for guards: one cog, and guards, futures, parkers and wakers that count,
all by name. Parkers and futures come into being when they are first named.

Each trial asks one guard, changes what guards look at, or has a caller park
or wait on a thread of its own. After it everything runs until it is blocked.
-/
import ObjectGroups.Script.World

namespace ObjectGroups.Script

inductive Trial where
  | build (g : String) (e : Expr)
  | poll (g : String)
  | evaluate (g : String)
  | label (g : String)
  | stays (g : String)
  | deadline (g : String)
  /-- Registers a waker, which is made if there is none of that name. -/
  | subscribe (g w : String)
  /-- How often a waker has been woken. -/
  | wakes (w : String)
  | dropWaker (w : String)
  | set (v : String) (n : Int)
  | resolve (f : String) (n : Int)
  | peek (f : String)
  | resolved (f : String)
  | describeFuture (f : String)
  /-- Settles a new future with `a`, then with `b`. -/
  | settleTwice (a b : String)
  /-- A timer from now, or until an instant of the clock. -/
  | timer (relative : Bool) (d : Span)
  | fieldName (name : String)
  | advance (d : Span)
  | unpark (p : String)
  | interrupt (p : String)
  | isInterrupted (p : String)
  | describeParker (p : String)
  | park (id p : String) (deadline : Option Instant)
  | wait (id g p : String)

structure Rig where
  machine : World
  cog : CogId
  parkers : List String := []
  wakers : Table String Nat := []
  nextWaker : Nat := 0

namespace Rig

def start (vars : Table String Int) : Rig :=
  let bare : World := .empty (.create "cog" none) {}
  let (cog, machine) := bare.found "guards" { vars }
  { machine, cog }

def on (r : Rig) (f : World → World) : Rig := { r with machine := f r.machine }

def withResult (r : Rig) (x : Reading) : Rig := r.on (·.withResult x)

def state (r : Rig) : Store := ((r.machine.cogs.get? r.cog).map (·.state)).getD {}

/-- The parker of that name, and the rig in which the name is known. -/
def parker (r : Rig) (name : String) : ParkerId × Rig :=
  (.loose (r.parkers.idxOf name),
    if r.parkers.contains name then r else { r with parkers := r.parkers ++ [name] })

/-- The waker of that name, and the rig in which there is one. -/
def waker (r : Rig) (name : String) : Nat × Rig :=
  match r.wakers.get? name with
  | some n => (n, r)
  | none =>
    (r.nextWaker,
      { r.on (·.perform (.count r.nextWaker)) with
        wakers := r.wakers.put name r.nextWaker
        nextWaker := r.nextWaker + 1 })

/-- Asks the guard of that name. -/
def asking (r : Rig) (g : String) (f : Guard Store → Reading) : Rig :=
  r.withResult <| match r.machine.memory.guards.get? g with
    | some guard => f guard
    | none => .absent

/-- A caller does something to a parker. -/
def signalling (r : Rig) (p : String) (f : ParkerId → Play → Play) : Rig :=
  let (p, r) := r.parker p
  r.on (·.calling fun next => f p (next .done))

def timerReading (v : Sight) (g : Guard Store) : Reading :=
  match g with
  | .timer deadline requested => .timer deadline requested (Guard.timerText deadline requested)
  | _ => .ofCall .text (g.label v)

def make (r : Rig) : Trial → Rig
  | .build g e => r.on (·.calling fun next => Acting.build e fun guard =>
    .memory (fun b => { b with guards := b.guards.put g guard }) fun _ => next .done)
  | .poll g => r.asking g fun guard => .ofAnswer (guard.poll r.machine.sight r.state)
  | .evaluate g => r.asking g fun guard => .ofAnswer (guard.evaluate r.machine.sight r.state)
  | .label g => r.asking g fun guard => .ofCall .text (guard.label r.machine.sight)
  | .stays g => r.asking g fun guard => .ofCall .flag (guard.stays r.machine.sight)
  | .deadline g => r.asking g fun guard => .ofCall .instant (guard.deadline r.machine.sight)
  | .subscribe g w =>
    let (w, r) := r.waker w
    match r.machine.memory.guards.get? g with
    | none => r.withResult .absent
    | some guard =>
      let (fs, any) := guard.sources r.machine.sight
      (r.on (·.subscribe (.counter w) fs)).withResult (.ofCall .flag any)
  | .wakes w => r.withResult <| match (r.wakers.get? w).bind r.machine.counters.get? with
    | some n => .int n
    | none => .absent
  | .dropWaker w => match r.wakers.get? w with
    | some n => ({ r with wakers := r.wakers.remove w }.on (·.perform (.forget n))).withResult (.flag true)
    | none => r.withResult (.flag false)
  | .set v n => (r.on (·.onCog r.cog fun g => { g with state := g.state.write v n })).withResult .done
  | .resolve f n => r.on (·.calling (Acting.resolve f n))
  | .peek f => r.on (·.calling (Acting.peek f))
  | .resolved f => r.on (·.calling fun next => Acting.future f fun f =>
    .request (.peek f) fun x => next (.flag x.isSome))
  | .describeFuture f => r.on (·.calling fun next => Acting.future f fun f =>
    .request (.peek f) fun x => next (.text (Future.text { value := x })))
  | .settleTwice a b =>
    let fresh : Future String := {}
    let first := ((fresh.resolve a).map (·.2)).getD fresh
    r.withResult (.settledTwice (fresh.resolve a).isSome
      (if (first.resolve b).isSome then none else some b) first.value)
  | .timer relative d =>
    let now := r.machine.now
    r.withResult (timerReading r.machine.sight (if relative then .after now d else .until_ now d))
  | .fieldName name =>
    let guard : Guard Store := .field name fun _ => .ok true
    r.withResult (.ofCall (fun label => .texts [name, label]) (guard.label r.machine.sight))
  | .advance d => (r.on (·.perform (.pass d))).withResult .done
  | .unpark p => r.signalling p fun p next => .request (.wake (.parker p)) fun _ => next
  | .interrupt p => r.signalling p fun p next => .request (.interruptParker p) fun _ => next
  | .isInterrupted p =>
    let (p, r) := r.parker p
    r.withResult (.flag (r.machine.parker p).interrupted)
  | .describeParker p =>
    let (p, r) := r.parker p
    let x := r.machine.parker p
    r.withResult (.flags [x.permit, x.interrupted])
  | .park id p deadline =>
    let (p, r) := r.parker p
    r.on (·.callingLater id fun next => .request (.park p deadline) fun x => next (.ofPark x))
  | .wait id g p =>
    let (p, r) := r.parker p
    match r.machine.memory.guards.get? g with
    | some guard => r.on (·.callingLater id fun next =>
      .request (.wait r.cog guard p) fun x => next (.ofAnswer x))
    | none => r.withResult .absent

/-- Makes a trial, lets everything run, and tells what came of it and which
waits have ended. -/
def step (r : Rig) (t : Trial) : (Reading × Table String Reading) × Rig :=
  let r := r.make t
  let (result, ended, m) := (r.machine.settle Machine.patience).takeResults
  ((result, ended), { r with machine := m })

def play : Rig → List Trial → List (Reading × Table String Reading)
  | _, [] => []
  | r, t :: ts =>
    let (x, r) := r.step t
    x :: play r ts

end Rig

end ObjectGroups.Script
