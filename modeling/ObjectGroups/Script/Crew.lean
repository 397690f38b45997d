/-
A crew of contexts that host no tasks: each does its duty and ends. All share
one waker that counts, unless they were given one that is gone.
-/
import ObjectGroups.Script.World

namespace ObjectGroups.Script

/-- What a context does before it ends. -/
inductive Duty where
  | nothing
  /-- Waits until the gate of its name is open. -/
  | gate
  /-- Waits so, and panics. -/
  | panics
  | park
  | parkTwice
  | parkUntil (t : Instant)
deriving DecidableEq, Repr

inductive Order where
  | start (id label : String) (duty : Duty) (live : Bool)
  | interrupt (id : String)
  | interruptContext (c : ContextId)
  /-- Through the handle of the context. -/
  | cancel (id : String)
  | unpark (id : String)
  | openGate (id : String)
  | handle (id : String)
  | wakes
  | shutdown
  | awaitIdle (id : String) (d : Span)
  | advance (d : Span)
  | config
  | release

/-- Whether the order is for who holds the registry. -/
def Order.needsRegistry : Order → Bool
  | .start .. | .interrupt _ | .interruptContext _ | .shutdown | .awaitIdle .. | .config => true
  | _ => false

/-- How many contexts there are, and whether more may come. -/
structure Standing where
  live : List ContextId
  started : Nat
  shutdown : Bool
deriving DecidableEq, Repr

namespace Duty

def parkText : Except GuardError Unit → String
  | .ok () => "ok"
  | .error e => e.message

/-- Ends a context, and notes how. -/
def finish (id : String) (c : ContextId) (said : String) : Play :=
  .request (.isInterrupted (.own c)) fun interrupted => .request .isShutdown fun shutdown =>
    .memory (fun b => { b with ended := b.ended.put id (.ending said c interrupted shutdown) })
      fun _ => Acting.nothing

def playAs (id : String) (c : ContextId) : Duty → Play
  | .nothing => finish id c "exit"
  | .gate => .block (·.isOpen id) (finish id c "gate")
  | .panics => .block (·.isOpen id) (.exit (.panic (.text "told to panic")))
  | .park => .request (.park (.own c) none) fun r => finish id c (parkText r)
  | .parkTwice => .request (.park (.own c) none) fun r => .request (.park (.own c) none) fun q =>
    finish id c (parkText r ++ " " ++ parkText q)
  | .parkUntil t => .request (.park (.own c) (some t)) fun r => finish id c (parkText r)

/-- What the context of that name runs. -/
def play (id : String) (d : Duty) : Play :=
  .request .place fun p => match p.context with
    | some c => d.playAs id c
    | none => Acting.nothing

end Duty

abbrev Crew := World

namespace Crew

/-- The waker of the crew, and one that never was. -/
def sharedWaker : Waker := .counter 0

def lostWaker : Waker := .counter 1

def start (namePrefix : String) (stackSize : Option Nat) : Crew :=
  let bare : Crew := .empty (.create namePrefix stackSize) {}
  bare.perform (.count 0)

def described (m : Crew) (c : ContextId) : Reading :=
  match m.contexts.get? c with
  | some x => .context c x
  | none => .absent

/-- A caller does something to the context of that name. -/
def onContext (m : Crew) (id : String) (f : ContextId → (Reading → Play) → Play) : Crew :=
  match m.memory.contexts.get? id with
  | some c => m.calling (f c)
  | none => m.withResult .absent

def make (m : Crew) : Order → Crew
  | .start id label duty live => m.calling fun next =>
    .start label (if live then sharedWaker else lostWaker) (duty.play id) fun r => match r with
      | .ok c => .memory (fun b => { b with contexts := b.contexts.put id c }) fun _ =>
        next (.int c.val)
      | .error e => next (.refused e)
      | .panic p => next (.panic p.message)
  | .interrupt id => onContext m id fun c next => .request (.interrupt c) fun live => next (.flag live)
  | .interruptContext c => m.calling fun next => .request (.interrupt c) fun live => next (.flag live)
  | .cancel id => onContext m id fun c next => .request (.cancel c) fun _ => next .done
  | .unpark id => onContext m id fun c next => .request (.wake (.parker (.own c))) fun _ => next .done
  | .openGate id => (m.noting (·.openGate id)).withResult .done
  | .handle id => onContext m id fun c next =>
    .request (.isInterrupted (.own c)) fun interrupted => .request .isShutdown fun shutdown =>
      next (.flags [interrupted, shutdown])
  | .wakes => m.withResult (.int ((m.counters.get? 0).getD 0))
  | .shutdown => m.calling fun next => .request .shutdown fun _ => next .done
  | .awaitIdle id d => m.callingLater id fun next => .request (.awaitIdle d) fun r => next (.flag r)
  | .advance d => (m.perform (.pass d)).withResult .done
  | .config => m.withResult (.config m.registry.namePrefix m.registry.stackSize)
  | .release => (m.perform .release).withResult (.flag m.registry.held)

/-- What the holder of the registry sees. -/
def standing (m : Crew) : Option Standing :=
  if m.registry.held then some ⟨m.registry.liveIds, m.registry.started, m.registry.shutdown⟩ else none

/-- Gives an order, lets everything run, and tells what came of it, who has
ended, and how the crew stands. -/
def step (m : Crew) (o : Order) : (Reading × Table String Reading × Option Standing) × Crew :=
  let m := if o.needsRegistry && !m.registry.held then m.withResult .absent else make m o
  let (result, ended, m) := (m.settle Machine.patience).takeResults
  let result := match o, result with
    | .start .., .int n => described m ⟨n.toNat⟩
    | _, r => r
  ((result, ended, standing m), m)

def play : Crew → List Order → List (Reading × Table String Reading × Option Standing)
  | _, [] => []
  | m, o :: os =>
    let (x, m) := step m o
    x :: play m os

end Crew

end ObjectGroups.Script
