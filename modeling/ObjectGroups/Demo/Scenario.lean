/-
The two scenarios of the demonstration.

In one, producers and consumers share a buffer with few places: each awaits
that it is not full, or not empty, and then puts or takes one item. In the
other, one cog calls another again and again, waits a little each time, then
awaits the answer and adds it up.
-/
import ObjectGroups.Body
import ObjectGroups.Demo.CommandLine
import ObjectGroups.Registry

namespace ObjectGroups.Demo

structure Buffer where
  slots : List Nat := []
  capacity : Nat
  consumed : Nat := 0
  checksum : Nat := 0
deriving DecidableEq, Repr

structure Aggregator where
  total : Nat := 0
  samples : List Nat := []
deriving DecidableEq, Repr

/-- The state of one of the cogs. -/
inductive Holding where
  | buffer (b : Buffer)
  | sensor (readings : Nat)
  | aggregator (a : Aggregator)
deriving DecidableEq, Repr

/-- Why a demonstration ends early. -/
inductive Trouble where
  | load (path : String) (e : ConfigError)
  | environment (e : ConfigError)
  | noCapacity
  | runtime (e : RuntimeError)
  | late (t : TaskId) (timeout : Span)
  /-- Items of the buffer have been lost, or taken more than once. -/
  | lost (consumed total checksum expected : Nat)
  /-- The system has not that much memory, and ends the process. -/
  | exhausted (bytes : Nat)
deriving DecidableEq, Repr

/-- How the caller's part ended, once it has. -/
abbrev Verdict := Option (Exit Trouble Unit)

/-- What runs in a demonstration. -/
abbrev Part := Body Holding Verdict Nat

namespace Buffer

/-- Bytes for a place. -/
def placeSize : Nat := 8

def full (b : Buffer) : Bool := b.capacity ≤ b.slots.length

def put (x : Nat) (b : Buffer) : Buffer := { b with slots := b.slots ++ [x] }

def take (b : Buffer) : Buffer :=
  match b.slots with
  | [] => b
  | x :: xs => { b with slots := xs, consumed := b.consumed + 1, checksum := b.checksum + x }

/-- What is wrong with the buffer if `total` items, numbered from 0, have been put and taken. -/
def audit (total : Nat) (b : Buffer) : Option Trouble :=
  let expected := total * (total - 1) / 2
  if b.consumed ≠ total ∨ b.checksum ≠ expected then
    some (.lost b.consumed total b.checksum expected)
  else none

end Buffer

def Aggregator.add (x : Nat) (a : Aggregator) : Aggregator where
  total := a.total + x
  samples := a.samples ++ [x]

namespace Holding

def onBuffer (f : Buffer → Buffer) : Holding → Holding
  | .buffer b => .buffer (f b)
  | h => h

def onSensor (f : Nat → Nat) : Holding → Holding
  | .sensor n => .sensor (f n)
  | h => h

def onAggregator (f : Aggregator → Aggregator) : Holding → Holding
  | .aggregator a => .aggregator (f a)
  | h => h

def notFull : Guard Holding := .field "not full" fun h => match h with
  | .buffer b => .ok (!b.full)
  | _ => .ok false

def notEmpty : Guard Holding := .field "not empty" fun h => match h with
  | .buffer b => .ok (!b.slots.isEmpty)
  | _ => .ok false

end Holding

namespace Part

def done : Part := .exit (.ok 0)

/-- Awaits a guard; a body whose await fails ends so itself. -/
def awaiting (g : Guard Holding) (next : Unit → Part) : Part :=
  .await g fun r => match r with
    | .ok () => next ()
    | .error e => .exit (.error e)
    | .panic p => .exit (.panic p)

/-- Changes the state of the cog. -/
def change (f : Holding → Holding) (next : Unit → Part) : Part :=
  .access f (fun _ => next ()) (.exit (.error .notActive))

/-- Puts so many items into the buffer, from `first` on. -/
def produce (first : Nat) : Nat → Part
  | 0 => done
  | n + 1 => awaiting Holding.notFull fun _ => change (.onBuffer (·.put first)) fun _ =>
    produce (first + 1) n

def consume : Nat → Part
  | 0 => done
  | n + 1 => awaiting Holding.notEmpty fun _ => change (.onBuffer (·.take)) fun _ => consume n

/-- The `n`th call: what it answers is the square of `n`. -/
def reading (n : Nat) : Part :=
  .access (.onSensor (· + 1)) (fun _ => .exit (.ok (n * n))) (.exit (.error .notActive))

/-- The wait between a call and its answer. -/
def pace : Span := .ofMillis 2

/-- So many calls, from the `n`th on. -/
def collect (sensor : CogId) (n : Nat) : Nat → Part
  | 0 => done
  | k + 1 => Body.call sensor ("read-" ++ toString n) (reading n) fun r => match r with
    | .error e => .exit (.error (.failed e.message))
    | .panic p => .exit (.panic p)
    | .ok (_, f) => .request .now fun now => awaiting (.after now pace) fun _ =>
      awaiting (.future f) fun _ => .request (.peek f) fun v => match v with
        | none => .exit (.error (.failed "sensor reading missing"))
        | some (.error e) => .exit (.error e)
        | some (.ok x) => change (.onAggregator (·.add x)) fun _ => collect sensor (n + 1) k

/-! The caller. -/

def finish (r : Exit Trouble Unit) : Part := .memory (fun _ => some r) fun _ => done

def submitAll (g : CogId) : List (String × Part) → List TaskId → (List TaskId → Part) → Part
  | [], ts, next => next ts
  | (name, b) :: rest, ts, next => .submit g name b fun r => match r with
    | .ok t => submitAll g rest (ts ++ [t]) next
    | .error e => finish (.error (.runtime e))
    | .panic p => finish (.panic p)

def waitAll (g : CogId) (timeout : Span) : List TaskId → Part → Part
  | [], next => next
  | t :: ts, next => .request (.awaitTask g t timeout) fun finished =>
    if finished then waitAll g timeout ts next else finish (.error (.late t timeout))

/-- Submits tasks to a cog and waits for each of them. -/
def stage (g : CogId) (timeout : Span) (tasks : List (String × Part)) (next : Part) : Part :=
  submitAll g tasks [] fun ts => waitAll g timeout ts next

def bufferTasks (c : CommandLine) : List (String × Part) :=
  (List.range c.producers).flatMap fun p =>
    [("producer-" ++ toString p, produce (p * c.items) c.items),
      ("consumer-" ++ toString p, consume c.items)]

/-- The caller goes on with so many bytes, if memory can hold and the system has them. -/
def reserve (bytes : Nat) (next : Part) : Part :=
  if Word.half ≤ bytes then finish (.panic (.text "capacity overflow"))
  else if memoryLimit ≤ bytes then finish (.error (.exhausted bytes))
  else next

def bufferStage (c : CommandLine) (g : CogId) (timeout : Span) (next : Part) : Part :=
  if c.capacity = 0 then finish (.error .noCapacity)
  else reserve (c.capacity * Buffer.placeSize) (stage g timeout (bufferTasks c) next)

def futuresStage (c : CommandLine) (aggregator sensor : CogId) (timeout : Span) (next : Part) : Part :=
  stage aggregator timeout [("collect", collect sensor 0 c.calls)] next

def closing (patience : Span) : Part :=
  .request .shutdown fun _ => .request (.awaitTermination patience) fun _ => finish (.ok ())

end Part

end ObjectGroups.Demo
