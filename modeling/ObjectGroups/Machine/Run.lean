/-
Runs of the machine.

`Action` is everything that can happen: a thread takes its next step, or
something happens that no thread does. `act` performs an action, if it can
happen. A machine is settled when no thread can take a step; `settle` takes
steps until then, always of the first thread that can, for at most `fuel` of
them.
-/
import ObjectGroups.Machine.Step

namespace ObjectGroups

variable {S A V : Type}

inductive Action (S A V : Type) where
  | step (a : Agent)
  /-- Time passes. -/
  | pass (d : Span)
  /-- A sleeper wakes although nobody has notified it. -/
  | spurious (a : Agent)
  /-- A caller arrives from outside. -/
  | arrive (b : Body S A V)
  /-- The memory beside the cogs changes. -/
  | memory (change : A → A)
  | found (name : String) (state : S)
  | listen (c : CogId) (l : Listener)
  /-- The holder of a cog lets go of it. -/
  | drop (c : CogId)
  /-- The holder of the registry lets go of it. -/
  | release
  /-- A waker that counts is made. -/
  | count (n : Nat)
  /-- A waker that counts goes. -/
  | forget (n : Nat)

namespace Machine

/-- A machine at the beginning, with nothing in it. -/
def empty (registry : Registry) (memory : A) : Machine S A V := { registry, memory }

/-- A caller arrives, and is about to run `b`. -/
def arrive (m : Machine S A V) (b : Body S A V) : Machine S A V :=
  { m with
    nextCaller := m.nextCaller + 1
    threads := m.threads.put (.caller m.nextCaller) { cog := none, control := .run none b } }

/-- A new cog, and the machine with it. -/
def found (m : Machine S A V) (name : String) (state : S) : CogId × Machine S A V :=
  (⟨m.nextCog⟩,
    { m with nextCog := m.nextCog + 1, cogs := m.cogs.put ⟨m.nextCog⟩ { name, state } })

def act (m : Machine S A V) : Action S A V → Option (Machine S A V)
  | .step a => m.step a
  | .pass d => some { m with now := m.now + d }
  | .spurious a => some { m with
      threads := m.threads.modify a fun t => { t with control := t.control.rouse } }
  | .arrive b => some (m.arrive b)
  | .memory change => some { m with memory := change m.memory }
  | .found name state => some (m.found name state).2
  | .listen c l => some (m.onCog c fun g => { g with listeners := g.listeners ++ [l] })
  | .drop c => some (m.onCog c fun g => { g with held := false })
  | .release => some { m with registry := { m.registry with held := false } }
  | .count n => if m.counters.has n then none else some { m with counters := m.counters.put n 0 }
  | .forget n => some { m with counters := m.counters.remove n }

/-- Performs an action; one that cannot happen does nothing. -/
def perform (m : Machine S A V) (x : Action S A V) : Machine S A V := (m.act x).getD m

/-- What can come of a machine. -/
inductive Reachable (start : Machine S A V) : Machine S A V → Prop where
  | refl : Reachable start start
  | act {m m' : Machine S A V} {x : Action S A V} :
      Reachable start m → m.act x = some m' → Reachable start m'

/-- No thread can take a step. -/
def Settled (m : Machine S A V) : Prop := ∀ a, m.step a = none

/-- The first thread that can take a step takes it. -/
def advance? (m : Machine S A V) : Option (Machine S A V) :=
  m.threads.findSome? fun e => m.step e.1

def settle : Nat → Machine S A V → Machine S A V
  | 0, m => m
  | fuel + 1, m => match m.advance? with
    | some m' => settle fuel m'
    | none => m

/-- The earliest deadline of a sleeping thread that has not passed yet. -/
def nextDeadline (m : Machine S A V) : Option Instant :=
  Instant.earliest (m.threads.map fun e =>
    (match e.2.control with
      | .awaiting _ (.asleep _ deadline _) => deadline
      | .awaiting _ (.wait ⟨.park deadline _ _, _⟩) => deadline
      | .hold _ _ _ ⟨.park deadline _ _, _⟩ _ => deadline
      | .park _ _ deadline _ _ => deadline
      | .idle _ deadline _ _ _ => deadline
      | .linger _ _ _ deadline _ _ => deadline
      | _ => none).filter fun d => m.now < d)

end Machine

end ObjectGroups
