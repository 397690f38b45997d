/-
A machine that runs scripts, and what is done to it from outside: calls that
callers make on threads of their own, and turns granted to the bodies.

The bench keeps what a call returned (`result`), and by name what the blocking
calls have returned so far (`ended`). Whoever reads them takes them away.
-/
import ObjectGroups.Machine.Run
import ObjectGroups.Script.Step

namespace ObjectGroups

open Script

/-- A machine that runs scripts. -/
abbrev Script.World := Machine Store Bench Int

namespace Machine

def noting (m : World) (f : Bench → Bench) : World := m.perform (.memory f)

/-- With the result of a call that needs no thread. -/
def withResult (m : World) (r : Reading) : World := m.noting fun b => { b with result := some r }

/-- A caller makes a call that notes what it came to. -/
def calling (m : World) (f : (Reading → Play) → Play) : World :=
  m.arrive (f fun r => .memory (fun b => { b with result := some r }) fun _ => Acting.nothing)

/-- A caller makes a call that may block; its result is noted under `id`. -/
def callingLater (m : World) (id : String) (f : (Reading → Play) → Play) : World :=
  (m.arrive (f fun r =>
    .memory (fun b => { b with ended := b.ended.put id r }) fun _ => Acting.nothing)).withResult .started

/-- More steps than a script takes between two turns. -/
def patience : Nat := 100000000

/-- Everything runs until it is blocked; then one body gets a turn, until none can move. -/
def conduct : Nat → World → World
  | 0, m => m
  | fuel + 1, m =>
    let m := m.settle patience
    match m.memory.next with
    | none => m
    | some t => conduct fuel (m.noting fun b => { b with grant := some t })

/-- What the last call returned, what blocking calls have returned since, and
the machine without either. -/
def takeResults (m : World) : Reading × Table String Reading × World :=
  (m.memory.result.getD .absent, m.memory.ended,
    m.noting fun b => { b with result := none, ended := [] })

end Machine

end ObjectGroups
