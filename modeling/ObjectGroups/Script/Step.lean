/-
Scripts: bodies of tasks as lists of steps.

Each step works on the cog's variables, awaits, submits, or does one of the
other things a body can do, and leaves an entry in the trace when it is
finished. A step that fails ends the body with its error, unless it stands
inside `attempt`; one that panics unwinds.
-/
import ObjectGroups.Script.Bench

namespace ObjectGroups.Script

inductive Step where
  | set (v : String) (n : Int)
  | add (v : String) (n : Int)
  | log (line : String)
  | get (v : String)
  | await (e : Expr)
  | suspend
  | resolve (f : String) (n : Int)
  | peek (f : String)
  /-- The value of a future, or the error it holds. -/
  | unwrap (f : String)
  /-- `plain` tells the two ways to submit apart. -/
  | submit (plain : Bool) (cog name : String) (steps : List Step)
  | call (cog name f : String) (steps : List Step)
  | fail (m : String)
  | raise (e : TaskError)
  | panic (p : Payload)
  /-- Panics while it works on the state. -/
  | panicState (m : String)
  /-- Interrupts the context that hosts a task. -/
  | interrupt (t : TaskId)
  | interruptSelf
  | shutdown
  | advance (d : Span)
  | gate (g : String)
  | openGate (g : String)
  | who
  | ret (n : Int)
  | iterate (n : Nat) (steps : List Step)
  /-- Swallows the error of its steps. -/
  | attempt (steps : List Step)
  /-- Catches a panic of its steps. -/
  | unwind (steps : List Step)

/-- The body of a script. -/
abbrev Play := Body Store Bench Int

namespace Acting

def nothing : Play := .exit (.ok 0)

/-- `b`, and if it ends well `after`. -/
def andThen (b after : Play) : Play :=
  b.attempt fun r => match r with
    | .ok _ => after
    | r => .exit r

def times : Nat → Play → Play
  | 0, _ => nothing
  | n + 1, b => b.attempt fun r => match r with
    | .ok _ => times n b
    | r => .exit r

/-- Waits for its turn. -/
def turn (t : TaskId) (gate : Option String) (next : Play) : Play :=
  .memory (fun b => { b with waiting := b.waiting.put t gate }) fun _ =>
    .block (fun b => b.grant = some t) <|
      .memory (fun b => { b with grant := none, waiting := b.waiting.remove t }) fun _ => next

def trace (t : TaskId) (step : String) (r : Reading) (next : Play) : Play :=
  .memory (fun b => { b with trace := b.trace ++ [{ task := t, step, reading := r }] }) fun _ => next

/-- The end of a step: its entry, and its error if it failed. -/
def finish (t : TaskId) (step : String) : Except TaskError Reading → Play
  | .ok r => trace t step r nothing
  | .error e => trace t step (.error e.message) (.exit (.error e))

def finishUnit (t : TaskId) (step : String) : Except TaskError Unit → Play
  | .ok () => finish t step (.ok .done)
  | .error e => finish t step (.error e)

/-- Gives the names that are new a future each. -/
def named : List String → Play → Play
  | [], next => next
  | name :: names, next => .memory id fun b =>
    if b.futures.has name then named names next
    else .request .newFuture fun f =>
      .memory (fun b => { b with futures := b.futures.put name f }) fun _ => named names next

/-- Builds a guard. -/
def build (e : Expr) (next : Guard Store → Play) : Play :=
  named e.futures <| .memory id fun b => .request .now fun now => next (e.guard b.future now)

def future (name : String) (next : FutureId → Play) : Play :=
  named [name] <| .memory id fun b => next (b.future name)

def settledText : Option (Settled Int) → String
  | none => "none"
  | some (.ok n) => "ok:" ++ toString n
  | some (.error e) => "err:" ++ e.message

def resolve (f : String) (n : Int) (next : Reading → Play) : Play :=
  future f fun f => .request (.resolve f (.ok n)) fun r => next (match r with
    | none => .done
    | some (.ok m) => .rejected m
    | some (.error e) => .error e.message)

def peek (f : String) (next : Reading → Play) : Play :=
  future f fun f => .request (.peek f) fun r => next (.text (settledText r))

/-- The context that hosts task `t` in one of the cogs, running or suspended. -/
def hostOf (t : TaskId) : List CogId → (Option ContextId → Play) → Play
  | [], next => next none
  | g :: gs, next => .request (.tasks g) fun views =>
    match (views.find? fun v => v.id = t).bind (·.context) with
    | some c => next (some c)
    | none => hostOf t gs next

def interrupt (t : TaskId) (next : Reading → Play) : Play :=
  .memory id fun b => hostOf t b.cogs.values fun host => match host with
    | some c => .request (.interrupt c) fun live => next (.flag live)
    | none => next .absent

/-- A submission by the name of the cog. -/
def submit (cog name : String) (task : Play) (next : Exit RuntimeError TaskId → Play) : Play :=
  .memory id fun b => match b.cogs.get? cog with
    | none => next (.panic (.text "no such cog"))
    | some g => .submit g name task fun r => match r with
      | .ok t => .memory (fun b => { b with accepted := b.accepted.put t (g, name) }) fun _ => next (.ok t)
      | r => next r

/-- A call by the name of the cog, whose future gets the name `f`. -/
def call (cog name f : String) (task : Play) (next : Exit RuntimeError TaskId → Play) : Play :=
  .memory id fun b => match b.cogs.get? cog with
    | none => next (.panic (.text "no such cog"))
    | some g => Body.call g name task fun r => match r with
      | .ok (t, x) => .memory (fun b => { b with
          accepted := b.accepted.put t (g, name), futures := b.futures.put f x }) fun _ => next (.ok t)
      | .error e => next (.error e)
      | .panic p => next (.panic p)

/-- How a step that submits ends. -/
def submitted (t : TaskId) (step : String) : Exit RuntimeError TaskId → Play
  | .ok u => finish t step (.ok (.task u))
  | .error e => finish t step (.error (.failed e.message))
  | .panic p => .exit (.panic p)

/-- A step on the state of the cog. -/
def onStore (t : TaskId) (step : String) (change : Store → Store) (reading : Store → Reading) : Play :=
  turn t none <| .access change (fun s => finish t step (.ok (reading s)))
    (finish t step (.error .notActive))

def await (t : TaskId) (step : String) (g : Guard Store) : Play :=
  .await g fun r => match r with
    | .ok () => turn t none (finishUnit t step (.ok ()))
    | .error e => turn t none (finishUnit t step (.error e))
    | .panic p => .exit (.panic p)

def who (t : TaskId) (next : Reading → Play) : Play :=
  .request .place fun p =>
    next (.standing t (p.context.getD ⟨0⟩) ((p.seat.map (·.active)).getD false) p.cogName)

/-- The body of a task: the steps, a last turn, and the value it returns. -/
def task (steps : TaskId → Play) : Play :=
  .request .place fun p =>
    let t := (p.seat.map (·.task)).getD ⟨0⟩
    andThen (steps t) <| turn t none <|
      .memory id fun b => .exit (.ok ((b.values.get? t).getD 0))

end Acting

open Acting

mutual

def Step.play (t : TaskId) : Step → Play
  | .set v n => onStore t "set" (·.write v n) fun _ => .done
  | .add v n => onStore t "add" (·.add v n) fun _ => .done
  | .log line => onStore t "log" (·.append line) fun _ => .done
  | .get v => onStore t "get" id fun s => .int (s.read v)
  | .await e => turn t none <| build e fun g => await t "await" g
  | .suspend => turn t none <| await t "suspend" .always
  | .resolve f n => turn t none <| resolve f n fun r => finish t "resolve" (.ok r)
  | .peek f => turn t none <| peek f fun r => finish t "peek" (.ok r)
  | .unwrap f => turn t none <| future f fun f => .request (.peek f) fun r =>
    finish t "unwrap" (match r with
      | none => .error (.failed "missing")
      | some (.ok n) => .ok (.int n)
      | some (.error e) => .error e)
  | .submit plain cog name steps => turn t none <|
    submit cog name (task fun u => playAll u steps) (submitted t (if plain then "submit" else "submit_task"))
  | .call cog name f steps => turn t none <|
    call cog name f (task fun u => playAll u steps) (submitted t "call")
  | .fail m => turn t none <| finish t "fail" (.error (.failed m))
  | .raise e => turn t none <| finish t "raise" (.error e)
  | .panic p => turn t none <| .exit (.panic p)
  | .panicState m => turn t none <|
    .access (·.append "before panic") (fun _ => .exit (.panic (.text m)))
      (finish t "panic_state" (.error .notActive))
  | .interrupt u => turn t none <| interrupt u fun r => finish t "interrupt" (.ok r)
  | .interruptSelf => turn t none <| .request .place fun p => match p.context with
    | some c => .request (.interrupt c) fun live => finish t "interrupt_self" (.ok (.flag live))
    | none => finish t "interrupt_self" (.ok .absent)
  | .shutdown => turn t none <| .request .shutdown fun _ => finish t "shutdown" (.ok .done)
  | .advance d => turn t none <| .request (.advance d) fun _ => finish t "advance" (.ok .done)
  | .gate g => turn t (some g) <| finish t "gate" (.ok .opened)
  | .openGate g => turn t none <|
    .memory (·.openGate g) fun _ => finish t "open" (.ok .done)
  | .who => turn t none <| who t fun r => finish t "who" (.ok r)
  | .ret n => turn t none <|
    .memory (fun b => { b with values := b.values.put t n }) fun _ => finish t "ret" (.ok .done)
  | .iterate n steps => times n (playAll t steps)
  | .attempt steps => (playAll t steps).attempt fun r => match r with
    | .panic p => .exit (.panic p)
    | _ => nothing
  | .unwind steps => (playAll t steps).attempt fun r => match r with
    | .ok _ => trace t "unwind" (.flag false) nothing
    | .error e => trace t "unwind" (.flag false) (.exit (.error e))
    | .panic _ => trace t "unwind" (.flag true) nothing

def playAll (t : TaskId) : List Step → Play
  | [] => nothing
  | s :: ss => (s.play t).attempt fun r => match r with
    | .ok _ => playAll t ss
    | r => .exit r

end

/-- The body of a task that runs a script. -/
def script (steps : List Step) : Play := task fun t => playAll t steps

end ObjectGroups.Script
