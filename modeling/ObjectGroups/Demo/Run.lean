/-
A demonstration from its arguments to its outcome.

The caller submits the tasks of each scenario and waits for them, four times
as long as it would wait for a shutdown. Nothing takes time but waiting: when
all threads are blocked, the clock goes on to the next deadline.
-/
import ObjectGroups.Config.Form
import ObjectGroups.Demo.Scenario
import ObjectGroups.Dotenv
import ObjectGroups.Machine.Create
import ObjectGroups.Text.Plain

namespace ObjectGroups.Demo

structure BufferSummary where
  consumed : Nat
  metrics : Metrics

structure FuturesSummary where
  total : Nat
  samples : List Nat
  aggregator : Metrics
  sensor : Metrics

/-- What the scenarios came to, as far as they were run. -/
structure Summary where
  buffer : Option BufferSummary
  futures : Option FuturesSummary

inductive Outcome where
  /-- Help or the version. -/
  | shown (text : String)
  | wrongArguments
  | failed (t : Trouble)
  | crashed
  /-- Ended by the system. -/
  | killed (t : Trouble)
  | report (s : Summary)

/-- What is around a demonstration: the environment, the file of variables
that is found, and where paths lead. -/
structure Surroundings where
  env : Environment
  dotenv : Option String
  file : String → File

/-! The end of a demonstration that has failed. -/

/-- The trouble with what lies behind it, outermost first. -/
def Trouble.chain : Trouble → List String
  | .load path e => ("failed to load config from " ++ path) :: e.chain
  | .environment e => "invalid runtime configuration" :: e.chain
  | .noCapacity => ["buffer capacity must be at least 1"]
  | .runtime e => e.chain
  | .late t timeout => ["task " ++ t.display ++ " did not finish within " ++ timeout.text]
  | .lost consumed total checksum expected =>
    ["buffer lost items: consumed " ++ toString consumed ++ "/" ++ toString total ++ ", checksum " ++
      toString checksum ++ "/" ++ toString expected]
  | .exhausted bytes => ["memory allocation of " ++ toString bytes ++ " bytes failed"]

/-- Causes have numbers if there are several. -/
def causeLines (causes : List String) : List String :=
  match causes with
  | [] => []
  | [c] => ["", "Caused by:", "    " ++ c]
  | cs => "" :: "Caused by:" :: (cs.zipIdx.map fun c => "    " ++ toString c.2 ++ ": " ++ c.1)

def Trouble.text (t : Trouble) : String :=
  match t.chain with
  | [] => ""
  | m :: causes => String.join ((("Error: " ++ m) :: causeLines causes).map (· ++ "\n"))

/-! The run. -/

abbrev Theatre := Machine Holding Verdict Nat

namespace Theatre

/-- More steps between two deadlines, and more deadlines, than a demonstration
takes that ends in time. -/
def patience : Nat := 2000000

/-- Lets everything run, and time pass, until the caller is done. What is not
blocked by then is overtaken by the next deadline. -/
def play : Nat → Theatre → Theatre
  | 0, m => m
  | fuel + 1, m =>
    let m := m.settle patience
    if m.memory.isSome then m
    else match m.nextDeadline with
      | some t => play fuel (m.perform (.pass (m.now.until_ t)))
      | none => m

def holding (m : Theatre) (g : CogId) : Option Holding := (m.cogs.get? g).map (·.state)

def metrics (m : Theatre) (g : CogId) : Metrics :=
  ((m.cogs.get? g).map (·.scheduler.metrics)).getD {}

def bufferSummary (m : Theatre) (g : CogId) : BufferSummary where
  consumed := match holding m g with
    | some (.buffer b) => b.consumed
    | _ => 0
  metrics := metrics m g

/-- What is wrong with the buffer after so many items. -/
def audit (m : Theatre) (g : CogId) (total : Nat) : Option Trouble :=
  match holding m g with
  | some (.buffer b) => b.audit total
  | _ => none

def futuresSummary (m : Theatre) (aggregator sensor : CogId) : FuturesSummary :=
  let a : Aggregator := match holding m aggregator with
    | some (.aggregator a) => a
    | _ => {}
  { total := a.total, samples := a.samples, aggregator := metrics m aggregator,
    sensor := metrics m sensor }

end Theatre

/-- The scenarios that were asked for, on a runtime of that configuration. -/
def perform (c : CommandLine) (config : RuntimeConfig) : Outcome :=
  match Machine.create config none with
  | .error e => .failed (.runtime e)
  | .ok m =>
    let patience := config.threads.shutdownTimeout
    let withBuffer := c.scenario ≠ .futures
    let withFutures := c.scenario ≠ .buffer
    let (buffer, m) := m.found "buffer" (.buffer { capacity := c.capacity })
    let (sensor, m) := m.found "sensor" (.sensor 0)
    let (aggregator, m) := m.found "aggregator" (.aggregator {})
    let last := Part.closing patience
    let futures := if withFutures then Part.futuresStage c aggregator sensor (patience * 4) last else last
    let whole := if withBuffer then Part.bufferStage c buffer (patience * 4) futures else futures
    let m := Theatre.play Theatre.patience (m.arrive whole)
    match m.memory with
    | some (.error (.exhausted bytes)) => .killed (.exhausted bytes)
    | some (.error t) => .failed t
    | some (.ok ()) =>
      match if withBuffer then Theatre.audit m buffer (c.producers * c.items) else none with
      | some t => .failed t
      | none => .report
        { buffer := if withBuffer then some (Theatre.bufferSummary m buffer) else none
          futures := if withFutures then some (Theatre.futuresSummary m aggregator sensor) else none }
    | _ => .crashed

/-- The environment together with the file of variables. -/
def Surroundings.variables (s : Surroundings) : Option Environment :=
  match s.dotenv with
  | some text => Dotenv.load s.env text
  | none => some s.env

def configure (c : CommandLine) (file : String → File) (env : Environment) :
    Except Trouble RuntimeConfig :=
  match c.config with
  | some path => match RuntimeConfig.ofFile (file path) env.get? with
    | .ok config => .ok config
    | .error e => .error (.load path e)
  | none => match RuntimeConfig.ofEnvironment env.get? with
    | .ok config => .ok config
    | .error e => .error (.environment e)

/-- The variables that forbid styles and that ask for them, whatever they are set to. -/
def plainKey : String := "NO_COLOR"

def styleKey : String := "CLICOLOR_FORCE"

/-- Whether a variable is set. An empty one counts as not set. -/
def Surroundings.sets (s : Surroundings) (name : String) : Bool :=
  !((s.env.get? name).getD "").isEmpty

/-- Whether help is shown in styles although there is no terminal. -/
def Surroundings.styled (s : Surroundings) : Bool :=
  s.sets styleKey && !s.sets plainKey

def run (args : List String) (s : Surroundings) : Outcome :=
  let path := s.env.get? CommandLine.pathKey
  match CommandLine.ofArguments path args with
  | .help =>
    let text := CommandLine.help path
    .shown (if s.styled then text else Text.plain text)
  | .version => .shown CommandLine.version
  | .wrong => .wrongArguments
  | .run c => match s.variables with
    | none => .crashed
    | some env => match configure c s.file env with
      | .error t => .failed t
      | .ok config => perform c config

/-! What is printed of it. -/

def BufferSummary.form (b : BufferSummary) : Json :=
  Json.object [("consumed", .nat b.consumed), ("metrics", b.metrics.form)]

def FuturesSummary.form (f : FuturesSummary) : Json :=
  Json.object [("total", .nat f.total), ("samples", .arr (f.samples.map .nat)),
    ("aggregator", f.aggregator.form), ("sensor", f.sensor.form)]

def Summary.form (s : Summary) : Json :=
  Json.object ((s.buffer.map fun b => ("buffer", b.form)).toList ++
    (s.futures.map fun f => ("futures", f.form)).toList)

/-- What the system is told at the end, if the demonstration lives to tell it. -/
def Outcome.status : Outcome → Option Nat
  | .shown _ | .report _ => some 0
  | .failed _ => some 1
  | .wrongArguments => some 2
  | .crashed => some 101
  | .killed _ => none

end ObjectGroups.Demo
