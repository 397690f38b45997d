/-
The options of the demonstration.

An option has its value in the next argument or behind an equals sign, and is
given once at most. Arguments are read in order, and the first that is wrong,
or asks for help or the version, decides. The path of the configuration may
also come from the environment.
-/
import ObjectGroups.Text.Natural

namespace ObjectGroups.Demo

inductive Scenario where
  | buffer
  | futures
  | all
deriving DecidableEq, Repr

structure CommandLine where
  config : Option String := none
  scenario : Scenario := .all
  /-- Producers, and as many consumers. -/
  producers : Nat := 4
  /-- Items that each producer makes. -/
  items : Nat := 25
  capacity : Nat := 3
  /-- Calls in the scenario of futures. -/
  calls : Nat := 5
deriving DecidableEq, Repr

/-- What the arguments ask for. -/
inductive Asked where
  | run (c : CommandLine)
  | help
  | version
  | wrong
deriving DecidableEq, Repr

inductive Setting where
  | config
  | scenario
  | producers
  | items
  | capacity
  | calls
deriving DecidableEq, Repr

def Scenario.name : Scenario → String
  | .buffer => "buffer"
  | .futures => "futures"
  | .all => "all"

def Scenario.ofName? (s : String) : Option Scenario :=
  [.buffer, .futures, .all].find? fun x => x.name = s

namespace Setting

def name : Setting → String
  | .config => "config"
  | .scenario => "scenario"
  | .producers => "producers"
  | .items => "items"
  | .capacity => "capacity"
  | .calls => "calls"

def ofName? (s : String) : Option Setting :=
  [.config, .scenario, .producers, .items, .capacity, .calls].find? fun x => x.name = s

/-- The options with that setting, if the value is one for it. -/
def assign (x : Setting) (v : String) (c : CommandLine) : Option CommandLine :=
  match x with
  | .config => if v.isEmpty then none else some { c with config := some v }
  | .scenario => (Scenario.ofName? v).map fun s => { c with scenario := s }
  | .producers => (Text.natural? v).map fun n => { c with producers := n }
  | .items => (Text.natural? v).map fun n => { c with items := n }
  | .capacity => (Text.natural? v).map fun n => { c with capacity := n }
  | .calls => (Text.natural? v).map fun n => { c with calls := n }

end Setting

/-- An argument by its form. -/
inductive Word where
  /-- Two hyphens alone: no option follows. -/
  | stop
  | long (name : String) (value : Option String)
  | short (c : Char)
  | plain
deriving DecidableEq, Repr

def Word.of (s : String) : Word :=
  match s.toList with
  | ['-', '-'] => .stop
  | '-' :: '-' :: cs =>
    let name := String.ofList (cs.takeWhile (· ≠ '='))
    match cs.dropWhile (· ≠ '=') with
    | [] => .long name none
    | _ :: v => .long name (some (String.ofList v))
  | '-' :: c :: _ => .short c
  | _ => .plain

namespace CommandLine

def read (given : List Setting) (c : CommandLine) : List String → Asked
  | [] => .run c
  | a :: rest => match Word.of a with
    | .stop => if rest.isEmpty then .run c else .wrong
    | .plain => .wrong
    | .short l => if l = 'h' then .help else if l = 'V' then .version else .wrong
    | .long "help" v => if v.isNone then .help else .wrong
    | .long "version" v => if v.isNone then .version else .wrong
    | .long name v => match Setting.ofName? name with
      | none => .wrong
      | some x =>
        if given.contains x then .wrong
        else match v, rest with
          | some v, rest => match x.assign v c with
            | some c => read (x :: given) c rest
            | none => .wrong
          | none, v :: rest =>
            if Word.of v ≠ .plain then .wrong
            else match x.assign v c with
              | some c => read (x :: given) c rest
              | none => .wrong
          | none, [] => .wrong

/-- What the arguments ask for, with the path from the environment if they name none. -/
def ofArguments (path : Option String) (args : List String) : Asked :=
  match read [] {} args, path with
  | .run c, some p =>
    if c.config.isSome then .run c
    else match Setting.config.assign p c with
      | some c => .run c
      | none => .wrong
  | r, _ => r

/-- The environment's key for the path of the configuration. -/
def pathKey : String := "COG_CONFIG"

def version : String := "cog-demo 0.1.0\n"

/-! Help stands out on a terminal: headings underlined, names of options bold. -/

def bold (s : String) : String := "\x1b[1m" ++ s ++ "\x1b[0m"

def heading (s : String) : String := "\x1b[1m\x1b[4m" ++ s ++ "\x1b[0m"

/-- The column at which options are described. -/
def column : Nat := 31

/-- Text that goes on in that column on each line. -/
def indented (s : String) : String :=
  String.join (s.toList.map fun c =>
    if c = '\n' then "\n" ++ String.ofList (List.replicate column ' ') else c.toString)

/-- An option in the list of them. -/
def entry (short : Option String) (long value about : String) : String :=
  let front := "  " ++ (match short with
    | some s => bold s ++ ", "
    | none => "    ") ++ bold long ++ value
  let width := 6 + long.length + value.length
  front ++ String.ofList (List.replicate (column - width) ' ') ++ indented about ++ "\n"

/-- `path` is what the environment says about the configuration. -/
def help (path : Option String) : String :=
  "Cooperative scheduler demo\n\n" ++
  heading "Usage:" ++ " " ++ bold "cog-demo" ++ " [OPTIONS]\n\n" ++
  heading "Options:" ++ "\n" ++
  entry none "--config" " <CONFIG>"
    ("Path to a runtime TOML config. Defaults plus COG_* env overrides when absent [env: " ++
      pathKey ++ "=" ++ path.getD "" ++ "]") ++
  entry none "--scenario" " <SCENARIO>" "[default: all] [possible values: buffer, futures, all]" ++
  entry none "--producers" " <PRODUCERS>" "Producer (and consumer) tasks in the buffer scenario [default: 4]" ++
  entry none "--items" " <ITEMS>" "Items each producer puts into the buffer [default: 25]" ++
  entry none "--capacity" " <CAPACITY>" "Buffer capacity [default: 3]" ++
  entry none "--calls" " <CALLS>" "Asynchronous calls made in the futures scenario [default: 5]" ++
  entry (some "-h") "--help" "" "Print help" ++
  entry (some "-V") "--version" "" "Print version"

end CommandLine

end ObjectGroups.Demo
