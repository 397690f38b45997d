/-
The demonstration as a program: it reads what is around it, and prints what
the library makes of that.
-/
import ObjectGroups.Demo.Run

open ObjectGroups ObjectGroups.Demo

/-- The system's number for a read that met a directory. -/
def directoryCode : UInt32 := 21

/-- What a path leads to. -/
def fileAt (path : String) : IO File := do
  try
    return .bytes (← IO.FS.readBinFile path)
  catch e => match e with
    | .inappropriateType _ code _ => return if code = directoryCode then .directory else .blocked
    | .invalidArgument .. => return .tooLong
    | _ => return .missing

/-- The file of variables in this directory or in the nearest one above it that has one. -/
def nearestDotenv : Nat → String → IO (Option String)
  | 0, _ => return none
  | depth + 1, up => do
    match (← fileAt (up ++ ".env")).text with
    | .ok text => return some text
    | .error _ => nearestDotenv depth ("../" ++ up)

/-- The variables of the process that the demonstration may ask for. -/
def environmentOf (dotenv : String) : IO Environment := do
  let own := [CommandLine.pathKey, plainKey, styleKey, RuntimeConfig.prefixKey,
    RuntimeConfig.stackKey, RuntimeConfig.timeoutKey, RuntimeConfig.filterKey]
  let mut env : Environment := {}
  for key in own ++ Dotenv.words dotenv do
    if let some v ← IO.getEnv key then
      env := env.add key v
  return env

/-- What the system itself tells of a process that it has ended. -/
def abortStatus : Nat := 134

def main (args : List String) : IO UInt32 := do
  let dotenv ← nearestDotenv 32 ""
  let env ← environmentOf (dotenv.getD "")
  let file ← match CommandLine.ofArguments (env.get? CommandLine.pathKey) args with
    | .run { config := some path, .. } => fileAt path
    | _ => pure .missing
  let outcome := Demo.run args { env, dotenv, file := fun _ => file }
  match outcome with
  | .shown text => IO.print text
  | .report s => IO.println s.form.pretty
  | .failed t => IO.eprint t.text
  | .killed t => IO.eprintln (String.intercalate "\n" t.chain)
  | .wrongArguments => IO.eprintln "error: wrong arguments\n\nFor more information, try '--help'."
  | .crashed => pure ()
  return UInt32.ofNat (outcome.status.getD abortStatus)
