/-
Configurations in documents.

A record of fields stands in a document as a table or object by the names of
the fields, or as a list of their values in order. A field that is missing has
its default, and one that is unknown is passed over. The formats differ in
details: in JSON a field may not stand twice, a list may not be too long, and
null is no stack size; in TOML a date may stand for a record of defaults.
-/
import ObjectGroups.Config
import ObjectGroups.Form
import ObjectGroups.Form.Read
import ObjectGroups.Json.Read
import ObjectGroups.Toml.Read

namespace ObjectGroups

/-- How a format shows records and plain values. -/
structure Format (J : Type) where
  /-- The fields that a record gives, of those that it may have in that order. -/
  fields : List String → J → Option (List (String × J))
  text : J → Option String
  natural : J → Option Nat
  absent : J → Bool

namespace Format

def jsonFields (names : List String) : Json → Option (List (String × Json))
  | .obj ms =>
    let known := ms.filter fun m => names.contains m.1
    if (known.map (·.1)).Nodup then some known else none
  | .arr xs => if xs.length ≤ names.length then some (names.zip xs) else none
  | _ => none

def json : Format Json where
  fields := jsonFields
  text j := match j with
    | .str s => some s
    | _ => none
  natural := Json.natural?
  absent j := match j with
    | .null => true
    | _ => false

def tomlFields (names : List String) : Toml → Option (List (String × Toml))
  | .table _ es => some es
  | .list xs => some (names.zip xs)
  | .tables ts => some (names.zip (ts.map (.table .header)))
  | .moment _ => some []
  | _ => none

def toml : Format Toml where
  fields := tomlFields
  text t := match t with
    | .text s => some s
    | _ => none
  natural t := match t with
    | .integer n => if 0 ≤ n then some n.toNat else none
    | _ => none
  absent _ := false

/-- The value of a field, `default` if it is missing. -/
def field {J α : Type} (fs : List (String × J)) (name : String) (read : J → Option α) (default : α) :
    Option α :=
  match Table.get? fs name with
  | some j => read j
  | none => some default

end Format

variable {J : Type}

def ThreadConfig.read (f : Format J) (j : J) : Option ThreadConfig := do
  let fs ← f.fields ["name_prefix", "stack_size", "shutdown_timeout_ms"] j
  let d : ThreadConfig := {}
  let stack (j : J) : Option (Option Nat) := if f.absent j then some none else (f.natural j).map some
  some { namePrefix := ← Format.field fs "name_prefix" f.text d.namePrefix
         stackSize := ← Format.field fs "stack_size" stack d.stackSize
         shutdownTimeoutMs := ← Format.field fs "shutdown_timeout_ms" f.natural d.shutdownTimeoutMs }

def LoggingConfig.read (f : Format J) (j : J) : Option LoggingConfig := do
  let fs ← f.fields ["filter"] j
  some { filter := ← Format.field fs "filter" f.text ({} : LoggingConfig).filter }

namespace RuntimeConfig

def read (f : Format J) (j : J) : Option RuntimeConfig := do
  let fs ← f.fields ["threads", "logging"] j
  some { threads := ← Format.field fs "threads" (ThreadConfig.read f) {}
         logging := ← Format.field fs "logging" (LoggingConfig.read f) {} }

/-- A TOML document with the environment's overrides. -/
def ofToml (text : String) (env : String → Option String) : Except ConfigError RuntimeConfig :=
  match (Toml.read? text).bind (read .toml) with
  | some c => c.finish env
  | none => .error .parse

/-- A JSON document by itself, if it is one of a configuration. -/
def ofJson? (text : String) : Option RuntimeConfig := (Json.read? text).bind (read .json)

/-- The JSON form of a configuration. -/
def form (c : RuntimeConfig) : Json :=
  .obj [("threads", .obj [("name_prefix", .str c.threads.namePrefix),
      ("stack_size", .ofOption .nat c.threads.stackSize),
      ("shutdown_timeout_ms", .nat c.threads.shutdownTimeoutMs)]),
    ("logging", .obj [("filter", .str c.logging.filter)])]

end RuntimeConfig

/-- What a path leads to. -/
inductive File where
  | missing
  | directory
  /-- The path goes on behind a file. -/
  | blocked
  /-- The path, or a name in it, is longer than the system takes. -/
  | tooLong
  | bytes (bs : ByteArray)

/-- The text of a file, which must be one in UTF-8. -/
def File.text : File → Except ConfigError String
  | .missing => .error (.io "No such file or directory (os error 2)")
  | .directory => .error (.io "Is a directory (os error 21)")
  | .blocked => .error (.io "Not a directory (os error 20)")
  | .tooLong => .error (.io "File name too long (os error 36)")
  | .bytes bs => match String.fromUTF8? bs with
    | some s => .ok s
    | none => .error (.io "stream did not contain valid UTF-8")

/-- The document in a file, with the environment's overrides. -/
def RuntimeConfig.ofFile (f : File) (env : String → Option String) : Except ConfigError RuntimeConfig :=
  match f.text with
  | .ok s => ofToml s env
  | .error e => .error e

end ObjectGroups
