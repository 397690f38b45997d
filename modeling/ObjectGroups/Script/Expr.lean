/-
Guards as scripts write them. A guard names futures and spans; what it means
depends on the futures of those names and on the clock when it is built.
-/
import ObjectGroups.Guard
import ObjectGroups.Script.Store

namespace ObjectGroups.Script

inductive Comparison where
  | less
  | atMost
  | equal
  | differs
  | more
  | atLeast
deriving DecidableEq, Repr

def Comparison.holds : Comparison → Int → Int → Bool
  | .less, a, b => a < b
  | .atMost, a, b => a ≤ b
  | .equal, a, b => a = b
  | .differs, a, b => a ≠ b
  | .more, a, b => b < a
  | .atLeast, a, b => b ≤ a

/-- A variable compared with a number. -/
structure Condition where
  var : String
  cmp : Comparison
  val : Int
deriving DecidableEq, Repr

def Condition.holds (c : Condition) (s : Store) : Bool := c.cmp.holds (s.read c.var) c.val

/-- An answer that a user's guard was told to give. -/
inductive Told where
  | value (b : Bool)
  | error (m : String)
  | interrupted
  | panics
deriving DecidableEq, Repr

inductive ToldPoll where
  | told (t : Told)
  | condition (c : Condition)
deriving DecidableEq, Repr

inductive ToldWait where
  | told (t : Told)
  | evaluates
  /-- Parks, then answers false. -/
  | parks
deriving DecidableEq, Repr

inductive ToldDeadline where
  | absent
  | at (d : Span)
  | panics
deriving DecidableEq, Repr

/-- A user's guard that does as it was told. -/
structure UserSpec where
  /-- No label at all: describing the guard panics. -/
  label : Option String := some "Custom"
  poll : ToldPoll := .told (.value true)
  wait : ToldWait := .evaluates
  stays : Option Bool := some false
  sources : Option Bool := some false
  deadline : ToldDeadline := .absent
deriving DecidableEq, Repr

inductive Expr where
  | always
  | field (name : String) (c : Condition)
  /-- Fails with `m` where `failIf` holds. -/
  | tryField (name : String) (c failIf : Condition) (m : String)
  /-- Panics where `c` holds, and is false elsewhere. -/
  | boom (name : String) (c : Condition)
  | future (name : String)
  | after (d : Span)
  | until_ (d : Span)
  | all (es : List Expr)
  | any (es : List Expr)
  | user (u : UserSpec)

def Told.answer (what : String) : Told → Answer
  | .value b => .ok b
  | .error m => .error (.evaluation m)
  | .interrupted => .error .interrupted
  | .panics => .panic (.text (what ++ " exploded"))

/-- A value, or a panic that names what was asked. -/
def orPanic {α : Type} (what : String) : Option α → Except Payload α
  | some a => .ok a
  | none => .error (.text (what ++ " exploded"))

def UserSpec.guard (u : UserSpec) : UserGuard Store where
  label _ := orPanic "fmt" u.label
  poll _ s := match u.poll with
    | .told t => t.answer "poll"
    | .condition c => .ok (c.holds s)
  wait _ := match u.wait with
    | .told t => .answer (t.answer "wait")
    | .evaluates => .evaluate .answer
    | .parks => .park none fun r => .answer (match r with
        | .ok () => .ok false
        | .error e => .error e)
  stays _ := orPanic "stays" u.stays
  sources _ := ([], orPanic "subscribe" u.sources)
  deadline v := match u.deadline with
    | .absent => .ok none
    | .at d => .ok ((Instant.after? 0 d).filter fun t => v.now < t)
    | .panics => .error (.text "deadline exploded")

mutual

/-- The names of the futures in an expression. -/
def Expr.futures : Expr → List String
  | .future name => [name]
  | .all es => futuresOf es
  | .any es => futuresOf es
  | _ => []

def futuresOf : List Expr → List String
  | [] => []
  | e :: es => e.futures ++ futuresOf es

end

mutual

def Expr.guard (future : String → FutureId) (now : Instant) : Expr → Guard Store
  | .always => .always
  | .field name c => .field name fun s => .ok (c.holds s)
  | .tryField name c failIf m => .field name fun s =>
    if failIf.holds s then .error (.evaluation m) else .ok (c.holds s)
  | .boom name c => .field name fun s =>
    if c.holds s then .panic (.text "predicate panicked") else .ok false
  | .future name => .future (future name)
  | .after d => .after now d
  | .until_ d => .until_ now d
  | .all es => .all (guardsOf future now es)
  | .any es => .any (guardsOf future now es)
  | .user u => .user u.guard

def guardsOf (future : String → FutureId) (now : Instant) : List Expr → List (Guard Store)
  | [] => []
  | e :: es => e.guard future now :: guardsOf future now es

end

end ObjectGroups.Script
