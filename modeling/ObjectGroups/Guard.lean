/-
Guards: the conditions a task can wait for.

A guard is a tree. Its leaves look at the state of the cog (`field`), at a
future, at the clock (`timer`) or at nothing (`always`), or are written by a
user of the runtime, who may do anything the runtime lets him; `all` and `any`
combine guards. What a guard may look at besides the state is a `Sight`.

`poll` is the condition itself. The rest tells a waiter how to wait for it:
`stays` whether the condition, once true, remains so; `sources` which futures
to subscribe to; `deadline` the instant at which the clock alone may make it
true. `label` is the description, which a panicking user guard may refuse.
-/
import ObjectGroups.Exit
import ObjectGroups.Future
import ObjectGroups.Parker
import ObjectGroups.Text.Moment

namespace ObjectGroups

/-- What a guard sees besides the state of the cog. `turn` counts the calls
into guards: a user's guard may have a memory of its own and answer each call
differently. -/
structure Sight where
  now : Instant
  resolved : FutureId → Bool
  turn : Nat

abbrev Answer := Exit GuardError Bool

/-- How a user's guard waits: it may evaluate itself, park, and answers in the end. -/
inductive WaitPlan where
  | answer (r : Answer)
  | evaluate (next : Answer → WaitPlan)
  | park (deadline : Option Instant) (next : Except GuardError Unit → WaitPlan)

structure UserGuard (S : Type) where
  label : Sight → Except Payload String
  poll : Sight → S → Answer
  wait : Sight → WaitPlan
  stays : Sight → Except Payload Bool
  /-- The futures it registers a waker with, and its answer. -/
  sources : Sight → List FutureId × Except Payload Bool
  deadline : Sight → Except Payload (Option Instant)

inductive Guard (S : Type) where
  | always
  | field (name : String) (pred : S → Answer)
  | future (f : FutureId)
  /-- True from `deadline` on, never without one; `requested` is the span it was made from. -/
  | timer (deadline : Option Instant) (requested : Span)
  | all (gs : List (Guard S))
  | any (gs : List (Guard S))
  | user (u : UserGuard S)

namespace Guard

variable {S : Type}

/-- True once `d` has passed from `now` on. -/
def after (now : Instant) (d : Span) : Guard S := .timer (now.after? d) d

/-- True from `deadline` on. -/
def until_ (now deadline : Instant) : Guard S := .timer (some deadline) (now.until_ deadline)

def timerText (deadline : Option Instant) (requested : Span) : String :=
  Text.fields "DurationGuard"
    [("deadline", match deadline with
        | some d => Text.wrapped "Some" d.text
        | none => "None"),
      ("requested", requested.text)]

mutual

def label (v : Sight) : Guard S → Except Payload String
  | .always => .ok "AlwaysGuard"
  | .field name _ => .ok (Text.wrapped "field" name)
  | .future f => .ok (Text.wrapped "future" ("resolved=" ++ toString (v.resolved f)))
  | .timer deadline requested => .ok (timerText deadline requested)
  | .all gs => do .ok ("(" ++ String.intercalate " & " (← labels v gs) ++ ")")
  | .any gs => do .ok ("(" ++ String.intercalate " | " (← labels v gs) ++ ")")
  | .user u => u.label v

def labels (v : Sight) : List (Guard S) → Except Payload (List String)
  | [] => .ok []
  | g :: gs => do
    let l ← label v g
    let ls ← labels v gs
    .ok (l :: ls)

end

mutual

def poll (v : Sight) (s : S) : Guard S → Answer
  | .always => .ok true
  | .field _ pred => pred s
  | .future f => .ok (v.resolved f)
  | .timer deadline _ => .ok (Instant.due v.now deadline)
  | .all gs => pollAll v s gs
  | .any gs => pollAny v s gs
  | .user u => u.poll v s

/-- The guards in order, up to the first that is not true. -/
def pollAll (v : Sight) (s : S) : List (Guard S) → Answer
  | [] => .ok true
  | g :: gs => match poll v s g with
    | .ok true => pollAll v s gs
    | r => r

/-- The guards in order, up to the first that is not false. -/
def pollAny (v : Sight) (s : S) : List (Guard S) → Answer
  | [] => .ok false
  | g :: gs => match poll v s g with
    | .ok false => pollAny v s gs
    | r => r

end

mutual

def stays (v : Sight) : Guard S → Except Payload Bool
  | .always => .ok true
  | .field _ _ => .ok false
  | .future _ => .ok true
  | .timer _ _ => .ok true
  | .all gs => stayAll v gs
  | .any gs => stayAll v gs
  | .user u => u.stays v

def stayAll (v : Sight) : List (Guard S) → Except Payload Bool
  | [] => .ok true
  | g :: gs => match stays v g with
    | .ok true => stayAll v gs
    | r => r

end

mutual

/-- The futures to subscribe to, in order, and whether there was any; a panic ends the list. -/
def sources (v : Sight) : Guard S → List FutureId × Except Payload Bool
  | .always => ([], .ok false)
  | .field _ _ => ([], .ok false)
  | .future f => ([f], .ok true)
  | .timer _ _ => ([], .ok false)
  | .all gs => sourcesOf v gs
  | .any gs => sourcesOf v gs
  | .user u => u.sources v

def sourcesOf (v : Sight) : List (Guard S) → List FutureId × Except Payload Bool
  | [] => ([], .ok false)
  | g :: gs => match sources v g with
    | (fs, .error p) => (fs, .error p)
    | (fs, .ok b) => match sourcesOf v gs with
      | (fs', .error p) => (fs ++ fs', .error p)
      | (fs', .ok b') => (fs ++ fs', .ok (b || b'))

end

mutual

/-- The instant in the future at which the clock alone may make the guard true. -/
def deadline (v : Sight) : Guard S → Except Payload (Option Instant)
  | .always => .ok none
  | .field _ _ => .ok none
  | .future _ => .ok none
  | .timer d _ => .ok (if Instant.due v.now d then none else d)
  | .all gs => do .ok (Instant.latest (← deadlines v gs))
  | .any gs => do .ok (Instant.earliest (← deadlines v gs))
  | .user u => u.deadline v

def deadlines (v : Sight) : List (Guard S) → Except Payload (List (Option Instant))
  | [] => .ok []
  | g :: gs => do
    let d ← deadline v g
    let ds ← deadlines v gs
    .ok (d :: ds)

end

/-- A poll whose panic is reported as a failed evaluation under the guard's
label; if the label panics as well, that panic goes on. -/
def evaluate (v : Sight) (s : S) (g : Guard S) : Answer :=
  match g.poll v s with
  | .ok b => .ok b
  | .error e => .error e
  | .panic _ => match g.label v with
    | .ok l => .error (.evaluation (l ++ " panicked"))
    | .error p => .panic p

end Guard

/-- A panic of guard code, reported as a failed evaluation. `what` names the code. -/
def panicked (what : String) (p : Payload) : GuardError :=
  .evaluation ("guard " ++ what ++ " panicked: " ++ p.message)

/-- Guard code that has no errors of its own, with its panic contained. -/
def contained {α : Type} (what : String) : Except Payload α → Except GuardError α
  | .ok a => .ok a
  | .error p => .error (panicked what p)

/-- Guard code with its panic contained. -/
def containedAnswer (what : String) : Answer → Except GuardError Bool
  | .ok b => .ok b
  | .error e => .error e
  | .panic p => .error (panicked what p)

end ObjectGroups
