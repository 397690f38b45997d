/-
The JSON forms of metrics, views and snapshots. `uuid` gives the text of a
cog's identity.
-/
import ObjectGroups.Json
import ObjectGroups.Snapshot
import ObjectGroups.Text.Moment

namespace ObjectGroups

def Json.ofOption {α : Type} (f : α → Json) : Option α → Json
  | some a => f a
  | none => .null

def Json.nat (n : Nat) : Json := .int n

def Span.form (d : Span) : Json :=
  .obj [("secs", .nat d.seconds), ("nanos", .nat d.subsecond)]

def Instant.form (t : Instant) : Json := .str t.timestamp

/-- A table by name as an object. -/
def Table.form {α : Type} (f : α → Json) (t : Table String α) : Json :=
  Json.object (t.map fun e => (e.1, f e.2))

def Metrics.members (m : Metrics) : List (String × Json) :=
  [("tasks_submitted", .nat m.submitted),
    ("tasks_completed", .nat m.completed),
    ("tasks_failed", .nat m.failed),
    ("tasks_aborted", .nat m.aborted),
    ("suspensions", .nat m.suspensions),
    ("resumptions", .nat m.resumptions),
    ("contexts_started", .nat m.contextsStarted),
    ("contexts_retired", .nat m.contextsRetired),
    ("tasks_executed", m.executed.form .nat),
    ("avg_task_duration", m.average.form Span.form),
    ("last_run", m.lastRun.form Instant.form)]

def Metrics.form (m : Metrics) : Json := Json.object m.members

def TaskView.form (uuid : CogId → String) (v : TaskView) : Json :=
  .obj [("id", .nat v.id.val),
    ("name", .str v.name),
    ("cog", .str (uuid v.cog)),
    ("state", .str v.state.name),
    ("guard", .ofOption .str v.guard),
    ("ready", .bool v.ready),
    ("context", .ofOption (fun c => .nat c.val) v.context),
    ("suspensions", .nat v.suspensions),
    ("submitted_at", v.submittedAt.form)]

def Snapshot.members (uuid : CogId → String) (s : Snapshot) : List (String × Json) :=
  let views (vs : List TaskView) : Json := .arr (vs.map (·.form uuid))
  [("cog", .str (uuid s.cog)),
    ("cog_name", .str s.name),
    ("active", .ofOption (·.form uuid) s.active),
    ("ready", views s.ready),
    ("suspended", views s.suspended),
    ("schedulable", views s.schedulable),
    ("metrics", s.metrics.form)]

end ObjectGroups
