/-
What a thread is about to do, as far as slots, tasks and locks go.

A `Control` says what a thread does next in full; its `Stance` keeps what
other threads of the cog depend on: the task it hosts and whether that task
holds the slot, the lock it holds, the task it is about to submit and the
context it is about to start. Notices to be told, signals to be sent and the
flags of sleepers do not count, so a notification changes no stance.
-/
import ObjectGroups.Proofs.Parts

namespace ObjectGroups

variable {S A V : Type}

inductive Stance where
  /-- Between tasks. -/
  | claim
  | body (seat : Option Seat)
  /-- About to put a task into the queue of a cog. -/
  | enrol (seat : Option Seat) (cog : CogId) (view : TaskView)
  /-- Starting a context for a task just put into a queue. -/
  | submit (stage : Stage) (seat : Option Seat) (cog : CogId) (view : TaskView)
  /-- Starting a context in place of a task that awaits. -/
  | hand (stage : Stage) (task : TaskId)
  /-- Starting a context with a body of its own. -/
  | start (stage : Stage) (seat : Option Seat)
  /-- About to give the slot up for an await. -/
  | release (task : TaskId)
  /-- In an await, without the lock. -/
  | wait (task : TaskId)
  /-- In an await, with the lock. -/
  | contend (task : TaskId)
  | complete (task : TaskId) (outcome : TaskOutcome)
  | strand (task : TaskId)
  | leave
deriving DecidableEq

def Phase.stance (t : TaskId) : Phase S → Stance
  | .release => .release t
  | .subscribe => .contend t
  | .contend _ => .contend t
  | .doze _ => .contend t
  | _ => .wait t

def Errand.stance (stage : Stage) : Errand S A V → Stance
  | .submission seat g view _ => .submit stage seat g view
  | .handover aw => .hand stage aw.task
  | .direct seat _ _ _ _ => .start stage seat

def Control.stance : Control S A V → Stance
  | .claim => .claim
  | .run seat _ => .body seat
  | .enrol seat g view _ _ => .enrol seat g view
  | .starting stage e => e.stance stage
  | .awaiting aw phase => phase.stance aw.task
  | .complete t outcome => .complete t outcome
  | .strand t => .strand t
  | .leave => .leave
  | .notify _ _ after => after.stance
  | .signal seat _ _ => .body seat
  | .sweep seat _ => .body seat
  | .idle seat _ _ _ _ => .body seat
  | .linger seat _ _ _ _ _ => .body seat
  | .park seat _ _ _ _ => .body seat
  | .hold seat _ _ _ _ => .body seat

@[simp] theorem Control.stance_rouse (c : Control S A V) : c.rouse.stance = c.stance := by
  cases c with
  | awaiting aw p => cases p <;> rfl
  | _ => rfl

namespace Stance

/-- The task that the thread hosts, and whether it holds the slot. -/
def seat? : Stance → Option Seat
  | .claim => none
  | .body seat => seat
  | .enrol seat _ _ => seat
  | .submit _ seat _ _ => seat
  | .hand _ t => some ⟨t, false⟩
  | .start _ seat => seat
  | .release t => some ⟨t, true⟩
  | .wait t => some ⟨t, false⟩
  | .contend t => some ⟨t, false⟩
  | .complete t _ => some ⟨t, true⟩
  | .strand t => some ⟨t, false⟩
  | .leave => none

/-- Whether the thread is between receiving the slot of its cog and giving it up. -/
def slot (s : Stance) : Bool := s = .claim || s.seat?.any (·.active)

/-- The cog whose lock a thread in this stance holds; `own` is the thread's cog. -/
def lock (own : Option CogId) : Stance → Option CogId
  | .submit _ _ g _ => some g
  | .hand _ _ => own
  | .contend _ => own
  | _ => none

/-- Whether the lock is held to give the free slot to a new context. -/
def grants : Stance → Bool
  | .submit _ _ _ _ => true
  | .hand _ _ => true
  | _ => false

/-- The task about to be put into a queue. -/
def letter? : Stance → Option TaskId
  | .enrol _ _ view => some view.id
  | _ => none

/-- How far the start of a context has come. -/
def stage? : Stance → Option Stage
  | .submit stage _ _ _ => some stage
  | .hand stage _ => some stage
  | .start stage _ => some stage
  | _ => none

/-- The same start at another stage. -/
def restage (stage : Stage) : Stance → Stance
  | .submit _ seat g view => .submit stage seat g view
  | .hand _ t => .hand stage t
  | .start _ seat => .start stage seat
  | s => s

/-- The context about to be started, once it has its number. -/
def newcomer? (s : Stance) : Option ContextId :=
  match s.stage? with
  | some (.register c) => some c
  | some (.launch c) => some c
  | _ => none

section
variable (s : Stance) (stage : Stage)

@[simp] theorem seat?_restage : (s.restage stage).seat? = s.seat? := by cases s <;> rfl

@[simp] theorem lock_restage (own : Option CogId) : (s.restage stage).lock own = s.lock own := by
  cases s <;> rfl

@[simp] theorem grants_restage : (s.restage stage).grants = s.grants := by cases s <;> rfl

@[simp] theorem letter?_restage : (s.restage stage).letter? = s.letter? := by cases s <;> rfl

@[simp] theorem slot_restage : (s.restage stage).slot = s.slot := by
  cases s <;> simp [slot, restage, seat?]

theorem stage?_restage {st : Stage} (h : s.stage? = some st) :
    (s.restage stage).stage? = some stage := by
  cases s <;> simp_all [stage?, restage]

end

end Stance

@[simp] theorem Errand.stage?_stance (e : Errand S A V) (stage : Stage) :
    (e.stance stage).stage? = some stage := by cases e <;> rfl

@[simp] theorem Errand.restage_stance (e : Errand S A V) (stage stage' : Stage) :
    (e.stance stage).restage stage' = e.stance stage' := by cases e <;> rfl

namespace Machine

/-- The cog whose tasks the thread `a` hosts, and its stance. -/
def look (m : Machine S A V) (a : Agent) : Option (Option CogId × Stance) :=
  (m.threads.get? a).map fun t => (t.cog, t.control.stance)

variable (m : Machine S A V) (a b : Agent) (g : CogId)

theorem look_eq {t : Thread S A V} (ht : m.threads.get? a = some t) :
    m.look a = some (t.cog, t.control.stance) := by
  simp [look, ht]

theorem look_starting {t : Thread S A V} {stage : Stage} {e : Errand S A V} (ht : m.threads.get? a = some t)
    (hk : t.control = .starting stage e) : m.look a = some (t.cog, e.stance stage) := by
  rw [look_eq m a ht, hk]
  rfl

theorem look_eq_some {own : Option CogId} {s : Stance} (h : m.look a = some (own, s)) :
    ∃ t, m.threads.get? a = some t ∧ t.cog = own ∧ t.control.stance = s := by
  simpa [look] using h

theorem look_of_roused {m' : Machine S A V} {p : Thread S A V → Bool}
    (h : m'.threads.get? b = (m.threads.get? b).map fun t => if p t then t.rouse else t) :
    m'.look b = m.look b := by
  simp only [look, h, Option.map_map]
  congr 1
  funext t
  by_cases hp : p t <;> simp [hp]

theorem look_setControl (c : Control S A V) :
    (m.setControl a c).look b =
      if b = a then (m.look a).map fun p => (p.1, c.stance) else m.look b := by
  simp only [look, thread_setControl]
  split
  · simp [Option.map_map, Function.comp_def]
  · rfl

@[simp] theorem look_strike (c : ContextId) : (m.strike c).look b = m.look b :=
  look_of_roused m b (thread_strike m b c)

@[simp] theorem look_deliver (n : Notice) : (m.deliver g n).look b = m.look b := by
  simp [look]

@[simp] theorem stance_announce (g : CogId) (kind : NoticeKind) (view : Option TaskView)
    (after : Control S A V) : (announce g kind view after).stance = after.stance := by
  cases view <;> rfl

@[simp] theorem cogs_announceEnd (c : CogId) (outcome : TaskOutcome) (view : Option TaskView)
    (after : Control S A V) : (m.announceEnd a c outcome view after).cogs = m.cogs := by
  unfold announceEnd
  cases view <;> rfl

end Machine

end ObjectGroups
