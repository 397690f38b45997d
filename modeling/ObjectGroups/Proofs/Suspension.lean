/-
Who is suspended awaits.

The record of a task says that it is suspended from the moment it gives the
slot up for an await until it has the slot back or ends. All the while a
thread of the cog is in that await, unless a panic has unwound through it:
then the body goes on without the slot, and the record is left behind.
-/
import ObjectGroups.Proofs.Housing

namespace ObjectGroups

variable {S A V : Type} {m m' : Machine S A V} {a b : Agent} {g : CogId} {c : ContextId}
  {own : Option CogId} {s s' : Stance} {x x' : Cog S A V} {actor : Option Agent} {k : TaskId}

open Machine

/-- The task that is suspended in this stance. -/
def Stance.suspends : Stance → Option TaskId
  | .hand _ t => some t
  | .wait t => some t
  | .contend t => some t
  | _ => none

@[simp] theorem Stance.suspends_restage (s : Stance) (stage : Stage) :
    (s.restage stage).suspends = s.suspends := by cases s <;> rfl

theorem Stance.seat_of_suspends {s : Stance} (h : s.suspends = some k) :
    s.seat? = some ⟨k, false⟩ := by
  cases s with
  | hand | wait | contend =>
    cases h
    rfl
  | _ => cases h

/-- The task that awaits in this stance, or is about to. -/
def Stance.awaits : Stance → Option TaskId
  | .release t => some t
  | s => s.suspends

theorem Control.await_of_awaits {control : Control S A V} (h : control.stance.awaits = some k) :
    ∃ aw, control.await? = some aw ∧ aw.task = k := by
  induction control with
  | notify i n after ih => exact ih h
  | awaiting aw phase =>
    refine ⟨aw, rfl, ?_⟩
    cases phase <;> simp_all [stance, Phase.stance, Stance.awaits, Stance.suspends]
  | starting stage e => cases e with
    | handover aw =>
      exact ⟨aw, rfl, by simpa [stance, Errand.stance, Stance.awaits, Stance.suspends] using h⟩
    | _ => cases h
  | _ => cases h

theorem Control.await_of_suspends {control : Control S A V}
    (h : control.stance.suspends = some k) : ∃ aw, control.await? = some aw ∧ aw.task = k := by
  refine await_of_awaits ?_
  generalize control.stance = s at h
  cases s <;> first | exact h | cases h

/-- A body that runs is in no await. -/
theorem Control.await?_body {control : Control S A V} {seat : Option Seat}
    (h : control.stance = .body seat) : control.await? = none := by
  induction control with
  | notify i n after ih => exact ih h
  | awaiting aw phase => cases phase <;> cases h
  | starting stage e => cases e with
    | handover aw => cases h
    | _ => rfl
  | _ => rfl

/-- A suspended task stays so until its body goes on. -/
theorem Shift.suspends (h : Shift m m' (some a)) (hl : m.look a = some (some g, s))
    (hs : s.suspends = some k) : ∃ s', m'.look a = some (some g, s') ∧
      (s'.suspends = some k ∨ ∃ active, s' = .body (some ⟨k, active⟩)) := by
  cases h with
  | quiet ht hq =>
    cases ht.before.symm.trans hl
    refine ⟨_, ht.after, .inl ?_⟩
    cases hq with
    | same => exact hs
    | enter => rwa [Stance.suspends_restage]
    | _ => cases hs
  | deed ht _ hd =>
    cases ht.before.symm.trans hl
    refine ⟨_, ht.after, ?_⟩
    cases hd with
    | abort now hst => rcases hst with rfl | ⟨rfl, -⟩ <;> exact .inr ⟨false, by rw [Option.some.inj hs]⟩
    | resume now => exact .inr ⟨true, by rw [Option.some.inj hs]⟩
    | unwind => exact .inr ⟨false, by rw [Option.some.inj hs]⟩
    | unwindHand => exact .inr ⟨false, by rw [Option.some.inj hs]⟩
    | handFailed => exact .inl hs
    | markReady => exact .inl hs
    | reenter => exact .inl hs
    | wake => exact .inl hs
    | doze => exact .inl hs
    | _ => cases hs
  | allocate ht =>
    cases ht.before.symm.trans hl
    exact ⟨_, ht.after, .inl (by rwa [Stance.suspends_restage])⟩
  | birth hb _ hg =>
    cases hb.before.symm.trans hl
    refine ⟨_, hb.after, ?_⟩
    cases hg with
    | handover => exact .inl hs
    | submission => cases hs
  | launch hb =>
    cases hb.before.symm.trans hl
    cases hs
  | letter ht =>
    cases ht.before.symm.trans hl
    cases hs
  | gone hl₀ hs₀ =>
    cases hl₀.symm.trans hl
    rcases hs₀ with rfl | ⟨-, seat, rfl⟩ <;> cases hs

/-- A thread that is in no await is at most about to begin one. -/
theorem Shift.outside (h : Shift m m' (some a)) (hl : m.look a = some (own, s))
    (hs : s.awaits = none) {own' : Option CogId} (hl' : m'.look a = some (own', s')) :
    s'.suspends = none := by
  have suspends (s : Stance) (hs : s.awaits = none) : s.suspends = none := by
    cases s <;> first | exact hs | rfl
  obtain ⟨-, passes⟩ := h.passes hl hl'
  cases passes with
  | quiet hq => cases hq with
    | same => exact suspends _ hs
    | enter =>
      rw [Stance.suspends_restage]
      exact suspends _ hs
    | _ => rfl
  | deed hd => cases hd <;> first | rfl | cases hs
  | allocate =>
    rw [Stance.suspends_restage]
    exact suspends _ hs
  | grant hg => cases hg with
    | submission => rfl
    | handover => cases hs
  | launch => rfl
  | letter => rfl

/-! ## Records -/

namespace Scheduler

variable {y : Scheduler S A V} {t : TaskId} {d : ContextId} {now : Instant}

/-- The task is unfinished, and suspended. -/
def Suspended (y : Scheduler S A V) (t : TaskId) : Prop :=
  ∃ r, y.records.get? t = some r ∧ r.view.state = .suspended

theorem suspended_of_records {y' : Scheduler S A V} (he : y'.records = y.records)
    (h : y'.Suspended k) : y.Suspended k := by
  obtain ⟨r, hr, hs⟩ := h
  exact ⟨r, he ▸ hr, hs⟩

/-- A task that gets another state is not suspended; the others are as they were. -/
theorem suspended_setState {st : TaskState} {f : TaskRecord → TaskRecord}
    (h : (y.setState t st f).Suspended k) (hf : ∀ r, (f r).view.state = r.view.state) :
    y.Suspended k ∨ (k = t ∧ st = .suspended) := by
  obtain ⟨r, hr, hs⟩ := h
  rw [record_setState] at hr
  split at hr
  · next e =>
    obtain ⟨r₀, -, rfl⟩ := Option.map_eq_some_iff.mp hr
    rw [hf] at hs
    exact .inr ⟨e, hs⟩
  · exact .inl ⟨r, hr, hs⟩

theorem suspended_markRunning (h : (y.markRunning t d now).Suspended k) : y.Suspended k := by
  rcases suspended_setState h fun r => rfl with h | ⟨-, h⟩
  · exact h
  · cases h

theorem suspended_finish {outcome : TaskOutcome} (h : (y.finish t outcome now).2.Suspended k) :
    y.Suspended k := by
  obtain ⟨r, hr, hs⟩ := h
  rw [record_finish] at hr
  split at hr
  · cases hr
  · exact ⟨r, hr, hs⟩

theorem suspended_resume (h : (y.resume t d now).Suspended k) : y.Suspended k :=
  suspended_of_records rfl
    (suspended_markRunning (y := { y with active := some d, activeTask := some t }) h)

theorem suspended_abort (h : (y.abort t d now).2.Suspended k) : y.Suspended k :=
  suspended_of_records rfl (suspended_finish (y := (y.removeWaiter d).retire) h)

theorem suspended_complete {outcome : TaskOutcome}
    (h : (y.complete t outcome now).2.Suspended k) : y.Suspended k :=
  suspended_of_records rfl (suspended_finish (y := { y with activeTask := none }) h)

theorem records_release : (y.release d).records = y.records := by
  unfold release
  split <;> rfl

theorem handles_release : (y.release d).handles = y.handles := by
  unfold release
  split <;> rfl

theorem suspended_strand (h : (y.strand t d now).2.Suspended k) : y.Suspended k := by
  have released : (y.release d).Suspended k := by
    unfold strand at h
    dsimp only at h
    have before := suspended_finish h
    exact suspended_of_records rfl before
  exact suspended_of_records records_release released

theorem suspended_suspend {label : String} (h : (y.suspend t d label).Suspended k) :
    y.Suspended k ∨ k = t := by
  have h : (({ y.release d with activeTask := none } : Scheduler S A V).setState t .suspended
      fun r => { r with view := { r.view with
        guard := some label, ready := false, suspensions := r.view.suspensions + 1 } }).Suspended k := h
  rcases suspended_setState h fun r => rfl with h | ⟨h, -⟩
  · exact .inl (suspended_of_records records_release h)
  · exact .inr h

theorem suspended_enqueue {view : TaskView} {body : Body S A V} (hv : view.state = .queued)
    (h : (y.enqueue view body).Suspended k) : y.Suspended k := by
  obtain ⟨r, hr, hs⟩ := h
  simp only [enqueue, Table.get?_put] at hr
  split at hr
  · cases hr
    rw [hv] at hs
    cases hs
  · exact ⟨r, hr, hs⟩

theorem suspended_withdraw (h : (y.withdraw t).Suspended k) : y.Suspended k := by
  obtain ⟨r, hr, hs⟩ := h
  simp only [withdraw, Table.get?_remove] at hr
  split at hr
  · cases hr
  · exact ⟨r, hr, hs⟩

theorem suspended_markReady (h : (y.markReady t).Suspended k) : y.Suspended k := by
  obtain ⟨r, hr, hs⟩ := h
  simp only [markReady, Table.get?_modify] at hr
  split at hr
  · obtain ⟨r₀, hr₀, rfl⟩ := Option.map_eq_some_iff.mp hr
    exact ⟨r₀, hr₀, hs⟩
  · exact ⟨r, hr, hs⟩

end Scheduler

open Scheduler

/-- A deed suspends nobody but the doer's own task. -/
theorem Deed.suspended {loud : Bool} (h : Deed g a own loud s x s' x')
    (hfresh : ∀ seat view, s = .enrol seat g view → view.state = .queued)
    (hk : x'.scheduler.Suspended k) :
    x.scheduler.Suspended k ∨ (own = some g ∧ s'.suspends = some k) := by
  cases h with
  | @take c x t body rest now =>
    exact .inl (suspended_of_records rfl (suspended_markRunning
      (y := { x.scheduler with queue := rest, activeTask := some t }) hk))
  | retire => exact .inl (suspended_of_records records_release hk)
  | submit body => exact .inl (suspended_enqueue (hfresh _ _ rfl) hk)
  | enqueue body => exact .inl (suspended_enqueue (hfresh _ _ rfl) hk)
  | withdraw => exact .inl (suspended_withdraw hk)
  | suspend label =>
    rcases suspended_suspend hk with h | rfl
    · exact .inl h
    · exact .inr ⟨rfl, rfl⟩
  | handOver label =>
    rcases suspended_suspend hk with h | rfl
    · exact .inl h
    · exact .inr ⟨rfl, rfl⟩
  | markReady => exact .inl (suspended_markReady hk)
  | abort now => exact .inl (suspended_abort hk)
  | resume now => exact .inl (suspended_resume hk)
  | complete now => exact .inl (suspended_complete hk)
  | @strand c t x now =>
    exact .inl (suspended_of_records rfl (suspended_strand (y := x.scheduler.removeWaiter c) hk))
  | _ => exact .inl hk

theorem Grant.suspended (h : Grant g c a own s x s' x') (hk : x'.scheduler.Suspended k) :
    x.scheduler.Suspended k := by
  cases h <;> exact hk

/-- A task is suspended only if it was, or if the actor has suspended its own. -/
theorem Shift.suspended (ho : m.Ordered) (h : Shift m m' actor)
    (hfresh : ∀ a own seat i view, m.look a = some (own, .enrol seat i view) → view.state = .queued)
    (hx : m.cogs.get? g = some x) (hx' : m'.cogs.get? g = some x') (hk : x'.scheduler.Suspended k) :
    x.scheduler.Suspended k ∨ ∃ a s, m'.look a = some (some g, s) ∧ s.suspends = some k := by
  obtain ⟨y, hy, worked⟩ := h.cog hx (ho.newCog (by simp [hx]))
  cases hy.symm.trans hx'
  cases worked with
  | idle e =>
    rw [e] at hk
    exact .inl hk
  | @deed a own loud s s' ht hd =>
    have fresh (seat : Option Seat) (view : TaskView) (e : s = .enrol seat g view) :
        view.state = .queued := hfresh a own seat g view (e ▸ ht.before)
    rcases hd.suspended fresh hk with h | ⟨rfl, h⟩
    · exact .inl h
    · exact .inr ⟨a, s', ht.after, h⟩
  | grant _ hg => exact .inl (hg.suspended hk)

/-- A cog that has just been founded has no tasks. -/
theorem Shift.founded (h : Shift m m' actor) (hx : m.cogs.get? g = none)
    (hx' : m'.cogs.get? g = some x') : ¬ x'.scheduler.Suspended k := by
  have same (hc : m'.cogs = m.cogs) : ¬ x'.scheduler.Suspended k := by
    rw [hc, hx] at hx'
    cases hx'
  have works {i : CogId} {y y' : Cog S A V} (hw : Works m i y y' m') : ¬ x'.scheduler.Suspended k := by
    rcases hw.cases hx' with ⟨rfl, -⟩ | ⟨-, hx'⟩
    · rw [hw.before] at hx
      cases hx
    · rw [hx] at hx'
      cases hx'
  cases h with
  | deed _ hw => exact works hw
  | birth _ hw => exact works hw
  | found name state _ hc =>
    rw [hc, Table.get?_put] at hx'
    split at hx'
    · cases hx'
      rintro ⟨r, hr, -⟩
      cases hr
    · rw [hx] at hx'
      cases hx'
  | furnish _ hc =>
    rw [hc, Table.get?_modify, hx] at hx'
    split at hx' <;> cases hx'
  | _ => exact same ‹_›

/-! ## Who is suspended awaits -/

/-- A thread about to put a task into a queue was so before, or it has just left a body with a new task. -/
theorem Shift.enrol (h : Shift m m' actor) {seat : Option Seat} {i : CogId} {view : TaskView}
    (hl : m'.look a = some (own, .enrol seat i view)) :
    m.look a = some (own, .enrol seat i view) ∨ (actor = some a ∧ m.look a = some (own, .body seat)) ∧
      view.id = m.nextTask ∧ m.nextTask.val < m'.nextTask.val ∧ view.state = .queued ∧
      view.context = none := by
  rcases h.came hl with ⟨rfl, s₀, hl₀⟩ | hl₀ | e | e
  · obtain ⟨-, passes⟩ := h.passes hl₀ hl
    generalize hs : Stance.enrol seat i view = s at passes
    cases passes with
    | quiet hq => cases hq with
      | same => exact .inl (hs ▸ hl₀)
      | enter _ d hd =>
        have stage := Stance.stage?_restage _ (.launch d) hd
        rw [← hs] at stage
        cases stage
      | _ => cases hs
    | deed hd => cases hd <;> cases hs
    | allocate hst =>
      have stage := Stance.stage?_restage _ (.register m.registry.nextContext) hst
      rw [← hs] at stage
      cases stage
    | grant hg => cases hg <;> cases hs
    | launch => cases hs
    | letter hid next state context =>
      cases hs
      exact .inr ⟨⟨rfl, hl₀⟩, hid, next, state, context⟩
  · exact .inl hl₀
  · cases e
  · cases e

structure Machine.Recorded (m : Machine S A V) : Prop where
  /-- A task that is about to be put into a queue has not begun. -/
  fresh {a : Agent} {own : Option CogId} {seat : Option Seat} {i : CogId} {view : TaskView} :
    m.look a = some (own, .enrol seat i view) → view.state = .queued
  suspended {g : CogId} {x : Cog S A V} {t : TaskId} : m.cogs.get? g = some x →
    x.scheduler.Suspended t → ∃ a s, m.look a = some (some g, s) ∧ s.suspends = some t

namespace Machine.Recorded

theorem empty (r : Registry) (memory : A) : (Machine.empty r memory : Machine S A V).Recorded where
  fresh h := by cases h
  suspended h := by cases h

/-- An action in which no panic unwinds through an await keeps the records right. -/
theorem act (h : m.Recorded) (ho : m.Ordered) {act : Action S A V} (ha : m.act act = some m')
    (hno : ∀ c g t aw, act = .step (.context c) → m.threads.get? (.context c) = some t →
      t.cog = some g → t.control.await? = some aw → ¬ Unwinds m c g aw) : m'.Recorded := by
  have shift := shift_act ho ha
  constructor
  case fresh =>
    intro a own seat i view hl
    exact (shift.enrol hl).elim (fun old => h.fresh old) (·.2.2.2.1)
  case suspended =>
    intro g x' k hx' hk
    obtain ⟨x, hx⟩ : ∃ x, m.cogs.get? g = some x := by
      cases hx : m.cogs.get? g with
      | some x => exact ⟨x, rfl⟩
      | none => exact absurd hk (shift.founded hx hx')
    rcases shift.suspended ho (fun _ _ _ _ _ => h.fresh) hx hx' hk with hk₀ | awaits
    · obtain ⟨a, s, hl, hs⟩ := h.suspended hx hk₀
      by_cases hact : act.actor? = some a
      · rw [hact] at shift
        obtain ⟨s', hl', hs' | ⟨active, rfl⟩⟩ := shift.suspends hl hs
        · exact ⟨a, s', hl', hs'⟩
        · obtain ⟨⟨c, rfl⟩, -⟩ := ho.home hl
          obtain rfl := Action.step_of_actor hact
          obtain ⟨t, ht, hg, hst⟩ := look_eq_some m _ hl
          obtain ⟨aw, haw, rfl⟩ := Control.await_of_suspends (hst ▸ hs)
          obtain ⟨control, ht', out⟩ := step_outcome ho ht hg haw ha
          have awake (hw : m'.Awake g aw.task) : False := by
            obtain ⟨r, hr, hs⟩ := hk
            exact hw x' r hx' hr hs
          have none : control.await? = none := by
            rw [look_eq m' _ ht'] at hl'
            exact Control.await?_body (congrArg Prod.snd (Option.some.inj hl'))
          cases out with
          | awaits hk' =>
            rw [none] at hk'
            cases hk'
          | aborted _ hw => exact (awake hw).elim
          | failed _ _ hw => exact (awake hw).elim
          | unwound _ _ hu => exact absurd hu (hno c g t aw rfl ht hg haw)
          | resumes _ hw => exact (awake hw).elim
      · have stirred := shift.other ho (by simp [hl]) hact
        exact ⟨a, s, stirred.look ▸ hl, hs⟩
    · exact awaits

end Machine.Recorded

end ObjectGroups
