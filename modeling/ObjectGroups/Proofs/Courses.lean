/-
What a deed comes to for the tasks of a cog.

A deed gives at most one task another record or another handle, and the stance
of the thread tells which: the task that it hosts, the one that it is about to
put into the queue, or the one at the end of the queue that it takes (back).
`Course` has one case for each step that a task can take. Where an operation
would do nothing for a task without a record, the record is there, so `Course`
says what the operation does.
-/
import ObjectGroups.Proofs.Records

namespace ObjectGroups

variable {S A V : Type} {m m' : Machine S A V} {a : Agent} {g : CogId} {c : ContextId}
  {own : Option CogId} {s s' : Stance} {x x' : Cog S A V} {k j : TaskId} {move : Action S A V}

open Machine

/-! ## New tasks -/

namespace Machine

section
variable {P : TaskView → Prop}
  (new : ∀ (k : TaskId) name (g : CogId) now, P { id := k, name, cog := g, submittedAt := now })
include new

/-- A thread that runs a body puts a task into a queue by a submission alone, and the task is a new one. -/
theorem enrols_step {seat seat' : Option Seat} {own' : Option CogId} {i : CogId} {view : TaskView}
    (hl : m.look a = some (own, .body seat)) (h : m.step a = some m')
    (hl' : m'.look a = some (own', .enrol seat' i view)) : P view := by
  -- Whatever else it does, it goes on in another stance.
  have other {Q : Prop} {m₁ : Machine S A V} {k : Control S A V} (e : m' = m₁.setControl a k)
      (hk : k.stance ≠ .enrol seat' i view) : Q := by
    rw [e, look_setControl, if_pos rfl] at hl'
    obtain ⟨p, -, e⟩ := Option.map_eq_some_iff.mp hl'
    exact absurd (congrArg Prod.snd e) hk
  obtain ⟨t, ht, -, hst⟩ := look_eq_some m a hl
  have took := step_of ht h
  generalize t.control = k at hst took
  cases took with
  | runs took => cases took with
    | quits => simp [look] at hl'
    | submits =>
      rw [look_setControl, if_pos rfl] at hl'
      obtain ⟨p, -, e⟩ := Option.map_eq_some_iff.mp hl'
      cases e
      exact new ..
    | _ => exact other rfl (by simp [Control.stance, Phase.stance, Errand.stance])
  | @tells j n after =>
    have going : after.stance = .body seat := hst
    exact other rfl (by simp [going])
  | sends took => cases took <;> exact other rfl (by simp [Control.stance])
  | @starts stage e => cases e <;> cases hst
  | @awaits aw phase => cases phase <;> cases hst
  | enlists | joins | takes | retires | completes | strands | fades | leaves | departs => cases hst
  | _ => exact other rfl (by simp [Control.stance])

/-- In every run, a task that is about to be put into a queue shows what a new one shows. -/
theorem Reachable.enrolled {r : Registry} {memory : A} (h : Reachable (.empty r memory) m) {seat : Option Seat}
    {i : CogId} {view : TaskView} (hl : m.look a = some (own, .enrol seat i view)) : P view := by
  induction h generalizing a own seat i view with
  | refl => cases hl
  | @act m m' move h ha ih =>
    rcases (shift_act h.ordered ha).enrol hl with hl₀ | ⟨⟨hact, hl₀⟩, -⟩
    · exact ih hl₀
    · obtain rfl := Action.step_of_actor hact
      exact enrols_step new hl₀ ha hl

end

/-- Nothing has happened yet to a task that is about to be put into a queue. -/
def Blank (m : Machine S A V) : Prop :=
  ∀ a own seat i view, m.look a = some (own, .enrol seat i view) →
    (view.state = .queued ∧ view.context = none) ∧ view.guard = none ∧ view.ready = false

theorem Reachable.blank {r : Registry} {memory : A} (h : Reachable (.empty r memory) m) : m.Blank := by
  intro a own seat i view hl
  refine Reachable.enrolled (P := fun view => (view.state = .queued ∧ view.context = none) ∧
    view.guard = none ∧ view.ready = false) ?_ h hl
  exact fun k name g now => ⟨⟨rfl, rfl⟩, rfl, rfl⟩

end Machine

/-! ## Bodies that end without the slot -/

/-- A task whose body has ended without the slot is ended now if it is unfinished. -/
theorem Machine.Ordered.strand_cases (ho : m.Ordered) (ha : m.act move = some m')
    (hx : m.cogs.get? g = some x) (hx' : m'.cogs.get? g = some x')
    (hl : m.look a = some (some g, .strand k)) (hl' : m'.look a = some (some g, .leave)) :
    x'.ended = if x.scheduler.records.has k then x.ended + 1 else x.ended := by
  rcases ho.kept_or_steps ha hl with same | rfl
  · cases same.symm.trans hl'
  have h : m.step a = some m' := ha
  obtain ⟨⟨c, rfl⟩, -⟩ := ho.home hl
  obtain ⟨t, ht, hg, hst⟩ := look_eq_some m _ hl
  have took := step_of ht h
  rw [hg] at took
  generalize t.control = control at hst took
  cases took with
  | @strands d i y j _ hi hy _ unfinished =>
    cases hst
    cases hi
    cases hx.symm.trans hy
    simp only [cogs_announceEnd, report, cogs_broadcast] at hx'
    rw [cog_onCog_self _ _ _ hx] at hx'
    cases hx'
    rw [if_pos (show x.scheduler.records.has k = true from unfinished)]
  | @fades d i y j _ hi hy _ finished =>
    cases hst
    cases hi
    cases hx.symm.trans hy
    simp only [cogs_setControl, onScheduler] at hx'
    rw [cog_onCog_self _ _ _ hx] at hx'
    cases hx'
    rw [if_neg (show ¬ x.scheduler.records.has k = true from Bool.eq_false_iff.mp finished)]
  | @tells i n after =>
    -- Who tells a notice first does not go on in the same step.
    rw [look_setControl, if_pos rfl, look_deliver, hl] at hl'
    have later : after.stance = .leave := congrArg Prod.snd (Option.some.inj hl')
    have before : after.stance = .strand k := hst
    rw [later] at before
    cases before
  | @starts stage e => cases e <;> cases hst
  | @awaits aw phase => cases phase <;> cases hst
  | _ => cases hst

/-! ## Entries for one task -/

namespace Scheduler

variable {y y' : Scheduler S A V} {st : TaskState} {f : TaskRecord → TaskRecord}
  {outcome : TaskOutcome} {now : Instant}

/-- How many tasks have ended this way. -/
def tally (y : Scheduler S A V) : TaskOutcome → Nat
  | .completed => y.metrics.completed
  | .failed => y.metrics.failed
  | .aborted => y.metrics.aborted

/-- Records, handles and the queue stay as they are. -/
structure SameTasks (y y' : Scheduler S A V) : Prop where
  records : y'.records = y.records
  handles : y'.handles = y.handles
  queued : y'.queued = y.queued

/-- One task is counted that has ended this way, if any, and `retired` contexts, and then
`active` has the slot. -/
structure Counts (y y' : Scheduler S A V) (ended : Option TaskOutcome) (retired : Nat)
    (active : Option ContextId) : Prop where
  tally : ∀ o, y'.tally o = y.tally o + if ended = some o then 1 else 0
  retired : y'.metrics.contextsRetired = y.metrics.contextsRetired + retired
  started : y'.metrics.contextsStarted = y.metrics.contextsStarted
  active : y'.active = active

/-- The unfinished task goes to another state, in its record and in its handle. -/
structure Moves (y y' : Scheduler S A V) (k : TaskId) (st : TaskState) (f : TaskRecord → TaskRecord) :
    Prop where
  present : (y.records.get? k).isSome
  records : y'.records = y.records.modify k f
  handles : y'.handles = y.handles.modify k fun h => { h with state := st }

/-- The unfinished task ends. -/
structure Ends (y y' : Scheduler S A V) (k : TaskId) (outcome : TaskOutcome) : Prop where
  present : (y.records.get? k).isSome
  records : y'.records = y.records.remove k
  handles : y'.handles = y.handles.modify k fun _ => { state := .finished, outcome := some outcome }

/-- A new task comes to the end of the queue. -/
structure Enters (y y' : Scheduler S A V) (view : TaskView) : Prop where
  state : view.state = .queued
  plain : view.guard = none ∧ view.ready = false
  records : y'.records = y.records.put view.id { view }
  handles : y'.handles = y.handles.put view.id {}
  queued : y'.queued = y.queued ++ [view.id]

/-- The last task of the queue is taken back. -/
structure Withdraws (y y' : Scheduler S A V) (k : TaskId) : Prop where
  records : y'.records = y.records.remove k
  handles : y'.handles = y.handles.remove k
  queued : y'.queued = y.queued.dropLast

theorem Counts.silent (hm : y'.metrics = y.metrics) (ha : y'.active = y.active) :
    y.Counts y' none 0 y.active := by
  constructor
  · intro o
    cases o <;> simp [Scheduler.tally, hm]
  · rw [hm]
    rfl
  · rw [hm]
  · exact ha

@[simp] theorem metrics_setState : (y.setState k st f).metrics = y.metrics := by
  unfold setState
  split <;> rfl

@[simp] theorem metrics_release : (y.release c).metrics = y.metrics := by
  unfold release
  split <;> rfl

theorem handles_setState (h : (y.records.get? k).isSome) :
    (y.setState k st f).handles = y.handles.modify k fun h => { h with state := st } := by
  have there : y.records.has k = true := h
  unfold setState
  rw [if_pos there]

theorem moves_setState (h : (y.records.get? k).isSome) :
    y.Moves (y.setState k st f) k st fun r => f { r with view := { r.view with state := st } } where
  present := h
  records := records_setState y st f
  handles := handles_setState h

theorem ends_finish (h : (y.records.get? k).isSome) : y.Ends (y.finish k outcome now).2 k outcome where
  present := h
  records := records_finish y outcome now
  handles := by
    obtain ⟨r, hr⟩ := Option.isSome_iff_exists.mp h
    unfold finish
    rw [hr]

theorem counts_finish (h : (y.records.get? k).isSome) (outcome : TaskOutcome) (now : Instant) :
    y.Counts (y.finish k outcome now).2 (some outcome) 0 y.active := by
  obtain ⟨⟨view, startedAt⟩, hr⟩ := Option.isSome_iff_exists.mp h
  unfold finish
  rw [hr]
  constructor
  · intro o
    cases outcome <;> cases o <;> cases startedAt <;> rfl
  · cases outcome <;> cases startedAt <;> rfl
  · cases outcome <;> cases startedAt <;> rfl
  · rfl

/-- The slot and the waiters are nothing to records and handles. -/
theorem Moves.of_eq {z : Scheduler S A V} (h : z.Moves y' k st f) (hr : z.records = y.records)
    (hh : z.handles = y.handles) : y.Moves y' k st f :=
  ⟨hr ▸ h.present, hr ▸ h.records, hh ▸ h.handles⟩

theorem Ends.of_eq {z : Scheduler S A V} (h : z.Ends y' k outcome) (hr : z.records = y.records)
    (hh : z.handles = y.handles) : y.Ends y' k outcome :=
  ⟨hr ▸ h.present, hr ▸ h.records, hh ▸ h.handles⟩

end Scheduler

/-! ## Operations -/

namespace Scheduler

variable {y y' : Scheduler S A V} {label : String} {outcome : TaskOutcome} {now : Instant}

/-- The record of a task that has been given the slot. -/
def running (c : ContextId) (now : Instant) (r : TaskRecord) : TaskRecord :=
  { view := { r.view with state := .running, context := some c, guard := none, ready := false }
    startedAt := some (r.startedAt.getD now) }

/-- The record of a task that has begun to await. -/
def awaiting (label : String) (r : TaskRecord) : TaskRecord :=
  { r with view := { r.view with
      state := .suspended, guard := some label, ready := false, suspensions := r.view.suspensions + 1 } }

/-- The record of a task whose guard holds for good. -/
def prepared (r : TaskRecord) : TaskRecord := { r with view := { r.view with ready := true } }

theorem counts_enqueue {view : TaskView} {body : Body S A V} :
    y.Counts (y.enqueue view body) none 0 y.active :=
  ⟨fun o => by cases o <;> rfl, rfl, rfl, rfl⟩

theorem counts_withdraw : y.Counts (y.withdraw k) none 0 y.active :=
  ⟨fun o => by cases o <;> rfl, rfl, rfl, rfl⟩

theorem counts_retire : y.Counts (y.release c).retire none 1 (y.release c).active := by
  constructor
  · intro o
    cases o <;> simp [tally, retire]
  · simp [retire]
  · simp [retire]
  · rfl

theorem counts_suspend : y.Counts (y.suspend k c label) none 0 (y.release c).active := by
  constructor
  · intro o
    cases o <;> simp [tally, suspend, markSuspended]
  · simp [suspend, markSuspended]
  · simp [suspend, markSuspended]
  · exact active_suspend ..

theorem counts_resume : y.Counts (y.resume k c now) none 0 (some c) := by
  constructor
  · intro o
    cases o <;> simp [tally, resume, markRunning]
  · simp [resume, markRunning]
  · simp [resume, markRunning]
  · exact active_resume ..

section
variable (h : (y.records.get? k).isSome)
include h

theorem moves_markRunning : y.Moves (y.markRunning k c now) k .running (running c now) :=
  moves_setState h

theorem moves_suspend : y.Moves (y.suspend k c label) k .suspended (awaiting label) where
  present := h
  records := records_suspend y k c label
  handles := by
    have there : (({ y.release c with activeTask := none } : Scheduler S A V).records.get? k).isSome := by
      rwa [← records_release (y := y) (d := c)] at h
    rw [← handles_release (y := y) (d := c)]
    exact handles_setState there

theorem moves_resume : y.Moves (y.resume k c now) k .running (running c now) where
  present := h
  records := records_resume y k c now
  handles := by
    have there : (({ y with active := some c, activeTask := some k } : Scheduler S A V).records.get? k).isSome := h
    exact handles_setState there

theorem ends_abort (c : ContextId) (now : Instant) : y.Ends (y.abort k c now).2 k .aborted ∧
    y.Counts (y.abort k c now).2 (some .aborted) 1 y.active := by
  have there : (((y.removeWaiter c).retire).records.get? k).isSome := h
  have counts : ((y.removeWaiter c).retire).Counts (y.abort k c now).2 (some .aborted) 0 y.active :=
    counts_finish there .aborted now
  exact ⟨(ends_finish there).of_eq rfl rfl, counts.tally, counts.retired, counts.started, counts.active⟩

theorem ends_complete (outcome : TaskOutcome) (now : Instant) :
    y.Ends (y.complete k outcome now).2 k outcome ∧
    y.Counts (y.complete k outcome now).2 (some outcome) 0 y.active := by
  have there : (({ y with activeTask := none } : Scheduler S A V).records.get? k).isSome := h
  have counts : ({ y with activeTask := none } : Scheduler S A V).Counts (y.complete k outcome now).2
      (some outcome) 0 y.active := counts_finish there outcome now
  exact ⟨(ends_finish there).of_eq rfl rfl, counts.tally, counts.retired, counts.started, counts.active⟩

theorem ends_strand (c : ContextId) (now : Instant) : y.Ends (y.strand k c now).2 k .failed ∧
    y.Counts (y.strand k c now).2 (some .failed) 1 (y.release c).active := by
  have released : ((y.release c).records.get? k).isSome := by rwa [records_release]
  have counts : y.Counts (y.release c).retire none 1 (y.release c).active := counts_retire
  unfold strand
  refine ⟨(ends_finish ?_).of_eq (records_release (y := y) (d := c)) (handles_release (y := y) (d := c)), ?_⟩
  · exact released
  · have there : ((({ y.release c with
        activeTask := if y.activeTask = some k then none else y.activeTask } : Scheduler S A V).retire).records.get?
          k).isSome := released
    have ended := counts_finish there .failed now
    rw [← activeTask_release (s := y) (c := c)] at ended
    refine ⟨fun o => ?_, ?_, ?_, ended.active⟩
    · rw [ended.tally, ← Nat.add_zero (y.tally o)]
      exact congrArg (· + _) (counts.tally o)
    · exact ended.retired.trans counts.retired
    · exact ended.started.trans counts.started

end

end Scheduler

open Scheduler

/-- The thread hosts the same task as before, and in the same way. -/
structure Stance.Keeps (s s' : Stance) : Prop where
  seat : s'.seat? = s.seat?
  slot : s'.slot = s.slot
  suspends : s'.suspends = s.suspends

/-- Who counts a stranded task has found its record. -/
theorem unfinished_of_counted
    (h : x.ended + 1 = if x.scheduler.records.has k then x.ended + 1 else x.ended) :
    (x.scheduler.records.get? k).isSome := by
  by_contra finished
  have finished : ¬ x.scheduler.records.has k = true := finished
  rw [if_neg finished] at h
  omega

/-- What a deed of the thread `a` comes to for the tasks of the cog `g`. -/
inductive Course (a : Agent) (g : CogId) (own : Option CogId) (y y' : Scheduler S A V) :
    Stance → Stance → Prop where
  | rest {s s' : Stance} : s.Keeps s' → y.SameTasks y' → y.Counts y' none 0 y.active →
      Course a g own y y' s s'
  /-- A panic unwinds through an await. -/
  | unwind {k : TaskId} {s : Stance} : own = some g → s.suspends = some k → y.SameTasks y' →
      y.Counts y' none 0 y.active → Course a g own y y' s (.body (some ⟨k, false⟩))
  | retire {c : ContextId} : a = .context c → own = some g → y.SameTasks y' →
      y.Counts y' none 1 (y.release c).active → Course a g own y y' .claim .leave
  | enter {s s' : Stance} {view : TaskView} : s.letter? = some view.id → s.Keeps s' →
      y.Enters y' view → y.Counts y' none 0 y.active → Course a g own y y' s s'
  | withdraw {s s' : Stance} {k : TaskId} : s.offers g = some k → s.Keeps s' → y.Withdraws y' k →
      y.Counts y' none 0 y.active → Course a g own y y' s s'
  | start {c : ContextId} {k : TaskId} (now : Instant) : a = .context c → own = some g →
      y.queued = k :: y'.queued → y.Moves y' k .running (running c now) →
      y.Counts y' none 0 y.active → Course a g own y y' .claim (.body (some ⟨k, true⟩))
  | suspend {c : ContextId} {k : TaskId} {s' : Stance} (label : String) : a = .context c →
      own = some g → y'.queued = y.queued → s'.suspends = some k →
      y.Moves y' k .suspended (awaiting label) → y.Counts y' none 0 (y.release c).active →
      Course a g own y y' (.release k) s'
  | prepare {k : TaskId} : own = some g → y'.queued = y.queued →
      y'.records = y.records.modify k prepared → y'.handles = y.handles →
      y.Counts y' none 0 y.active → Course a g own y y' (.wait k) (.wait k)
  | resume {c : ContextId} {k : TaskId} (now : Instant) : a = .context c → own = some g →
      y'.queued = y.queued → y.Moves y' k .running (running c now) → y.active = none →
      y.Counts y' none 0 (some c) → Course a g own y y' (.contend k) (.body (some ⟨k, true⟩))
  | complete {k : TaskId} {outcome : TaskOutcome} : own = some g → y'.queued = y.queued →
      y.Ends y' k outcome → y.Counts y' (some outcome) 0 y.active →
      Course a g own y y' (.complete k outcome) .claim
  | abort {c : ContextId} {k : TaskId} {s : Stance} : a = .context c → own = some g →
      y'.queued = y.queued → s = .contend k ∨ s = .wait k → y.Ends y' k .aborted →
      y.Counts y' (some .aborted) 1 y.active → Course a g own y y' s (.body (some ⟨k, false⟩))
  /-- The body has ended without the slot, and the task ends with it. -/
  | strand {c : ContextId} {k : TaskId} : a = .context c → own = some g → y'.queued = y.queued →
      y.Ends y' k .failed → y.Counts y' (some .failed) 1 (y.release c).active →
      Course a g own y y' (.strand k) .leave
  /-- The body has ended without the slot, and after its task. -/
  | fade {c : ContextId} {k : TaskId} : a = .context c → own = some g →
      y.records.get? k = none → y.SameTasks y' → y.Counts y' none 0 y.active →
      Course a g own y y' (.strand k) .leave

theorem Deed.course {loud : Bool} (h : Deed g a own loud s x s' x')
    (hq : ∀ k ∈ x.scheduler.queued, (x.scheduler.records.get? k).isSome)
    (hc : own = some g → ∀ k, s.charge = some k → (x.scheduler.records.get? k).isSome)
    (hn : ∀ seat view, s = .enrol seat g view →
      (view.state = .queued ∧ view.context = none) ∧ view.guard = none ∧ view.ready = false)
    (hs : ∀ k, s = .strand k → s' = .leave →
      x'.ended = if x.scheduler.records.has k then x.ended + 1 else x.ended) :
    Course a g own x.scheduler x'.scheduler s s' := by
  have entered {view : TaskView} {body : Body S A V} (hview : (view.state = .queued ∧ view.context = none) ∧
      view.guard = none ∧ view.ready = false) : x.scheduler.Enters (x.scheduler.enqueue view body) view :=
    ⟨hview.1.1, hview.2, rfl, rfl, by simp [Scheduler.queued, Scheduler.enqueue]⟩
  cases h with
  | @take c x k body rest now hlock ha hqueue =>
    have taken : ({ x.scheduler with queue := rest, activeTask := some k } : Scheduler S A V).Moves
        (({ x.scheduler with queue := rest, activeTask := some k } : Scheduler S A V).markRunning k c now)
        k .running (running c now) := moves_markRunning (hq k (by simp [Scheduler.queued, hqueue]))
    exact .start now rfl rfl (by simp [Scheduler.queued, hqueue]) (taken.of_eq rfl rfl)
      (.silent metrics_setState (active_setState ..))
  | retire =>
    exact .retire rfl rfl ⟨records_release, handles_release, by simp [Scheduler.queued, Scheduler.retire]⟩
      counts_retire
  | submit body => exact .enter rfl ⟨rfl, rfl, rfl⟩ (entered (hn _ _ rfl)) counts_enqueue
  | enqueue body => exact .enter rfl ⟨rfl, rfl, rfl⟩ (entered (hn _ _ rfl)) counts_enqueue
  | withdraw =>
    exact .withdraw (if_pos rfl) ⟨rfl, rfl, rfl⟩
      ⟨rfl, rfl, by simp [Scheduler.queued, Scheduler.withdraw]⟩ counts_withdraw
  | @suspend c k x label =>
    have moves : x.scheduler.Moves (x.scheduler.suspend k c label) k .suspended (awaiting label) :=
      moves_suspend (hc rfl k rfl)
    have counts : x.scheduler.Counts (x.scheduler.suspend k c label) none 0 (x.scheduler.release c).active :=
      counts_suspend
    exact .suspend label rfl rfl (by simp [Scheduler.queued, Scheduler.addWaiter]) rfl
      ⟨moves.present, moves.records, moves.handles⟩
      ⟨counts.tally, counts.retired, counts.started, counts.active⟩
  | handOver label =>
    exact .suspend label rfl rfl (by simp [Scheduler.queued]) rfl (moves_suspend (hc rfl _ rfl))
      counts_suspend
  | markReady => exact .prepare rfl rfl rfl rfl (.silent rfl rfl)
  | @abort c s k x now hst =>
    have hosts : s.charge = some k := by rcases hst with rfl | ⟨rfl, -⟩ <;> rfl
    obtain ⟨ends, counts⟩ := ends_abort (hc rfl k hosts) c now
    exact .abort rfl rfl (by simp [Scheduler.queued]) (hst.imp_right And.left) ends counts
  | resume now free =>
    exact .resume now rfl rfl (by simp [Scheduler.queued]) (moves_resume (hc rfl _ rfl)) free counts_resume
  | complete now =>
    obtain ⟨ends, counts⟩ := ends_complete (hc rfl _ rfl) _ now
    exact .complete rfl (by simp [Scheduler.queued]) ends counts
  | @strand c k x now =>
    have present : ((x.scheduler.removeWaiter c).records.get? k).isSome :=
      unfinished_of_counted (hs k rfl rfl)
    obtain ⟨ends, counts⟩ := ends_strand present c now
    refine .strand rfl rfl (by simp [Scheduler.queued, Scheduler.removeWaiter]) (ends.of_eq rfl rfl)
      ⟨counts.tally, counts.retired, counts.started, ?_⟩
    rw [counts.active, active_release, active_release]
    rfl
  | @fade c k x =>
    have ended := hs k rfl rfl
    refine .fade rfl rfl ?_ ⟨rfl, rfl, rfl⟩ (.silent rfl rfl)
    by_contra unfinished
    have unfinished : x.scheduler.records.has k = true := Option.isSome_iff_ne_none.mpr unfinished
    simp [unfinished] at ended
  | unwindHand => exact .unwind rfl rfl ⟨rfl, rfl, rfl⟩ (.silent rfl rfl)
  | unwind => exact .unwind rfl rfl ⟨rfl, rfl, rfl⟩ (.silent rfl rfl)
  | _ => exact .rest ⟨rfl, rfl, rfl⟩ ⟨rfl, rfl, rfl⟩ (.silent rfl rfl)

/-! ## All other tasks -/

namespace Table

variable {κ α : Type} [DecidableEq κ] {table table' : Table κ α} {i : κ}

theorem remove_modify (f : α → α) : (table.modify i f).remove i = table.remove i := by
  induction table with
  | nil => rfl
  | cons e table ih =>
    unfold remove modify at ih ⊢
    by_cases h : e.1 = i <;> simp_all

theorem remove_put (b : α) : (table.put i b).remove i = table.remove i := by
  induction table with
  | nil => simp [put, remove]
  | cons e table ih =>
    obtain ⟨j, d⟩ := e
    unfold remove at ih ⊢
    by_cases h : j = i <;> simp_all [put]

theorem remove_remove : (table.remove i).remove i = table.remove i := by
  simp [remove]

/-- Tables that agree but for one key agree on all others. -/
theorem get?_of_remove (h : table'.remove i = table.remove i) {l : κ} (hl : l ≠ i) :
    table'.get? l = table.get? l := by
  rw [← get?_remove_of_ne table' hl.symm, h, get?_remove_of_ne table hl.symm]

end Table

/-- Records, handles and the queue are as they were but for what they hold of the task `k`. -/
structure Scheduler.Concerns (y y' : Scheduler S A V) (k : TaskId) : Prop where
  records : y'.records.remove k = y.records.remove k
  handles : y'.handles.remove k = y.handles.remove k
  queue : y'.queued.filter (· ≠ k) = y.queued.filter (· ≠ k)

namespace Course

variable {y y' : Scheduler S A V}

/-- Nothing happens to the tasks, or something to one of them, which the thread hosts or puts
into the queue, or which is there. -/
theorem concerns (h : Course a g own y y' s s')
    (hl : ∀ k, s.offers g = some k → ∃ q, y.queued = q ++ [k]) :
    y.SameTasks y' ∨ ∃ k, y.Concerns y' k ∧
        ((own = some g ∧ ∃ active, s.seat? = some ⟨k, active⟩) ∨ s.letter? = some k ∨ k ∈ y.queued) := by
  have moves {k : TaskId} {st : TaskState} {f : TaskRecord → TaskRecord} (hm : y.Moves y' k st f)
      (hq : y'.queued.filter (· ≠ k) = y.queued.filter (· ≠ k)) : y.Concerns y' k :=
    ⟨by rw [hm.records, Table.remove_modify], by rw [hm.handles, Table.remove_modify], hq⟩
  have ends {k : TaskId} {outcome : TaskOutcome} (he : y.Ends y' k outcome)
      (hq : y'.queued = y.queued) : y.Concerns y' k :=
    ⟨by rw [he.records, Table.remove_remove], by rw [he.handles, Table.remove_modify], by rw [hq]⟩
  cases h with
  | rest _ same => exact .inl same
  | unwind _ _ same => exact .inl same
  | retire _ _ same => exact .inl same
  | enter hk _ enters =>
    refine .inr ⟨_, ⟨?_, ?_, ?_⟩, .inr (.inl hk)⟩
    · rw [enters.records, Table.remove_put]
    · rw [enters.handles, Table.remove_put]
    · simp [enters.queued]
  | withdraw hk _ withdraws =>
    obtain ⟨q, hq⟩ := hl _ hk
    refine .inr ⟨_, ⟨?_, ?_, ?_⟩, .inr (.inr (hq ▸ List.mem_append_right q List.mem_cons_self))⟩
    · rw [withdraws.records, Table.remove_remove]
    · rw [withdraws.handles, Table.remove_remove]
    · simp [withdraws.queued, hq]
  | start now _ _ hq hm => exact .inr ⟨_, moves hm (by simp [hq]), .inr (.inr (by simp [hq]))⟩
  | suspend label _ hown hq _ hm => exact .inr ⟨_, moves hm (by rw [hq]), .inl ⟨hown, true, rfl⟩⟩
  | prepare hown hq hr hh =>
    exact .inr ⟨_, ⟨by rw [hr, Table.remove_modify], by rw [hh], by rw [hq]⟩, .inl ⟨hown, false, rfl⟩⟩
  | resume now _ hown hq hm => exact .inr ⟨_, moves hm (by rw [hq]), .inl ⟨hown, false, rfl⟩⟩
  | complete hown hq he => exact .inr ⟨_, ends he hq, .inl ⟨hown, true, rfl⟩⟩
  | abort _ hown hq hst he =>
    refine .inr ⟨_, ends he hq, .inl ⟨hown, false, ?_⟩⟩
    rcases hst with rfl | rfl <;> rfl
  | strand _ hown hq he => exact .inr ⟨_, ends he hq, .inl ⟨hown, false, rfl⟩⟩
  | fade _ _ _ same => exact .inl same

/-- A task that is elsewhere keeps its record and its handle. -/
theorem spares (h : Course a g own y y' s s') (hl : ∀ k, s.offers g = some k → ∃ q, y.queued = q ++ [k])
    (hseat : own = some g → ∀ active, s.seat? ≠ some ⟨j, active⟩) (hletter : s.letter? ≠ some j)
    (hq : j ∉ y.queued) :
    y'.records.get? j = y.records.get? j ∧ y'.handles.get? j = y.handles.get? j := by
  rcases h.concerns hl with same | ⟨k, concerns, place⟩
  · exact ⟨by rw [same.records], by rw [same.handles]⟩
  · have hjk : j ≠ k := by
      rintro rfl
      rcases place with ⟨hown, active, seat⟩ | letter | queued
      · exact hseat hown active seat
      · exact hletter letter
      · exact hq queued
    exact ⟨Table.get?_of_remove concerns.records hjk, Table.get?_of_remove concerns.handles hjk⟩

end Course

end ObjectGroups
