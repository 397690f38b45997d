/-
Calls that wait for a bounded time tell the truth.

A call may wait until no context is live or until a task has finished, for as
long as it likes (`Watch`). It looks whether that is so before it sleeps, and
whenever it wakes; it gives up only when it has slept until its deadline, and
looks once more then. What makes the condition true notifies all who wait for
it: the last entry of the registry as it goes, and a task as it ends. So nobody
sleeps although there is nothing left to wait for (`Watching`).
-/
import ObjectGroups.Proofs.Callers
import ObjectGroups.Proofs.Parking
import ObjectGroups.Proofs.Snapshots
import ObjectGroups.Proofs.Timers
import ObjectGroups.Proofs.Voices

namespace ObjectGroups

variable {S A V : Type} {m m' m₁ n : Machine S A V} {a b : Agent} {g : CogId} {c : ContextId}
  {k : TaskId} {t : Thread S A V} {x : Cog S A V} {move : Action S A V} {r : Registry} {memory : A}
  {moves since : List (Move S A V)} {own : Option CogId}

open Machine Scheduler

/-! ## The end of a task is announced to all who wait for it -/

/-- Whether the task has finished. -/
def Machine.finished (m : Machine S A V) (g : CogId) (k : TaskId) : Bool :=
  (m.handle? g k).any (·.finished)

namespace Machine

theorem finished_books (m : Machine S A V) (g : CogId) (k : TaskId) :
    m.finished g k = ((m.books g).handles.get? k).any (·.finished) := by
  rw [finished, handle?_books]

theorem finished_of_handles (h : (m'.books g).handles = (m.books g).handles) :
    m'.finished g k = m.finished g k := by
  rw [finished_books, finished_books, h]

/-- What ends tasks and what does not. -/
theorem finished_changes {R : Scheduler S A V → Scheduler S A V → Prop} (h : m.Changes g m' R)
    (hR : ∀ y y' i, R y y' → (y'.handles.get? i).any (·.finished) = true →
      (y.handles.get? i).any (·.finished) = true) (i : CogId) (after : m'.finished i k = true) :
    m.finished i k = true := by
  rw [finished_books] at after ⊢
  rcases h.at i with changed | same
  · exact hR _ _ k changed after
  · rwa [same.handles] at after

end Machine

/-- The task that a step ends is that of the thread that takes it. -/
theorem Utters.ends {k₁ k₂ : Control S A V} (h : Utters m a own m' k₁ k₂)
    (before : m.finished g k = false) (after : m'.finished g k = true) :
    own = some g ∧ (m.books g).records.get? k ≠ none ∧
      ((∃ outcome, k₁ = .complete k outcome) ∨ k₁ = .strand k ∨
        ∃ aw phase, k₁ = .awaiting aw phase ∧ aw.task = k ∧
          (phase = .abort ∨ ∃ failure, phase = .contend failure)) := by
  have refute {P : Prop} (still : m.finished g k = true) : P := by
    rw [before] at still
    cases still
  have quiet {P : Prop} (same : m.SameBooks m') : P := by
    rw [finished_of_handles (same g).handles] at after
    exact refute after
  have moved {P : Prop} {i : CogId} {j : TaskId} {st : TaskState} {f : TaskRecord → TaskRecord}
      (hst : st ≠ .finished) (changes : m.Changes i m' (fun y y' => y.Moves y' j st f)) : P := by
    refine refute (finished_changes changes (fun y y' l moves ended => ?_) g after)
    rw [moves.handles, Table.get?_modify] at ended
    split at ended
    · cases hd : y.handles.get? l <;> simp [hd, TaskHandle.finished, hst] at ended
    · exact ended
  have entered {P : Prop} {i : CogId} {view : TaskView}
      (changes : m.Changes i m' (fun y y' => y.Enters y' view)) : P := by
    refine refute (finished_changes changes (fun y y' l enters ended => ?_) g after)
    rw [enters.handles, Table.get?_put] at ended
    split at ended
    · simp [TaskHandle.finished] at ended
    · exact ended
  have ended {i : CogId} {j : TaskId} {outcome : TaskOutcome}
      (changes : m.Changes i m' (fun y y' => y.Ends y' j outcome)) : i = g ∧ j = k := by
    by_contra other
    refine refute ?_
    rw [finished_books] at after ⊢
    rcases changes.at g with ends | same
    · by_cases hi : i = g
      · have hj : k ≠ j := fun e => other ⟨hi, e.symm⟩
        rwa [ends.handles, Table.get?_modify, if_neg hj] at after
      · rwa [(changes.elsewhere g fun e => hi e.symm).handles] at after
    · rwa [same.handles] at after
  cases h with
  | tells _ _ _ same | still same | starts same | forsakes same | handed _ _ same => exact quiet same
  | claims _ _ _ changes => exact moved (by simp) changes
  | submits changes | enters changes => exact entered changes
  | withdraws changes =>
    refine refute (finished_changes changes (fun y y' l withdraws ended => ?_) g after)
    rw [withdraws.handles, Table.get?_remove] at ended
    split at ended
    · cases ended
    · exact ended
  | hands _ changes | suspends _ _ changes => exact moved (by simp) changes
  | readies _ _ changes =>
    refine refute (finished_changes changes (fun y y' l readies ended => ?_) g after)
    rwa [readies.2.1] at ended
  | resumes _ _ _ changes => exact moved (by simp) changes
  | @aborts i aw phase record hown hp hr changes =>
    obtain ⟨rfl, rfl⟩ := ended changes
    exact ⟨hown, by simp [hr], .inr (.inr ⟨aw, phase, rfl, rfl, hp⟩)⟩
  | completes hown hr changes =>
    obtain ⟨rfl, rfl⟩ := ended changes
    exact ⟨hown, by simp [hr], .inl ⟨_, rfl⟩⟩
  | strands hown hr changes =>
    obtain ⟨rfl, rfl⟩ := ended changes
    exact ⟨hown, by simp [hr], .inr (.inl rfl)⟩

namespace Machine

/-- Who tells of the end of a task notifies all who wait for it. -/
theorem announceEnd_rouses {outcome : TaskOutcome} {view : TaskView} {next : Control S A V} (hb : b ≠ a)
    (hm : m.Stirred m₁ b) (ht : m.threads.get? b = some t)
    (hs : t.sleepsOn b (.task g view.id) = true) :
    (m₁.announceEnd a g outcome (some view) next).threads.get? b = some t.rouse := by
  obtain ⟨told, hp⟩ := hm
  rw [ht] at hp
  unfold announceEnd
  rw [thread_setControl, if_neg hb, thread_notifyAll, hp]
  cases told <;> simp [hs]

section
variable {record : TaskRecord} (hr : x.scheduler.records.get? k = some record) (hb : b ≠ a)
  (ht : m.threads.get? b = some t) (hs : t.sleepsOn b (.task g (lastView record.view).id) = true)
include hr hb ht hs

theorem abort_rouses {aw : Awaiting S A V} (hk : aw.task = k) :
    (m.abort a c g x aw).threads.get? b = some t.rouse := by
  subst hk
  have view : (x.scheduler.abort aw.task c m.now).1 = some (lastView record.view) :=
    view_finish (y := (x.scheduler.removeWaiter c).retire) hr ..
  unfold Machine.abort
  cases hab : x.scheduler.abort aw.task c m.now with
  | mk v scheduler =>
    rw [hab] at view
    cases view
    exact announceEnd_rouses hb (.same rfl) ht hs

theorem complete_rouses {outcome : TaskOutcome} :
    ((((m.onScheduler g fun _ => (x.scheduler.complete k outcome m.now).2).broadcast g).announceEnd a g outcome
      (x.scheduler.complete k outcome m.now).1 .claim).threads.get? b) = some t.rouse := by
  have view : (x.scheduler.complete k outcome m.now).1 = some (lastView record.view) :=
    view_finish (y := { x.scheduler with activeTask := none }) hr ..
  rw [view]
  exact announceEnd_rouses hb (.broadcast (.same rfl)) ht hs

theorem strand_rouses :
    ((((m.onCog g fun y => { y with
        scheduler := ((x.scheduler.removeWaiter c).strand k c m.now).2
        ended := y.ended + 1 }).broadcast g).report (.leftOutside x.name c k)).announceEnd a g .failed
      ((x.scheduler.removeWaiter c).strand k c m.now).1 .leave).threads.get? b = some t.rouse := by
  rw [view_strand (y := x.scheduler.removeWaiter c) hr c m.now]
  exact announceEnd_rouses hb (.trans (.broadcast (.same rfl)) (.same rfl)) ht hs

end

/-- A task that takes the slot again is not ended by that. -/
theorem finished_takeSlot {m₁ : Machine S A V} {aw : Awaiting S A V} {failure : Option GuardError}
    (hx : m.cogs.get? g = some x) (after : (m₁.takeSlot a c g x aw failure).finished g k = true)
    (same : m₁.cogs = m.cogs) : m.finished g k = true := by
  rw [finished_books, books_eq (cog_takeSlot m₁ c aw failure (same ▸ hx))] at after
  rw [finished_books, books_eq hx]
  unfold resume markRunning setState at after
  dsimp only at after
  split at after
  · rw [Table.get?_modify] at after
    split at after
    · cases hd : x.scheduler.handles.get? k <;> simp [hd, TaskHandle.finished] at after
    · exact after
  · exact after

end Machine

/-- Who waits for a task is notified as it ends. -/
theorem History.wakes_finished (h : History (.empty r memory) moves m) (ha : m.act move = some m')
    (hact : move.actor? ≠ some b) (ht : m.threads.get? b = some t)
    (hs : t.sleepsOn b (.task g k) = true) (before : m.finished g k = false)
    (after : m'.finished g k = true) : m'.threads.get? b = some t.rouse := by
  have ho : m.Ordered := h.reachable.ordered
  have refute {P : Prop} (same : m.SameBooks m') : P := by
    rw [finished_of_handles (same g).handles, before] at after
    cases after
  cases hact' : move.actor? with
  | none => exact refute ((hact' ▸ shift_act ho ha).sameBooks ho)
  | some a =>
    obtain rfl := Action.step_of_actor hact'
    have hb : b ≠ a := by
      rintro rfl
      exact hact rfl
    have hstep : m.step a = some m' := ha
    obtain ⟨u, hu⟩ : ∃ u, m.threads.get? a = some u := by
      cases hu : m.threads.get? a with
      | none => simp [Machine.step, hu] at hstep
      | some u => exact ⟨u, rfl⟩
    rcases says_step h.reachable hu hstep with ⟨-, -, same⟩ | ⟨k', -, utters⟩
    · exact refute same
    obtain ⟨hown, recorded, how⟩ := utters.ends before after
    obtain ⟨record, hr⟩ := Option.ne_none_iff_exists'.mp recorded
    obtain ⟨x, hx⟩ : ∃ x, m.cogs.get? g = some x := by
      cases hx : m.cogs.get? g with
      | none => simp [Machine.books, hx] at hr
      | some x => exact ⟨x, rfl⟩
    rw [books_eq hx] at hr
    have id : (lastView record.view).id = k := (h.roll.2 hx).tidy.id_eq hr
    have waits : t.sleepsOn b (.task g (lastView record.view).id) = true := by rwa [id]
    have took := step_of hu hstep
    rw [hown] at took
    rcases how with ⟨outcome, hk⟩ | hk | ⟨aw, phase, hk, htask, hp⟩ <;> rw [hk] at took
    · cases took with | completes hi hy
      cases hi
      cases hx.symm.trans hy
      exact complete_rouses hr hb ht waits
    · cases took with
      | strands _ hi hy =>
        cases hi
        cases hx.symm.trans hy
        exact strand_rouses hr hb ht waits
      | @fades c i y _ _ hi hy =>
        cases hi
        cases hx.symm.trans hy
        have works : Works m g x { x with scheduler := x.scheduler.removeWaiter c }
            (m.onScheduler g fun _ => x.scheduler.removeWaiter c) :=
          .intro hx (by simp [onScheduler, cog_onCog, hx]) fun i e => by simp [onScheduler, cog_onCog, e]
        exact refute (sameBooks_of_works (works.of_cogs rfl) ⟨rfl, rfl, rfl⟩)
    · cases took with | awaits ha hi hy took
      cases hi
      cases hx.symm.trans hy
      subst ha
      have same : m.SameBooks m := sameBooks_of_cogs rfl
      -- A task that contends for the slot ends only by an abort.
      cases took with
      | aborts | abandons => exact abort_rouses hr hb ht waits htask
      | returns | resumes | fails => exact absurd (finished_takeSlot hx after rfl) (by simp [before])
      | taken | denied => exact refute same
      | unwinds =>
        have freed : m.SameBooks (m.turned.setLock g none) :=
          SameBooks.onCog (show m.SameBooks m.turned from same) fun x => .refl _
        exact refute freed
      | _ => rcases hp with hp | ⟨failure, hp⟩ <;> cases hp

/-! ## Waiting for a condition -/

/-- What a call may wait for. -/
inductive Condition where
  /-- No context is live. -/
  | idle
  | finished (g : CogId) (k : TaskId)
deriving DecidableEq

def Machine.meets (m : Machine S A V) : Condition → Bool
  | .idle => m.registry.live.isEmpty
  | .finished g k => m.finished g k

/-- A call that waits: what for and until when, and how the body goes on with the answer. -/
structure Watch (S A V : Type) where
  condition : Condition
  deadline : Option Instant
  seat : Option Seat
  next : Bool → Body S A V

/-- The call in which the thread waits, and how it sleeps. -/
def Control.watch? : Control S A V → Option (Watch S A V × Sleep)
  | .idle seat deadline sleep _ next => some (⟨.idle, deadline, seat, next⟩, sleep)
  | .linger seat g k deadline sleep next => some (⟨.finished g k, deadline, seat, next⟩, sleep)
  | _ => none

/-- What the body calls for, for how long, and how it goes on with the answer. -/
def Body.asks? : Body S A V → Option (Condition × Span × (Bool → Body S A V))
  | .request (.awaitIdle d) next => some (.idle, d, next)
  | .request (.awaitTermination d) next => some (.idle, d, next)
  | .request (.awaitTask g k d) next => some (.finished g k, d, next)
  | _ => none

namespace Machine

variable {w : Watch S A V} {sleep : Sleep} {now : Instant} {deadline : Option Instant}

/-- A thread begins to wait as its body says. -/
theorem step_asks {seat : Option Seat} {body : Body S A V} {u : Condition} {d : Span}
    {next : Bool → Body S A V} (ht : m.threads.get? a = some t) (hk : t.control = .run seat body)
    (hb : body.asks? = some (u, d, next)) :
    ∃ k, m.step a = some (m.setControl a k) ∧ k.watch? = some (⟨u, m.now.after? d, seat, next⟩, .awake) := by
  cases body with
  | request q next =>
    simp only [step, ht, hk]
    cases q with
    | awaitIdle | awaitTermination | awaitTask =>
      cases hb
      exact ⟨_, rfl, rfl⟩
    | _ => cases hb
  | _ => cases hb

/-- What a step of a thread that waits comes to. -/
theorem step_watch (ht : m.threads.get? a = some t) (hk : t.control.watch? = some (w, sleep)) :
    match boundedTurn m.now (m.meets w.condition) w.deadline sleep with
    | none => m.step a = none
    | some .sleeps => ∃ k, m.step a = some (m.setControl a k) ∧ k.watch? = some (w, .asleep false)
    | some (.ended answer) => ∃ m₁ : Machine S A V, m₁.threads = m.threads ∧
        m.step a = some (m₁.setControl a (.run w.seat (w.next answer))) := by
  cases hc : t.control with
  | idle seat deadline sleep' report next =>
    rw [hc] at hk
    cases hk
    simp only [step, ht, hc, meets]
    cases boundedTurn m.now m.registry.live.isEmpty deadline sleep with
    | none => rfl
    | some turn => cases turn with
      | sleeps => exact ⟨_, rfl, rfl⟩
      | ended answer => cases answer <;> cases report <;> refine ⟨_, ?_, rfl⟩ <;> rfl
  | linger seat g task deadline sleep' next =>
    rw [hc] at hk
    cases hk
    simp only [step, ht, hc, meets, finished, handle?]
    -- A task that is not listed has not finished.
    cases (m.cogs.get? g).bind fun x => x.scheduler.handles.get? task
    all_goals
      simp only [Option.any_none, Option.any_some]
      generalize boundedTurn m.now _ deadline sleep = turned
      cases turned with
      | none => rfl
      | some turn => cases turn with
        | sleeps => exact ⟨_, rfl, rfl⟩
        | ended answer => exact ⟨m, rfl, rfl⟩
  | _ =>
    rw [hc] at hk
    cases hk

/-- The thread waits, and sleeps only while its condition is not met. -/
def Watching (m : Machine S A V) (a : Agent) (w : Watch S A V) : Prop :=
  ∃ t sleep, m.threads.get? a = some t ∧ t.control.watch? = some (w, sleep) ∧
    (sleep = .asleep false → m.meets w.condition = false)

/-- A thread that is blocked in a call waits for what is not so yet, and its deadline is to come. -/
theorem Watching.blocked (h : m.Watching a w) (blocked : m.step a = none) :
    m.meets w.condition = false ∧ Instant.due m.now w.deadline = false := by
  obtain ⟨t, sleep, ht, hk, sleeps⟩ := h
  have turn := step_watch ht hk
  cases hb : boundedTurn m.now (m.meets w.condition) w.deadline sleep with
  | none =>
    obtain ⟨asleep, ahead⟩ := boundedTurn_none hb
    exact ⟨sleeps asleep, ahead⟩
  | some turned =>
    rw [hb] at turn
    cases turned with
    | sleeps =>
      obtain ⟨k, hs, -⟩ := turn
      cases blocked.symm.trans hs
    | ended answer =>
      obtain ⟨m₁, -, hs⟩ := turn
      cases blocked.symm.trans hs

end Machine

/-- In this move the thread `a` comes out of its wait with an answer. -/
structure Move.Decides (v : Move S A V) (a : Agent) (w : Watch S A V) (answer : Bool) : Prop where
  steps : v.act = .step a
  /-- The body goes on with it. -/
  told : ∃ t, v.after.threads.get? a = some t ∧ t.control = .run w.seat (w.next answer)
  /-- The answer is whether the condition is met just then. -/
  truth : answer = v.before.meets w.condition
  /-- Nobody gives up before the deadline. -/
  late : answer = false → Instant.due v.before.now w.deadline = true

section
variable {w : Watch S A V}

theorem Control.watch?_rouse (k : Control S A V) :
    k.rouse.watch? = k.watch?.map fun (w, sleep) => (w, sleep.notify) := by
  cases k with
  | awaiting aw phase => cases phase <;> rfl
  | _ => rfl

/-- Who waits sleeps on what its condition is announced on, and is told when the condition is met. -/
theorem History.wakes (h : History (.empty r memory) moves m) (ha : m.act move = some m')
    (hact : move.actor? ≠ some a) (ht : m.threads.get? a = some t)
    (hk : t.control.watch? = some (w, .asleep false)) (before : m.meets w.condition = false)
    (after : m'.meets w.condition = true) : m'.threads.get? a = some t.rouse := by
  cases hc : t.control with
  | idle =>
    rw [hc] at hk
    cases hk
    obtain ⟨b, hb, warns⟩ := (registers_act h.reachable.ordered ha).wakes
      (by simpa [meets] using before) (by simpa [meets] using after)
    refine warns (by simpa [meets] using after) a t ?_ ht (by rw [hc]; rfl)
    rintro rfl
    exact hact hb
  | linger =>
    rw [hc] at hk
    cases hk
    exact h.wakes_finished ha hact ht (by simp [Thread.sleepsOn, hc]) before after
  | _ =>
    rw [hc] at hk
    cases hk

/-- A wait goes on or comes to an answer, whatever happens. -/
theorem History.watching_act (h : History (.empty r memory) moves m) (ha : m.act move = some m')
    (hw : m.Watching a w) :
    m'.Watching a w ∨ ∃ answer, (⟨m, move, m'⟩ : Move S A V).Decides a w answer := by
  have ho : m.Ordered := h.reachable.ordered
  obtain ⟨t, sleep, ht, hk, sleeps⟩ := hw
  by_cases hact : move.actor? = some a
  · obtain rfl := Action.step_of_actor hact
    have hstep : m.step a = some m' := ha
    have turn := step_watch ht hk
    cases hb : boundedTurn m.now (m.meets w.condition) w.deadline sleep with
    | none =>
      rw [hb] at turn
      cases hstep.symm.trans turn
    | some turned =>
      rw [hb] at turn
      cases turned with
      | sleeps =>
        obtain ⟨k, hs, hk'⟩ := turn
        cases hstep.symm.trans hs
        refine .inl ⟨_, _, thread_set k ht (.same rfl), hk', fun _ => ?_⟩
        cases hc : w.condition <;> exact hc ▸ boundedTurn_sleeps hb
      | ended answer =>
        obtain ⟨m₁, same, hs⟩ := turn
        cases hstep.symm.trans hs
        obtain ⟨truth, late⟩ := boundedTurn_ended hb
        exact .inr ⟨answer, rfl, ⟨_, thread_set _ ht (.same same), rfl⟩, truth, late⟩
  · left
    have roused (ht' : m'.threads.get? a = some t.rouse) : m'.Watching a w := by
      refine ⟨_, sleep.notify, ht', by simp [Control.watch?_rouse, hk], fun asleep => ?_⟩
      cases sleep <;> cases asleep
    rcases ho.stays ha ht hact with ht' | ht'
    · by_cases asleep : sleep = .asleep false
      · subst asleep
        cases met : m'.meets w.condition with
        | false => exact ⟨t, _, ht', hk, fun _ => met⟩
        | true => exact roused (h.wakes ha hact ht hk (sleeps rfl) met)
      · exact ⟨t, sleep, ht', hk, fun e => absurd e asleep⟩
    · exact roused ht'

/-- A wait goes on to the end of a run, or there is a move in which it comes to its answer. -/
theorem History.watching (h : History (.empty r memory) moves n) (hs : History n since m)
    (hw : n.Watching a w) : (m.Watching a w ∧ ∀ v ∈ since, v.before.Watching a w) ∨
      ∃ kept v later answer, since = kept ++ v :: later ∧ v.Decides a w answer ∧
        ∀ u ∈ kept, u.before.Watching a w := by
  induction hs with
  | refl => exact .inl ⟨hw, by simp⟩
  | @act since m m' move hs ha ih =>
    rcases ih with ⟨hw, kept⟩ | ⟨kept, v, later, answer, rfl, decides, waits⟩
    · rcases (h.trans hs).watching_act ha hw with hw' | ⟨answer, decides⟩
      · refine .inl ⟨hw', fun v hv => ?_⟩
        rcases List.mem_append.mp hv with hv | hv
        · exact kept v hv
        · cases List.mem_singleton.mp hv
          exact hw
      · exact .inr ⟨since, _, [], answer, rfl, decides, kept⟩
    · exact .inr ⟨kept, v, later ++ [⟨m, move, m'⟩], answer, by simp, decides, waits⟩

/-- A condition that is met stays so; but there may be new contexts. -/
theorem History.meets_lasts {u : Condition} (h : History (.empty r memory) moves n) (hs : History n since m)
    (met : n.meets u = true) (enters : u = .idle → ∀ v ∈ since, v.enters? = none) : m.meets u = true := by
  cases u with
  | finished g k =>
    obtain ⟨d, hd, ended⟩ := (Option.any_eq_true ..).mp (show (n.handle? g k).any (·.finished) = true from met)
    have final := h.handle_final hs hd (by simpa [TaskHandle.finished] using ended)
    exact (Option.any_eq_true ..).mpr ⟨d, final, ended⟩
  | idle =>
    replace enters := enters rfl
    induction hs with
    | refl => exact met
    | @act since m m' move hs ha ih =>
      have empty : m.registry.live = [] := by
        simpa [meets] using ih fun v hv => enters v (List.mem_append_left _ hv)
      have silent := enters ⟨m, move, m'⟩ (by simp)
      have registers := registers_act (h.trans hs).reachable.ordered ha
      have gone : m'.registry.live = [] := by
        generalize hact : move.actor? = actor at registers
        cases registers with
        | keeps same => rw [same, empty]
        | numbers _ _ _ same | closes _ _ _ same | released same | starts _ _ _ _ _ same =>
          rw [same]
          exact empty
        | fails c _ _ _ same | leaves c _ _ same =>
          rw [same]
          simp [Registry.strike, empty]
        | @enters a t e c ht hk _ ht' =>
          have turn : (⟨m, move, m'⟩ : Move S A V).turn =
              some (a, t.cog, e.stance (.register c), e.stance (.launch c)) := by
            simp [Move.turn, hact, look_eq m a ht, look_eq m' a ht', hk, Control.stance]
          rw [Move.enters?_eq turn, Errand.enters] at silent
          cases silent
      simp [meets, gone]

end

/-- How the thread `a` fares, which has called in the move `v` to wait until `u` is so, for the span `d`
at most, in the moves `since` that have led to `m`. -/
structure Truthful (v : Move S A V) (since : List (Move S A V)) (m : Machine S A V) (a : Agent)
    (u : Condition) (d : Span) (seat : Option Seat) (next : Bool → Body S A V) : Prop where
  /-- It waits, or has been told just whether `u` is so: `false` when the span has passed and ends in an
  instant that is there, and `true` if `u` has come about in the meantime, early or late. What has come
  about is so for good, but no context may be entered while nothing else is waited for. -/
  ends : m.Watching a ⟨u, v.before.now.after? d, seat, next⟩ ∨
    ∃ kept x later answer, since = kept ++ x :: later ∧
      x.Decides a ⟨u, v.before.now.after? d, seat, next⟩ answer ∧
      (answer = false →
        Instant.exists? (v.before.now + d) = true ∧ v.before.now + d ≤ x.before.now) ∧
      ∀ first y rest, v :: kept = first ++ y :: rest → y.after.meets u = true →
        (u = .idle → ∀ z ∈ rest, z.enters? = none) → answer = true
  /-- It is blocked only while `u` is not so and the span has not passed or ends in no instant. -/
  blocked : m.Watching a ⟨u, v.before.now.after? d, seat, next⟩ → m.step a = none →
    m.meets u = false ∧ (Instant.exists? (v.before.now + d) = true → m.now < v.before.now + d)

/-- Whoever calls to wait for a bounded time is told the truth, in every run. -/
structure BoundedWaits (moves : List (Move S A V)) (m : Machine S A V) : Prop where
  calls {earlier since : List (Move S A V)} {v : Move S A V} {a : Agent} {t : Thread S A V}
    {seat : Option Seat} {body : Body S A V} {u : Condition} {d : Span} {next : Bool → Body S A V} :
    moves = earlier ++ v :: since → v.act = .step a → v.before.threads.get? a = some t →
      t.control = .run seat body → body.asks? = some (u, d, next) → Truthful v since m a u d seat next

theorem bounded_waits_truthful (h : History (.empty r memory) moves m) : BoundedWaits moves m where
  calls := by
    rintro earlier since ⟨before, _, after⟩ a t seat body u d next rfl rfl ht hk hb
    obtain ⟨run, ha, rest⟩ := h.at_move
    have asked : after.Watching a ⟨u, before.now.after? d, seat, next⟩ := by
      obtain ⟨k, hs, hk'⟩ := step_asks ht hk hb
      obtain rfl : before.setControl a k = after := Option.some.inj (hs.symm.trans ha)
      exact ⟨_, _, thread_set k ht (.same rfl), hk', fun e => by cases e⟩
    constructor
    case ends =>
      refine (run.act ha).watching rest asked |>.imp And.left ?_
      rintro ⟨kept, x, later, answer, rfl, decides, -⟩
      refine ⟨kept, x, later, answer, rfl, decides, fun e => Instant.due_after?.mp (decides.late e), ?_⟩
      intro first y last e met entered
      rw [decides.truth]
      have whole : History (.empty r memory) (earlier ++ first ++ y :: last) x.before := by
        rw [List.append_assoc, ← e]
        exact run.join ha rest.at_move.1
      obtain ⟨early, hy, rest⟩ := whole.at_move
      exact (early.act hy).meets_lasts rest met entered
    case blocked =>
      intro waits stuck
      obtain ⟨unmet, ahead⟩ := waits.blocked stuck
      refine ⟨unmet, fun there => ?_⟩
      by_contra passed
      rw [Instant.due_after?.mpr ⟨there, Int.not_lt.mp passed⟩] at ahead
      cases ahead

/-- Notes what it has been told, and by which call. -/
def noting (call : Nat) (answer : Bool) : Body Unit (List (Nat × Bool)) Unit :=
  .memory (· ++ [(call, answer)]) fun _ => .exit (.ok ())

/-- A task ends at the time until which its first waiter sleeps. Its second one has no deadline, and the
one who waits until no context is live has given up before. -/
def waitActions : List (Action Unit (List (Nat × Bool)) Unit) :=
  [.found "cog" (),
    .arrive (.submit ⟨1⟩ "task" (.block (fun notes => !notes.isEmpty) (.exit (.ok ()))) fun _ =>
      .request (.awaitTask ⟨1⟩ ⟨1⟩ 5) (noting 1)),
    .arrive (.request (.awaitIdle 3) (noting 2)),
    .arrive (.request (.awaitTask ⟨1⟩ ⟨1⟩ Span.longest) (noting 3))] ++
    (List.replicate 9 1 ++ [2, 2, 3, 3]).map (fun n => .step (.caller n)) ++
    [.step (.context ⟨1⟩), .spurious (.caller 2), .step (.caller 2), .pass 3, .step (.caller 2),
      .step (.caller 2), .pass 2] ++
    List.replicate 4 (.step (.context ⟨1⟩)) ++ [1, 1, 3, 3].map fun n => .step (.caller n)

def waitedOut : Machine Unit (List (Nat × Bool)) Unit :=
  waitActions.foldl perform (.empty { namePrefix := "cog", admits := fun _ => true } [])

def waitMoves : List (Move Unit (List (Nat × Bool)) Unit) :=
  (Machine.empty { namePrefix := "cog", admits := fun _ => true } []).moves waitActions

theorem bounded_waits_truthful_together : BoundedWaits waitMoves waitedOut ∧
    waitedOut.memory = [(2, false), (1, true), (3, true)] ∧ waitedOut.now = 5 ∧
    waitedOut.registry.live = [⟨1⟩] ∧
    (waitMoves.filter fun v => v.after.finished ⟨1⟩ ⟨1⟩ && !v.before.finished ⟨1⟩ ⟨1⟩).map (·.before.now) =
      [5] :=
  ⟨bounded_waits_truthful (history_moves _ waitActions), by decide +kernel, by decide +kernel,
    by decide +kernel, by decide +kernel⟩

end ObjectGroups
