/-
Calls deliver what their bodies come to.

A call makes a future and submits a task that settles it. A run in which nobody
else resolves the future is cut at the submission. What comes before leaves the
future alone, since the number of the task has not been given out; from then on
the call goes through its stages. The handle shows an end other than an abort
only after the future has been settled, since the thread settles the future
before it ends the task. A call that is rejected leaves its task nowhere, and so
nobody comes to claim it.
-/
import ObjectGroups.Proofs.Calls
import ObjectGroups.Proofs.Closing
import ObjectGroups.Proofs.Outcomes

namespace ObjectGroups

variable {S A V : Type} {m m' n start : Machine S A V} {a : Agent} {g i : CogId} {c : ContextId} {f : FutureId}
  {j k : TaskId} {t : Thread S A V} {seat : Option Seat} {b : Body S A V} {P : Body S A V → Prop}
  {r : Exit TaskError V} {x : ObjectGroups.Settled V} {move : Action S A V} {own : Option CogId} {s s' : Stance}
  {moves later : List (Move S A V)} {reg : Registry} {memory : A} {o : TaskOutcome} {y y' : Scheduler S A V}

open Machine Body

/-! ## What the handle shows -/

/-- A task that has ended other than by an abort has been told to end so by its host. -/
theorem Course.ended (h : Course a g own y y' s s') (ho : o ≠ .aborted) (e : y'.Ended k o) :
    y.Ended k o ∨ s = .complete k o ∨ (s = .strand k ∧ o = .failed) := by
  have same (hh : y'.handles = y.handles) : y.Ended k o := by
    unfold Scheduler.Ended at e ⊢
    rwa [hh] at e
  have ends {i : TaskId} {o' : TaskOutcome} (h : y.Ends y' i o') : y.Ended k o ∨ (k = i ∧ o' = o) := by
    obtain ⟨d, hd, shown⟩ := e
    rw [h.handles, Table.get?_modify] at hd
    split at hd
    · next hk =>
      obtain ⟨d₀, -, rfl⟩ := Option.map_eq_some_iff.mp hd
      exact .inr ⟨hk, by simpa using shown⟩
    · exact .inl ⟨d, hd, shown⟩
  cases h with
  | rest _ tasks => exact .inl (same tasks.handles)
  | unwind _ _ tasks => exact .inl (same tasks.handles)
  | retire _ _ tasks => exact .inl (same tasks.handles)
  | fade _ _ _ tasks => exact .inl (same tasks.handles)
  | prepare _ _ _ hh => exact .inl (same hh)
  | enter _ _ enters =>
    obtain ⟨d, hd, shown⟩ := e
    rw [enters.handles, Table.get?_put] at hd
    split at hd
    · cases hd
      simp at shown
    · exact .inl ⟨d, hd, shown⟩
  | withdraw _ _ withdraws =>
    obtain ⟨d, hd, shown⟩ := e
    rw [withdraws.handles, Table.get?_remove] at hd
    split at hd
    · cases hd
    · exact .inl ⟨d, hd, shown⟩
  | start now _ _ _ hm => exact .inl ((Scheduler.ended_modify hm.handles).mp e)
  | suspend label _ _ _ _ hm => exact .inl ((Scheduler.ended_modify hm.handles).mp e)
  | resume now _ _ _ hm => exact .inl ((Scheduler.ended_modify hm.handles).mp e)
  | complete _ _ he =>
    rcases ends he with before | ⟨rfl, rfl⟩
    · exact .inl before
    · exact .inr (.inl rfl)
  | abort _ _ _ _ he =>
    rcases ends he with before | ⟨-, rfl⟩
    · exact .inl before
    · exact absurd rfl ho
  | strand _ _ _ he =>
    rcases ends he with before | ⟨rfl, rfl⟩
    · exact .inl before
    · exact .inr (.inr ⟨rfl, rfl⟩)

theorem History.ended_step (h : History (.empty reg memory) moves m) (ha : m.act move = some m')
    (ho : o ≠ .aborted) (e : (m'.books g).Ended k o) : (m.books g).Ended k o ∨
      ∃ a own s, m.look a = some (own, s) ∧ (s = .complete k o ∨ (s = .strand k ∧ o = .failed)) := by
  have ordered : m.Ordered := h.reachable.ordered
  have shift := shift_act ordered ha
  generalize move.actor? = actor at shift
  cases shift.vantage ordered g with
  | aside _ hx =>
    rw [books_aside hx] at e
    exact .inl e
  | @deed a own loud s s' x x' ht hw hd =>
    rw [books_eq hw.here] at e
    rw [books_eq hw.before]
    have course := (h.reachable.filed hw.before).course ordered ht h.reachable.blank ha hw hd
    exact (course.ended ho e).imp_right fun ends => ⟨a, own, s, ht.before, ends⟩
  | @grant a own s s' d x x' hb hw hg =>
    rw [books_eq hw.here] at e
    rw [books_eq hw.before]
    cases hg <;> exact .inl e

/-! ## The beginning of a call, and calls that come to nothing -/

namespace Machine

theorem dormant_of_nowhere (h : ∀ p, ¬ m.Berthed j p) (unresolved : (m.future f).value = none) :
    m.Dormant f j P where
  bears := bears_of_nowhere (fun a => h (.letter a)) fun g => h (.queue g)
  vacant ht hk := h _ (berthed_of_task ht hk)
  unresolved := unresolved

/-- Where a task is after its number has been given out, and the thread `a` goes on with `k`. -/
theorem Ordered.berthed_numbered (ho : m.Ordered) (ht : m.threads.get? a = some t) {k : Control S A V}
    (hk : k.task? = t.control.task?) {p : Berth}
    (hp : ({ m with nextTask := m.nextTask.next }.setControl a k).Berthed m.nextTask p) :
    p = .letter a ∧ k.stance.letter? = some m.nextTask := by
  have fresh (p : Berth) : ¬ m.Berthed m.nextTask p := fun hp => Nat.lt_irrefl _ (ho.newTask hp)
  have look (d : Agent) : ({ m with nextTask := m.nextTask.next }.setControl a k).look d =
      if d = a then some (t.cog, k.stance) else m.look d := by
    rw [look_setControl]
    split
    · exact congrArg _ (look_eq m a ht)
    · rfl
  cases p with
  | seat d =>
    obtain ⟨own, s, active, hl, hs⟩ := hp
    rw [look] at hl
    split at hl
    · cases hl
      exact absurd (berthed_of_task ht (hk.symm.trans (by rw [Control.task?, hs]; rfl))) (fresh _)
    · exact absurd ⟨own, s, active, hl, hs⟩ (fresh (.seat d))
  | letter d =>
    obtain ⟨own, s, hl, hs⟩ := hp
    rw [look] at hl
    split at hl
    · next hd =>
      cases hl
      exact ⟨congrArg _ hd, hs⟩
    · exact absurd ⟨own, s, hl, hs⟩ (fresh (.letter d))
  | queue i => exact absurd hp (fresh (.queue i))

/-- A task that is turned away at a closed registry has used up a number and is nowhere. -/
theorem Ordered.nowhere_of_closed (ho : m.Ordered) (ht : m.threads.get? a = some t) {name : String}
    {next : Exit RuntimeError TaskId → Body S A V} (hk : t.control = .run seat (.submit g name b next))
    (shut : m.registry.shutdown = true) (ha : m.act (.step a) = some m') (p : Berth) :
    ¬ m'.Berthed m.nextTask p := by
  cases ha.symm.trans (refused_of_closed shut ht hk)
  intro hp
  have same : (Control.run seat (next (.error .shutDown))).task? = t.control.task? := by rw [hk]; rfl
  cases (ho.berthed_numbered ht same hp).2

/-- A thread that submits a task takes it along, unless the registry is closed. -/
theorem Ordered.dormant_submit (ho : m.Ordered) (ht : m.threads.get? a = some t) {name : String}
    {next : Exit RuntimeError TaskId → Body S A V} (hk : t.control = .run seat (.submit g name b next))
    (ha : m.act (.step a) = some m') (unresolved : (m'.future f).value = none) :
    m'.Dormant f m.nextTask (· = b) ∧ m.nextTask.val < m'.nextTask.val := by
  cases shut : m.registry.shutdown with
  | true =>
    refine ⟨dormant_of_nowhere (ho.nowhere_of_closed ht hk shut ha) unresolved, ?_⟩
    cases ha.symm.trans (refused_of_closed shut ht hk)
    exact Nat.lt_succ_self _
  | false =>
    cases ha.symm.trans (enrols_of_open shut ht hk)
    have same : (Control.enrol seat g { id := m.nextTask, name, cog := g, submittedAt := m.now } b next).task? =
        t.control.task? := by rw [hk]; rfl
    have place {p : Berth} (hp) := (ho.berthed_numbered (p := p) ht same hp).1
    refine ⟨⟨⟨fun {d u _ _ _ _ _} hu behind hid => ?_, fun hx he => ?_⟩, fun hu hosts => ?_, unresolved⟩,
      Nat.lt_succ_self _⟩
    · have posts : u.control.stance.letter? = some m.nextTask := by
        rw [← Control.stance_behind, behind, ← hid]
        rfl
      cases place (p := .letter d) ⟨_, _, look_eq _ d hu, posts⟩
      rw [control_set hu] at behind
      cases behind
      rfl
    · cases place (p := .queue _) ⟨_, hx, List.mem_map.mpr ⟨_, he, rfl⟩⟩
    · cases place (berthed_of_task hu hosts)

/-- A task for which a context is being started is at the end of the queue. -/
theorem offered_last (h : History (.empty reg memory) moves m) {stage : Stage} {view : TaskView}
    {next : Exit RuntimeError TaskId → Body S A V} (ht : m.threads.get? a = some t)
    (hk : t.control = .starting stage (.submission seat g view next)) :
    ∃ x q, m.cogs.get? g = some x ∧ x.scheduler.queued = q ++ [view.id] := by
  have hl : m.look a = some (t.cog, .submit stage seat g view) := look_starting m a ht hk
  obtain ⟨x, hx, -⟩ := h.reachable.ordered.locks hl rfl
  obtain ⟨q, hq⟩ := (h.reachable.filed hx).last view.id ⟨a, t.cog, _, hl, if_pos rfl⟩
  exact ⟨x, q, hx, hq⟩

/-- A task that is denied its context is taken back. -/
theorem nowhere_of_denied (h : History (.empty reg memory) moves m) {stage : Stage} {view : TaskView}
    {next : Exit RuntimeError TaskId → Body S A V} {e : RuntimeError} (ht : m.threads.get? a = some t)
    (hk : t.control = .starting stage (.submission seat g view next)) (denied : m.denial? stage = some e)
    (ha : m.act (.step a) = some m') (p : Berth) : ¬ m'.Berthed view.id p := by
  have ho : m.Ordered := h.reachable.ordered
  have failed := (step_start ha ht hk).trans (stepStart_denied denied _)
  have hl : m.look a = some (t.cog, .submit stage seat g view) := look_starting m a ht hk
  obtain ⟨x, q, hx, hq⟩ := offered_last h ht hk
  have mine : m.Berthed view.id (.queue g) := ⟨x, hx, by simp [hq]⟩
  have cogs (i : CogId) : m'.cogs.get? i = if i = g then
      some { x with scheduler := x.scheduler.withdraw view.id, lock := none } else m.cogs.get? i := by
    have same : (m.vacate stage).cogs = m.cogs := by cases stage <;> simp [vacate]
    rw [failed]
    by_cases hi : i = g <;> simp [startFailed, Machine.onScheduler, Machine.setLock, report, cog_onCog, same, hx, hi]
  have look (d : Agent) : m'.look d = if d = a then some (t.cog, .body seat) else m.look d := by
    have same (d : Agent) : (m.vacate stage).look d = m.look d := by cases stage <;> simp [vacate]
    rw [failed]
    simp only [startFailed, look_setControl]
    split
    · exact congrArg _ ((same a).trans hl)
    · exact same d
  intro hp
  cases p with
  | seat d =>
    obtain ⟨own, s, active, hd, hs⟩ := hp
    rw [look] at hd
    split at hd
    · cases hd
      cases ho.berth mine (q := .seat a) ⟨_, _, active, hl, hs⟩
    · cases ho.berth mine (q := .seat d) ⟨own, s, active, hd, hs⟩
  | letter d =>
    obtain ⟨own, s, hd, hs⟩ := hp
    rw [look] at hd
    split at hd
    · cases hd
      cases hs
    · cases ho.berth mine (q := .letter d) ⟨own, s, hd, hs⟩
  | queue i =>
    obtain ⟨y, hy, there⟩ := hp
    rw [cogs] at hy
    split at hy
    · cases hy
      have distinct := ho.queued hx
      have rest : view.id ∈ x.scheduler.queued.dropLast := by
        simpa [Scheduler.queued, Scheduler.withdraw, List.map_dropLast] using there
      rw [hq, List.dropLast_concat] at rest
      rw [hq] at distinct
      exact (List.nodup_append.mp distinct).2.2 _ rest _ List.mem_cons_self rfl
    · next hi =>
      cases ho.berth mine (q := .queue i) ⟨y, hy, there⟩
      exact hi rfl

end Machine

/-- The submission of the task `k` is answered with an error in this move. -/
inductive Move.Rejects (v : Move S A V) (k : TaskId) : Prop where
  | closed {a : Agent} {t : Thread S A V} {seat : Option Seat} {g : CogId} {name : String} {task : Body S A V}
      {next : Exit RuntimeError TaskId → Body S A V} : v.act = .step a → v.before.threads.get? a = some t →
      t.control = .run seat (.submit g name task next) → v.before.nextTask = k →
      v.before.registry.shutdown = true → Rejects v k
  | denied {a : Agent} {t : Thread S A V} {stage : Stage} {seat : Option Seat} {g : CogId} {view : TaskView}
      {next : Exit RuntimeError TaskId → Body S A V} {e : RuntimeError} : v.act = .step a →
      v.before.threads.get? a = some t → t.control = .starting stage (.submission seat g view next) →
      view.id = k → v.before.denial? stage = some e → Rejects v k

namespace Move.Rejects

variable {v : Move S A V} (hr : v.Rejects k) (h : History (.empty reg memory) moves v.before)
include hr h

/-- A call that is rejected leaves nothing of its task. -/
theorem nowhere (ha : v.before.act v.act = some v.after) (p : Berth) : ¬ v.after.Berthed k p := by
  cases hr with
  | closed hact ht hk hid shut =>
    rw [hact] at ha
    exact hid ▸ h.reachable.ordered.nowhere_of_closed ht hk shut ha p
  | denied hact ht hk hid denied =>
    rw [hact] at ha
    exact hid ▸ nowhere_of_denied h ht hk denied ha p

/-- A call that is rejected later than at once has its task in the queue. -/
theorem queued (hk : k.val < v.before.nextTask.val) : ∃ g, v.before.Berthed k (.queue g) := by
  cases hr with
  | closed _ _ _ hid =>
    rw [hid] at hk
    exact absurd hk (Nat.lt_irrefl _)
  | denied _ ht hk hid =>
    obtain ⟨x, q, hx, hq⟩ := offered_last h ht hk
    exact ⟨_, x, hx, by simp [hq, hid]⟩

end Move.Rejects

/-! ## Before the task has its number -/

theorem Move.Private.unattempted {v : Move S A V} (own : v.Private f j) (ho : v.before.Ordered)
    (hj : v.before.nextTask.val ≤ j.val) : v.event.attempt? f = none := by
  refine Option.eq_none_iff_forall_ne_some.mpr fun (a, x) hat => ?_
  obtain ⟨t, active, r, ht, hk⟩ := own a x hat
  exact Nat.not_lt.mpr hj (ho.newTask (berthed_of_task ht (by rw [hk]; rfl)))

/-- Nobody resolves the future before. -/
theorem History.unattempted (h : History (.empty reg memory) moves m) (alone : ∀ v ∈ moves, v.Private f j)
    (hj : m.nextTask.val ≤ j.val) :
    moves.filterMap (·.event.attempt? f) = [] ∧ (m.future f).value = none := by
  induction h with
  | refl => exact ⟨rfl, rfl⟩
  | @act moves m m' move h ha ih =>
    have hj : m.nextTask.val ≤ j.val := Nat.le_trans (shift_act h.reachable.ordered ha).issues.task hj
    obtain ⟨before, unresolved⟩ := ih (fun v hv => alone v (List.mem_append_left _ hv)) hj
    have last := (alone _ (List.mem_append_right _ List.mem_cons_self)).unattempted h.reachable.ordered hj
    constructor
    · rw [List.filterMap_append, before, List.filterMap_cons, last]
      rfl
    · rw [value_step ha, unresolved, last]
      rfl

/-- No handle shows that the task has ended. -/
theorem History.not_ended (h : History (.empty reg memory) moves m) (hj : m.nextTask.val ≤ j.val)
    (ha : m.act move = some m') (ho : o ≠ .aborted) : ¬ (m'.books i).Ended j o := by
  have fresh {moves : List (Move S A V)} {m m' : Machine S A V} {move : Action S A V}
      (h : History (.empty reg memory) moves m) (ha : m.act move = some m') (hj : m.nextTask.val ≤ j.val)
      (e : (m'.books i).Ended j o) : (m.books i).Ended j o := by
    rcases h.ended_step ha ho e with before | ⟨a, own, s, hl, hs⟩
    · exact before
    · have seat : ∃ active, s.seat? = some ⟨j, active⟩ := by
        rcases hs with rfl | ⟨rfl, -⟩ <;> exact ⟨_, rfl⟩
      obtain ⟨active, seat⟩ := seat
      exact absurd (h.reachable.ordered.newTask (p := .seat a) ⟨own, s, active, hl, seat⟩) (Nat.not_lt.mpr hj)
  intro e
  induction h generalizing m' move with
  | refl =>
    obtain ⟨d, hd, -⟩ := fresh .refl ha hj e
    cases hd
  | act h ha' ih =>
    exact ih (Nat.le_trans (shift_act h.reachable.ordered ha').issues.task hj) ha' (fresh (h.act ha') ha hj e)

/-! ## From a call on -/

/-- The handles of the task agree with the future: an end other than an abort comes after the value. -/
def Machine.Shows (m : Machine S A V) (f : FutureId) (j : TaskId) : Prop :=
  ∀ i o, o ≠ .aborted → (m.books i).Ended j o →
    ∃ x, (m.future f).value = some x ∧ (o = .completed → x.isOk = true)

theorem History.shows_step (h : History (.empty reg memory) moves m) (ha : m.act move = some m')
    (calls : m.Calls f j b) (shows : m.Shows f j) : m'.Shows f j := by
  intro i o ho e
  have before : ∃ x, (m.future f).value = some x ∧ (o = .completed → x.isOk = true) := by
    rcases h.ended_step ha ho e with e | ⟨a, own, s, hl, hs⟩
    · exact shows i o ho e
    · exact calls.of_ending h.reachable.ordered hl hs
  obtain ⟨x, hx, ok⟩ := before
  exact ⟨x, value_kept ha hx, ok⟩

/-- A run from `n`, where a call of `b` with the future `f` and the task `j` has been submitted. -/
structure Sequel (reg : Registry) (memory : A) (moves : List (Move S A V)) (n : Machine S A V)
    (later : List (Move S A V)) (m : Machine S A V) (f : FutureId) (j : TaskId) (b : Body S A V) : Prop where
  before : History (.empty reg memory) moves n
  since : History n later m
  numbered : j.val < n.nextTask.val
  alone : ∀ v ∈ later, v.Private f j
  calls : n.Calls f j b
  shows : n.Shows f j

theorem History.nil_eq (h : History n [] m) : n = m := by
  generalize e : ([] : List (Move S A V)) = moves at h
  cases h with
  | refl => rfl
  | act => simp at e

namespace Sequel

theorem act {v : Move S A V} (h : Sequel reg memory moves n (v :: later) m f j b) :
    n = v.before ∧ v.before.act v.act = some v.after ∧
      Sequel reg memory (moves ++ [v]) v.after later m f j b := by
  have since : History n ([] ++ v :: later) m := h.since
  obtain ⟨start, ha, rest⟩ := since.at_move
  obtain rfl := start.nil_eq
  have own := h.alone v List.mem_cons_self
  exact ⟨rfl, ha,
    { before := h.before.act ha
      since := rest
      numbered := Nat.lt_of_lt_of_le h.numbered (shift_act h.before.reachable.ordered ha).issues.task
      alone := fun w hw => h.alone w (List.mem_cons_of_mem _ hw)
      calls := h.calls.act h.before.reachable.ordered h.numbered ha own
      shows := h.before.shows_step ha h.calls h.shows }⟩

variable (h : Sequel reg memory moves n later m f j b)
include h

/-- From any move on the run is one of this kind. -/
theorem moment {v : Move S A V} (hv : v ∈ later) :
    ∃ moves rest, Sequel reg memory moves v.before (v :: rest) m f j b := by
  induction later generalizing moves n with
  | nil => cases hv
  | cons w later ih =>
    obtain ⟨rfl, -, next⟩ := h.act
    rcases List.mem_cons.mp hv with rfl | hv
    · exact ⟨moves, later, h⟩
    · exact ih next hv

/-- What every move keeps, the run keeps. -/
theorem keeps (Q : Machine S A V → Prop) (first : Q n) (step : ∀ v ∈ later, ∀ moves rest,
    Sequel reg memory moves v.before (v :: rest) m f j b → Q v.before → Q v.after) : Q m := by
  induction later generalizing moves n with
  | nil => exact h.since.nil_eq ▸ first
  | cons v later ih =>
    have now := step v List.mem_cons_self moves later
    obtain ⟨rfl, -, next⟩ := h.act
    exact ih next (now h first) fun w hw => step w (List.mem_cons_of_mem _ hw)

/-- The run at its end. -/
theorem stops : Sequel reg memory (moves ++ later) m [] m f j b := by
  induction later generalizing moves n with
  | nil =>
    obtain rfl := h.since.nil_eq
    simpa using h
  | cons v later ih =>
    obtain ⟨-, -, next⟩ := h.act
    simpa using ih next

theorem begun (first : n.Begun f j b) : m.Begun f j b :=
  h.keeps (·.Begun f j b) first fun v _ _ _ now begun =>
    begun.act now.before.reachable.ordered now.numbered now.act.2.1 (now.alone v List.mem_cons_self)

theorem kept (first : (n.future f).value = some x) : (m.future f).value = some x :=
  h.keeps (fun n => (n.future f).value = some x) first fun _ _ _ _ now => value_kept now.act.2.1

theorem dormant (first : n.Dormant f j P) (unclaimed : ∀ v ∈ later, ∀ g c, v.claimed? g ≠ some (c, j)) :
    m.Dormant f j P :=
  h.keeps (·.Dormant f j P) first fun v hv _ _ now dormant =>
    dormant.act now.before.reachable.ordered now.act.2.1 now.numbered (now.alone v List.mem_cons_self)
      (unclaimed v hv)

/-- A task that is nowhere stays so, and its future is never resolved. -/
theorem dormant_nowhere (first : n.Dormant f j fun _ => False) : m.Dormant f j fun _ => False :=
  h.keeps (·.Dormant f j fun _ => False) first fun v _ _ _ now dormant =>
    have ho := now.before.reachable.ordered
    have ha := now.act.2.1
    dormant.act ho ha now.numbered (now.alone v List.mem_cons_self) fun _ _ => dormant.bears.not_claimed ho ha

/-- Whoever resolves the future is the first and gives it its value. -/
theorem attempts : (n.future f).value.toList ++ (later.filterMap (·.event.attempt? f)).map (·.2) =
    (m.future f).value.toList := by
  induction later generalizing moves n with
  | nil =>
    obtain rfl := h.since.nil_eq
    simp
  | cons v later ih =>
    have own := h.alone v List.mem_cons_self
    obtain ⟨rfl, ha, next⟩ := h.act
    have value := value_step (f := f) ha
    rw [← ih next, List.filterMap_cons]
    cases hat : v.event.attempt? f with
    | none =>
      have same : (v.after.future f).value = (v.before.future f).value := by
        rw [value]
        exact (congrArg (fun y => (v.before.future f).value.or (y.map (·.2))) hat).trans Option.or_none
      rw [same]
    | some y =>
      obtain ⟨t, active, r, ht, hk⟩ := own y.1 y.2 hat
      have unresolved := (h.calls.of_settling ht hk).unresolved
      have new : (v.after.future f).value = some y.2 := by
        rw [value, unresolved]
        exact congrArg (Option.map _) hat
      rw [new, unresolved]
      rfl

theorem running (hi : j ∈ claimed i later) (unresolved : (m.future f).value = none) : m.Underway f j b := by
  obtain ⟨⟨c, _⟩, hc, rfl⟩ := List.mem_map.mp hi
  obtain ⟨v, hv, hc⟩ := List.mem_filterMap.mp hc
  obtain ⟨_, _, now⟩ := h.moment hv
  obtain ⟨-, ha, next⟩ := now.act
  have underway := now.calls.of_claimed now.before.reachable.ordered ha (now.alone v List.mem_cons_self) hc
  exact (next.begun (.underway underway)).of_unresolved unresolved

/-- The end of the body settles the future. -/
theorem returned {v : Move S A V} (hv : v ∈ later) (hr : v.Returns a f j r) :
    (v.before.future f).value = none ∧ v.after.Fulfilled f j b (settled r) := by
  obtain ⟨_, _, now⟩ := h.moment hv
  obtain ⟨-, ha, -⟩ := now.act
  obtain ⟨t, active, ht, hk⟩ := hr.2
  have underway := now.calls.of_settling ht hk
  exact ⟨underway.unresolved, underway.returns now.before.reachable.ordered ha hr⟩

theorem resolved (unresolved : (n.future f).value = none) (hx : (m.future f).value = some x) :
    ∃ v ∈ later, ∃ a r, b.Comes (.exit r) ∧ v.Returns a f j r ∧ x = settled r := by
  have attempts := h.attempts
  rw [unresolved, hx] at attempts
  obtain ⟨⟨a, y⟩, hy, rfl⟩ : ∃ y ∈ later.filterMap (·.event.attempt? f), y.2 = x := by
    refine List.mem_map.mp ?_
    rw [show (later.filterMap (·.event.attempt? f)).map (·.2) = [x] from attempts]
    exact List.mem_cons_self
  obtain ⟨v, hv, hat⟩ := List.mem_filterMap.mp hy
  obtain ⟨t, active, r, ht, hk⟩ := h.alone v hv a y hat
  have hr : v.Returns a f j r := ⟨Cause.act.inj (Event.attempt?_eq hat).1, t, active, ht, hk⟩
  cases hr.attempts.symm.trans hat
  obtain ⟨r', comes, same⟩ := (h.returned hv hr).2.result
  refine ⟨v, hv, a, r', comes, ⟨hr.1, t, active, ht, ?_⟩, same⟩
  rw [hk, settling_congr same]

/-- What is left of the body decides the value. -/
theorem onward {v : Move S A V} {b' : Body S A V} (hv : v ∈ later) (ht : v.after.threads.get? a = some t)
    (hosts : t.control.task? = some j) (faces : t.control.Faces (Residue f b'))
    (unresolved : (v.after.future f).value = none) (hx : (m.future f).value = some x) :
    ∃ r, b'.Comes (.exit r) ∧ x = settled r := by
  obtain ⟨_, _, now⟩ := h.moment hv
  obtain ⟨-, -, next⟩ := now.act
  have rest : Sequel reg memory _ v.after _ m f j b' :=
    { next with calls := .begun (.underway ⟨⟨a, t, ht, hosts, faces⟩, unresolved⟩) }
  exact (rest.stops.calls.of_resolved hx).result

theorem rejected {v : Move S A V} (hv : v ∈ later) (hr : v.Rejects j) : (m.future f).value = none := by
  obtain ⟨_, _, now⟩ := h.moment hv
  obtain ⟨-, ha, next⟩ := now.act
  have ho := now.before.reachable.ordered
  obtain ⟨g, queued⟩ := hr.queued now.before now.numbered
  have unresolved := (now.calls.of_queued ho queued).unresolved_step ha (now.alone v List.mem_cons_self)
  exact (next.dormant_nowhere (dormant_of_nowhere (hr.nowhere now.before ha) unresolved)).unresolved

end Sequel

/-! ## Calls -/

/-- A thread that runs a body stays as it is until it takes a step. -/
theorem History.undisturbed (h₀ : History (.empty reg memory) moves n) (h : History n later m)
    (idle : ∀ v ∈ later, v.act ≠ .step a) (ht : n.threads.get? a = some t) (hk : t.control = .run seat b) :
    m.threads.get? a = some t := by
  induction h with
  | refl => exact ht
  | @act later m m' move h ha ih =>
    have there := ih fun v hv => idle v (List.mem_append_left _ hv)
    have ho : m.Ordered := (h₀.trans h).reachable.ordered
    have other := Action.actor_ne (idle _ (List.mem_append_right _ List.mem_cons_self))
    rcases ho.stays ha there other with stays | roused
    · exact stays
    · obtain ⟨cog, k⟩ := t
      cases hk
      exact roused

/-- The thread `a` calls `b` on the cog `g`: in the move `first` it makes the future `f`, and in its next
move, `last`, it submits the task `k`. -/
structure Call (a : Agent) (g : CogId) (b : Body S A V) (f : FutureId) (k : TaskId) (first : Move S A V)
    (between : List (Move S A V)) (last : Move S A V) : Prop where
  begins : first.act = .step a ∧ ∃ t seat name next,
    first.before.threads.get? a = some t ∧ t.control = .run seat (.call g name b next)
  waits : ∀ v ∈ between, v.act ≠ .step a
  submits : last.act = .step a
  future : f = ⟨first.before.nextFuture⟩
  task : k = last.before.nextTask

namespace Call

variable {first last : Move S A V} {earlier between : List (Move S A V)}

/-- The task is submitted with the body of the call. -/
theorem submission (call : Call a g b f k first between last) (h₀ : History (.empty reg memory) earlier first.before)
    (ha : first.before.act first.act = some first.after) (h : History first.after between last.before) :
    ∃ t seat name next, last.before.threads.get? a = some t ∧
      t.control = .run seat (.submit g name (Body.calling f b) next) := by
  obtain ⟨hact, t, seat, name, next, ht, hk⟩ := call.begins
  rw [hact] at ha
  have hstep : first.before.step a = some first.after := ha
  simp only [step, ht, hk, Body.call, stepBody, stepRequest, Option.some.injEq] at hstep
  have ht' : first.after.threads.get? a = some { t with control := .run seat (.submit g name (Body.calling f b)
      fun r => next (r.map fun i => (i, f))) } := by
    rw [← hstep, call.future]
    exact thread_set _ ht (.same rfl)
  exact ⟨_, seat, name, _, (h₀.act ha).undisturbed h call.waits ht' rfl, rfl⟩

/-- As the call is submitted, its task is on its way and its future untouched. -/
theorem begun (call : Call a g b f k first between last)
    (h : History (.empty reg memory) (earlier ++ first :: between) last.before)
    (ha : last.before.act last.act = some last.after)
    (alone : ∀ v ∈ earlier ++ first :: between ++ [last], v.Private f k) :
    last.after.Dormant f k (· = Body.calling f b) ∧ k.val < last.after.nextTask.val ∧ last.after.Shows f k ∧
      (earlier ++ first :: between ++ [last]).filterMap (·.event.attempt? f) = [] := by
  have ho : last.before.Ordered := h.reachable.ordered
  have new : last.before.nextTask.val ≤ k.val := Nat.le_of_eq (congrArg _ call.task.symm)
  obtain ⟨h₀, hfirst, hbetween⟩ := h.at_move
  obtain ⟨t, seat, name, next, ht, hk⟩ := call.submission h₀ hfirst hbetween
  obtain ⟨before, unresolved⟩ := h.unattempted (fun v hv => alone v (List.mem_append_left _ hv)) new
  have idle : last.event.attempt? f = none :=
    (alone last (List.mem_append_right _ List.mem_cons_self)).unattempted ho new
  have unresolved' : (last.after.future f).value = none := by
    rw [value_step ha, unresolved]
    exact congrArg (Option.map _) idle
  have shows : last.after.Shows f k := fun i o ho e => absurd e (h.not_ended new ha ho)
  have none : (earlier ++ first :: between ++ [last]).filterMap (·.event.attempt? f) = [] := by
    rw [List.filterMap_append, before, List.filterMap_cons, idle]
    rfl
  rw [call.submits] at ha
  rw [call.task] at shows ⊢
  obtain ⟨dormant, numbered⟩ := ho.dormant_submit ht hk ha unresolved'
  exact ⟨dormant, numbered, shows, none⟩

end Call

/-- What a call of `b` with the future `f` and the task `k` comes to that has been submitted in the move
`last`. The moves `later` have come since, and have led to `m`. -/
structure CallDelivers (b : Body S A V) (f : FutureId) (k : TaskId) (moves : List (Move S A V)) (last : Move S A V)
    (later : List (Move S A V)) (m : Machine S A V) : Prop where
  /-- Nobody runs the body of a task that has not been claimed. -/
  unclaimed : (∀ i, k ∉ claimed i later) → (m.future f).value = none
  /-- From the claim on a thread runs the body, and until that has ended, the future is unresolved. -/
  running {i : CogId} : k ∈ claimed i later → (m.future f).value = none →
    ∃ a t, m.threads.get? a = some t ∧ t.control.task? = some k ∧ t.control.Faces (Residue f b)
  /-- Once the body has ended with `r`, the next step of the thread settles the future with `r`. -/
  ready {a : Agent} {t : Thread S A V} {active : Bool} {r : Exit TaskError V} : m.threads.get? a = some t →
    t.control = .run (some ⟨k, active⟩) (settling f r) → (m.future f).value = none ∧
      ∃ m', m.act (.step a) = some m' ∧ (m'.future f).value = some (settled r)
  settles {v : Move S A V} {a : Agent} {r : Exit TaskError V} : v ∈ later → v.Returns a f k r →
    (v.before.future f).value = none ∧ (v.after.future f).value = some (settled r)
  /-- Nothing else settles it. -/
  resolved {x : ObjectGroups.Settled V} : (m.future f).value = some x →
    ∃ v ∈ later, ∃ a r, b.Comes (.exit r) ∧ v.Returns a f k r ∧ x = settled r
  once : (moves.filterMap (·.event.attempt? f)).map (·.2) = (m.future f).value.toList
  kept {v : Move S A V} {x : ObjectGroups.Settled V} : v ∈ later → (v.after.future f).value = some x →
    (m.future f).value = some x
  /-- What is left of the body at any time decides the value. -/
  onward {v : Move S A V} {a : Agent} {t : Thread S A V} {b' : Body S A V} {x : ObjectGroups.Settled V} :
    v ∈ later → v.after.threads.get? a = some t → t.control.task? = some k → t.control.Faces (Residue f b') →
      (v.after.future f).value = none → (m.future f).value = some x → ∃ r, b'.Comes (.exit r) ∧ x = settled r
  /-- Once the future is settled, the task ends as its value tells. -/
  departs {a : Agent} {t : Thread S A V} {x : ObjectGroups.Settled V} : (m.future f).value = some x →
    m.threads.get? a = some t → t.control.task? = some k → t.control.Departs k x
  completed {i : CogId} {d : TaskHandle} : m.handle? i k = some d → d.outcome = some .completed →
    ∃ v, (m.future f).value = some (.ok v)
  failed {i : CogId} {d : TaskHandle} : m.handle? i k = some d → d.outcome = some .failed →
    ∃ x, (m.future f).value = some x
  /-- A task whose call has come to an error never counts as completed. -/
  error {e : TaskError} : (m.future f).value = some (.error e) → ∀ v ∈ later, ∀ i d,
    v.after.handle? i k = some d → d.outcome ≠ some .completed
  rejected {v : Move S A V} : v ∈ last :: later → v.Rejects k → (m.future f).value = none

/-- A call delivers what its body comes to. -/
theorem call_delivers {first last : Move S A V} {earlier between : List (Move S A V)}
    (h : History (.empty reg memory) (earlier ++ first :: between ++ last :: later) m)
    (call : Call a g b f k first between last)
    (alone : ∀ v ∈ earlier ++ first :: between ++ last :: later, v.Private f k) :
    CallDelivers b f k (earlier ++ first :: between ++ last :: later) last later m := by
  obtain ⟨before, ha, since⟩ := h.at_move
  obtain ⟨dormant, numbered, shows, idle⟩ := call.begun before ha fun v hv => alone v (by grind)
  have sequel : Sequel reg memory _ last.after later m f k b :=
    { before := before.act ha, since, numbered, shows
      alone := fun v hv => alone v (by simp [hv])
      calls := .dormant dormant }
  have stops := sequel.stops
  have completed {n : Machine S A V} {i : CogId} {d : TaskHandle} (shows : n.Shows f k) (hd : n.handle? i k = some d)
      (done : d.outcome = some .completed) : ∃ v, (n.future f).value = some (.ok v) := by
    rw [handle?_books] at hd
    obtain ⟨x, hx, ok⟩ := shows i .completed nofun ⟨d, hd, by simpa using done⟩
    cases x with
    | ok v => exact ⟨v, hx⟩
    | error e => cases ok rfl
  constructor
  case unclaimed =>
    intro unclaimed
    refine (sequel.dormant dormant fun v hv i c hc => unclaimed i ?_).unresolved
    exact List.mem_map.mpr ⟨_, List.mem_filterMap.mpr ⟨v, hv, hc⟩, rfl⟩
  case running => exact fun hi unresolved => (sequel.running hi unresolved).hosted
  case ready =>
    intro a t active r ht hk
    have unresolved := (stops.calls.of_settling ht hk).unresolved
    obtain ⟨m', ha'⟩ : ∃ m', m.act (.step a) = some m' := ⟨_, step_resolve ht hk⟩
    have attempts : (⟨m, .step a, m'⟩ : Move S A V).Returns a f k r := ⟨rfl, t, active, ht, hk⟩
    refine ⟨unresolved, m', ha', ?_⟩
    rw [value_step ha', unresolved, attempts.attempts]
    rfl
  case settles =>
    intro v a r hv hr
    obtain ⟨unresolved, fulfilled⟩ := sequel.returned hv hr
    exact ⟨unresolved, fulfilled.resolved⟩
  case resolved => exact sequel.resolved dormant.unresolved
  case once =>
    have attempts := sequel.attempts
    rw [dormant.unresolved] at attempts
    rw [List.append_cons, List.filterMap_append, idle]
    exact attempts
  case kept =>
    intro v x hv hx
    obtain ⟨_, _, now⟩ := sequel.moment hv
    exact now.act.2.2.kept hx
  case onward => exact sequel.onward
  case departs => exact fun hx => (stops.calls.of_resolved hx).departs
  case completed => exact completed stops.shows
  case failed =>
    intro i d hd done
    rw [handle?_books] at hd
    obtain ⟨x, hx, -⟩ := stops.shows i .failed nofun ⟨d, hd, by simpa using done⟩
    exact ⟨x, hx⟩
  case error =>
    intro e he v hv i d hd done
    obtain ⟨_, _, now⟩ := sequel.moment hv
    obtain ⟨y, hy⟩ := completed now.act.2.2.shows hd done
    cases (now.act.2.2.kept hy).symm.trans he
  case rejected =>
    intro v hv hr
    rcases List.mem_cons.mp hv with rfl | hv
    · have nowhere := hr.nowhere before ha
      exact (sequel.dormant_nowhere (dormant_of_nowhere nowhere dormant.unresolved)).unresolved
    · exact sequel.rejected hv hr

/-- It is enough that no other move resolves the future. -/
theorem Move.Returns.alone {v : Move S A V} (h : v.Returns a f j r) (earlier later : List (Move S A V))
    (quiet : ∀ w ∈ earlier ++ later, (w.event.attempt? f).isNone = true) :
    ∀ w ∈ earlier ++ v :: later, w.Private f j := by
  have idle {w : Move S A V} (quiet : (w.event.attempt? f).isNone = true) : w.Private f j := by
    intro a x hat
    simp [hat] at quiet
  intro w hw
  rcases List.mem_append.mp hw with hw | hw
  · exact idle (quiet w (List.mem_append_left _ hw))
  · rcases List.mem_cons.mp hw with rfl | hw
    · intro a' x hat
      obtain ⟨t, active, ht, hk⟩ := h.2
      cases h.attempts.symm.trans hat
      exact ⟨t, active, r, ht, hk⟩
    · exact idle (quiet w (List.mem_append_right _ hw))

/-- A body that awaits, and then panics. -/
def exploding : Body Unit Unit Unit := .await .always fun _ => .exit (.panic (.text "exploded"))

def explodedStart : Machine Unit Unit Unit := .empty { namePrefix := "cog", admits := fun _ => true } ()

/-- A caller arrives, and is about to make the future of its call. -/
def explodedBefore : List (Action Unit Unit Unit) :=
  [.found "cog" (), .arrive (.call ⟨1⟩ "job" exploding fun _ => .exit (.ok ()))]

/-- The call is accepted, and its body runs until it has panicked. -/
def explodedWhile : List (Action Unit Unit Unit) :=
  List.replicate 6 (.step (.caller 1)) ++ List.replicate 12 (.step (.context ⟨1⟩))

/-- The next step of the thread. -/
def Machine.takes (m : Machine S A V) (a : Agent) : Move S A V := ⟨m, .step a, m.perform (.step a)⟩

def explodedFirst : Move Unit Unit Unit := (explodedBefore.foldl perform explodedStart).takes (.caller 1)

def explodedLast : Move Unit Unit Unit := explodedFirst.after.takes (.caller 1)

def explodedEnd : Move Unit Unit Unit := (explodedWhile.foldl perform explodedLast.after).takes (.context ⟨1⟩)

def explodedSince : List (Action Unit Unit Unit) := List.replicate 3 (.step (.context ⟨1⟩))

def explodedLater : List (Move Unit Unit Unit) :=
  explodedLast.after.moves explodedWhile ++ explodedEnd :: explodedEnd.after.moves explodedSince

def exploded : Machine Unit Unit Unit := explodedSince.foldl perform explodedEnd.after

theorem call_delivers_exploded : CallDelivers exploding ⟨1⟩ ⟨1⟩
    (explodedStart.moves explodedBefore ++ explodedFirst :: [] ++ explodedLast :: explodedLater)
      explodedLast explodedLater exploded ∧
    (explodedLater.filterMap (·.event.attempt? ⟨1⟩)).length = 1 ∧
    (exploded.future ⟨1⟩).value = some (.error (.panicked "exploded")) ∧
    (exploded.handle? ⟨1⟩ ⟨1⟩).bind (·.outcome) = some .failed := by
  have call : Call (.caller 1) ⟨1⟩ exploding ⟨1⟩ ⟨1⟩ explodedFirst [] explodedLast :=
    { begins := ⟨rfl, _, none, "job", _, rfl, rfl⟩
      waits := fun _ hv => absurd hv List.not_mem_nil
      submits := rfl
      future := rfl
      task := rfl }
  have returns : explodedEnd.Returns (.context ⟨1⟩) ⟨1⟩ ⟨1⟩ (.panic (.text "exploded")) :=
    ⟨rfl, _, true, rfl, rfl⟩
  have alone := returns.alone (explodedStart.moves explodedBefore ++ explodedFirst :: [] ++
    explodedLast :: explodedLast.after.moves explodedWhile) (explodedEnd.after.moves explodedSince) (by decide +kernel)
  rw [List.append_assoc _ (explodedLast :: _), List.cons_append] at alone
  have making : explodedFirst.before.act explodedFirst.act = some explodedFirst.after :=
    act_perform (by decide +kernel)
  have submitting : explodedLast.before.act explodedLast.act = some explodedLast.after :=
    act_perform (by decide +kernel)
  have settling : explodedEnd.before.act explodedEnd.act = some explodedEnd.after :=
    act_perform (by decide +kernel)
  have since : History explodedLast.after explodedLater exploded :=
    (history_moves explodedLast.after explodedWhile).join settling (history_moves explodedEnd.after explodedSince)
  have whole := ((history_moves explodedStart explodedBefore).act making).join submitting since
  exact ⟨call_delivers whole call alone, by decide +kernel, by decide +kernel, by decide +kernel⟩

end ObjectGroups
