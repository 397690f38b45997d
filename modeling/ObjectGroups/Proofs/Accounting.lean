/-
The books of a cog balance.

A task that has been submitted has ended in one of three ways, or has its
record. A task that has been suspended has been resumed, or is suspended now,
or has ended without the slot, by an abort or with a body that has lost it.
Each task that has ended and was not aborted is an execution under its name.
These equations hold at any time, since each critical section enters a step in
all the books that it belongs to; only the cog's own count of ended tasks is
written outside of them, and agrees once all threads are at rest.
-/
import ObjectGroups.Proofs.Conservation
import ObjectGroups.Proofs.Outcomes

namespace ObjectGroups

variable {S A V : Type} {m m' : Machine S A V} {a : Agent} {g : CogId} {c : ContextId}
  {own : Option CogId} {s s' : Stance} {x x' : Cog S A V} {k : TaskId} {move : Action S A V}
  {moves : List (Move S A V)} {y y' : Scheduler S A V} {r : Registry} {memory : A}

open Machine Scheduler

/-! ## Sizes of tables -/

namespace Table

variable {κ α : Type} [DecidableEq κ] {table : Table κ α} {i : κ}

@[simp] theorem length_modify (f : α → α) : (table.modify i f).length = table.length := by
  simp [modify]

theorem length_put (h : table.get? i = none) (b : α) : (table.put i b).length = table.length + 1 := by
  induction table with
  | nil => rfl
  | cons e table ih =>
    obtain ⟨j, d⟩ := e
    have other : j ≠ i := by
      rintro rfl
      simp [get?] at h
    rw [get?, if_neg other] at h
    rw [put, if_neg other, List.length_cons, List.length_cons, ih h]

theorem length_remove (hn : (keys table).Nodup) (h : (table.get? i).isSome) :
    (table.remove i).length + 1 = table.length := by
  induction table with
  | nil => cases h
  | cons e table ih =>
    obtain ⟨j, d⟩ := e
    obtain ⟨hj, rest⟩ := List.nodup_cons.mp hn
    by_cases hji : j = i
    · subst hji
      have others : ∀ e ∈ table, e.1 ≠ j := fun e he same => hj (List.mem_map.mpr ⟨e, he, same⟩)
      have gone : remove ((j, d) :: table) j = table := by
        simpa [remove] using others
      rw [gone, List.length_cons]
    · rw [get?, if_neg hji] at h
      have kept : remove ((j, d) :: table) i = (j, d) :: remove table i := by simp [remove, hji]
      rw [kept, List.length_cons, List.length_cons, ih rest h]

/-- The sum of the entries. -/
def total (table : Table κ Nat) : Nat := table.foldr (fun e n => e.2 + n) 0

/-- One entry is one more. -/
theorem total_put (table : Table κ Nat) (i : κ) :
    (table.put i ((table.get? i).getD 0 + 1)).total = table.total + 1 := by
  induction table with
  | nil => rfl
  | cons e table ih =>
    obtain ⟨j, n⟩ := e
    by_cases h : j = i
    · simp only [get?, put, h, if_true, Option.getD_some, total, List.foldr_cons]
      omega
    · simp only [get?, put, if_neg h, total, List.foldr_cons] at ih ⊢
      omega

end Table

/-! ## Counters -/

/-- The executions under all names. -/
def Metrics.executions (m : Metrics) : Nat := m.executed.total

theorem Metrics.executions_record (m : Metrics) (now : Instant) (name : String) (d : Span) :
    (m.record now name d).executions = m.executions + 1 := Table.total_put ..

namespace Scheduler

variable {outcome : TaskOutcome} {now : Instant} {label : String}

/-- No task is submitted, suspended or resumed. -/
structure Calm (y y' : Scheduler S A V) : Prop where
  submitted : y'.metrics.submitted = y.metrics.submitted
  suspensions : y'.metrics.suspensions = y.metrics.suspensions
  resumptions : y'.metrics.resumptions = y.metrics.resumptions

theorem calm_finish : y.Calm (y.finish k outcome now).2 := by
  unfold finish
  split
  · exact ⟨rfl, rfl, rfl⟩
  · next record _ =>
    obtain ⟨view, startedAt⟩ := record
    cases outcome <;> cases startedAt <;> exact ⟨rfl, rfl, rfl⟩

theorem calm_abort : y.Calm (y.abort k c now).2 := by
  have ended : (y.removeWaiter c).retire.Calm ((y.removeWaiter c).retire.finish k .aborted now).2 := calm_finish
  exact ⟨ended.submitted, ended.suspensions, ended.resumptions⟩

theorem calm_complete : y.Calm (y.complete k outcome now).2 := by
  have ended : ({ y with activeTask := none } : Scheduler S A V).Calm
      (({ y with activeTask := none } : Scheduler S A V).finish k outcome now).2 := calm_finish
  exact ⟨ended.submitted, ended.suspensions, ended.resumptions⟩

theorem calm_strand : y.Calm (y.strand k c now).2 := by
  let z : Scheduler S A V := { y.release c with
    activeTask := if (y.release c).activeTask = some k then none else (y.release c).activeTask }
  have same : z.metrics = y.metrics := metrics_release
  have ended : z.retire.Calm (z.retire.finish k .failed now).2 := calm_finish
  exact ⟨ended.submitted.trans (by simp [retire, same]), ended.suspensions.trans (by simp [retire, same]),
    ended.resumptions.trans (by simp [retire, same])⟩

/-- Only the end of a task that has started and is not aborted is an execution. -/
theorem executions_finish {record : TaskRecord} (hr : y.records.get? k = some record)
    (started : record.startedAt.isSome) : (y.finish k outcome now).2.metrics.executions =
      y.metrics.executions + if outcome = .aborted then 0 else 1 := by
  obtain ⟨view, start⟩ := record
  obtain ⟨start, rfl⟩ := Option.isSome_iff_exists.mp started
  unfold finish
  rw [hr]
  cases outcome with
  | aborted => rfl
  | completed | failed => exact Metrics.executions_record ..

end Scheduler

/-- A deed counts the suspension or the resumption that it is. -/
theorem Deed.counters {loud : Bool} (h : Deed g a own loud s x s' x') :
    x'.scheduler.metrics.suspensions = x.scheduler.metrics.suspensions + s.pauses s' ∧
      x'.scheduler.metrics.resumptions = x.scheduler.metrics.resumptions + s.resumes s' := by
  cases h with
  | complete now =>
    exact ⟨calm_complete.suspensions, calm_complete.resumptions⟩
  | @abort c s k x now hst =>
    have calm : x.scheduler.Calm (x.scheduler.abort k c now).2 := calm_abort
    rcases hst with rfl | ⟨rfl, -⟩ <;> exact ⟨calm.suspensions, calm.resumptions⟩
  | @strand c k x now =>
    have calm : (x.scheduler.removeWaiter c).Calm ((x.scheduler.removeWaiter c).strand k c now).2 := calm_strand
    exact ⟨calm.suspensions, calm.resumptions⟩
  | _ =>
    simp [Stance.pauses, Stance.resumes, Stance.suspends, Stance.slot, Stance.seat?, Scheduler.enqueue,
      Scheduler.withdraw, Scheduler.retire, Scheduler.suspend, Scheduler.markSuspended, Scheduler.resume,
      Scheduler.markRunning, Scheduler.addWaiter, Scheduler.removeWaiter, Scheduler.markReady]

/-! ## Submissions -/

/-- A task that has been submitted has its handle, and has ended or has its record. -/
structure Scheduler.Enrolled (y : Scheduler S A V) : Prop where
  known : y.metrics.submitted = y.handles.length
  recorded : y.metrics.submitted =
    y.tally .completed + y.tally .failed + y.tally .aborted + y.records.length

namespace Scheduler

variable {outcome : TaskOutcome} {active : Option ContextId} {n : Nat} {st : TaskState}
  {f : TaskRecord → TaskRecord}

@[simp] theorem length_records_setState : (y.setState k st f).records.length = y.records.length := by
  rw [records_setState, Table.length_modify]

@[simp] theorem length_handles_setState : (y.setState k st f).handles.length = y.handles.length := by
  unfold setState
  split <;> simp

/-- The task that ends is counted, and its record goes. -/
theorem Ends.enrolled (he : y.Ends y' k outcome) (hc : y.Counts y' (some outcome) n active)
    (calm : y.Calm y') (hn : (Table.keys y.records).Nodup) (hy : y.Enrolled) : y'.Enrolled where
  known := by rw [calm.submitted, hy.known, he.handles, Table.length_modify]
  recorded := by
    have length := Table.length_remove hn he.present
    rw [calm.submitted, hy.recorded, hc.tally, hc.tally, hc.tally, he.records]
    cases outcome <;> simp <;> omega

end Scheduler

theorem Deed.enrolled {loud : Bool} (h : Deed g a own loud s x s' x') (fits : x.scheduler.Fits g own s)
    (hn : (Table.keys x.scheduler.records).Nodup) (hn' : (Table.keys x.scheduler.handles).Nodup)
    (offered : ∀ k, s.offers g = some k →
      (x.scheduler.records.get? k).isSome ∧ (x.scheduler.handles.get? k).isSome)
    (charged : own = some g → ∀ k, s.charge = some k → (x.scheduler.records.get? k).isSome)
    (stranded : ∀ k, s = .strand k → s' = .leave →
      x'.ended = if x.scheduler.records.has k then x.ended + 1 else x.ended)
    (hx : x.scheduler.Enrolled) : x'.scheduler.Enrolled := by
  obtain ⟨known, recorded⟩ := hx
  have entered {view : TaskView} {body : Body S A V} (new : x.scheduler.records.get? view.id = none ∧
      x.scheduler.handles.get? view.id = none) : (x.scheduler.enqueue view body).Enrolled := by
    have records := Table.length_put new.1 { view := view }
    have handles := Table.length_put new.2 {}
    constructor
    · simp only [Scheduler.enqueue] at known ⊢
      omega
    · simp only [tally, Scheduler.enqueue] at recorded ⊢
      omega
  cases h with
  | submit body => exact entered (fits.new rfl)
  | enqueue body => exact entered (fits.new rfl)
  | withdraw =>
    obtain ⟨record, handle⟩ := offered _ (if_pos rfl)
    have records := Table.length_remove hn record
    have handles := Table.length_remove hn' handle
    constructor
    · simp only [Scheduler.withdraw] at known ⊢
      omega
    · simp only [tally, Scheduler.withdraw] at recorded ⊢
      omega
  | @complete _ k outcome _ now =>
    obtain ⟨ends, counts⟩ := ends_complete (charged rfl k rfl) outcome now
    exact ends.enrolled counts calm_complete hn ⟨known, recorded⟩
  | @abort c s k _ now hst =>
    have charge : s.charge = some k := by rcases hst with rfl | ⟨rfl, -⟩ <;> rfl
    obtain ⟨ends, counts⟩ := ends_abort (charged rfl k charge) c now
    exact ends.enrolled counts calm_abort hn ⟨known, recorded⟩
  | @strand c k x now =>
    have present : ((x.scheduler.removeWaiter c).records.get? k).isSome :=
      unfinished_of_counted (stranded k rfl rfl)
    obtain ⟨ends, counts⟩ := ends_strand present c now
    exact ends.enrolled counts calm_strand hn ⟨known, recorded⟩
  | _ =>
    constructor
    · simpa [Scheduler.retire, Scheduler.suspend, Scheduler.markSuspended, Scheduler.resume,
        Scheduler.markRunning, Scheduler.addWaiter, Scheduler.removeWaiter, Scheduler.markReady,
        handles_release] using known
    · simpa [tally, Scheduler.retire, Scheduler.suspend, Scheduler.markSuspended, Scheduler.resume,
        Scheduler.markRunning, Scheduler.addWaiter, Scheduler.removeWaiter, Scheduler.markReady,
        records_release] using recorded

/-! ## Executions -/

namespace Scheduler

/-- A task that has begun knows since when. -/
def Timed (y : Scheduler S A V) : Prop :=
  ∀ k record, y.records.get? k = some record → record.view.state ≠ .queued → record.startedAt.isSome

/-- The tasks that have ended and were not aborted are executions. -/
def Executed (y : Scheduler S A V) : Prop := y.metrics.executions = y.tally .completed + y.tally .failed

end Scheduler

namespace Scheduler

variable {outcome : TaskOutcome} {now : Instant} {active : Option ContextId} {n : Nat} {record : TaskRecord}

theorem executions_strand (hr : y.records.get? k = some record) (started : record.startedAt.isSome) :
    (y.strand k c now).2.metrics.executions = y.metrics.executions + 1 := by
  have released : (y.release c).records.get? k = some record := by rw [records_release, hr]
  let z : Scheduler S A V := { y.release c with
    activeTask := if (y.release c).activeTask = some k then none else (y.release c).activeTask }
  have same : z.metrics = y.metrics := metrics_release
  have ended : (z.retire.finish k .failed now).2.metrics.executions = z.retire.metrics.executions + 1 :=
    executions_finish (y := z.retire) released started
  exact ended.trans (by simp [retire, Metrics.executions, same])

theorem Counts.executed (hc : y.Counts y' (some outcome) n active)
    (executions : y'.metrics.executions = y.metrics.executions + if outcome = .aborted then 0 else 1)
    (hy : y.Executed) : y'.Executed := by
  unfold Executed at hy ⊢
  rw [executions, hy, hc.tally, hc.tally]
  cases outcome <;> simp <;> omega

end Scheduler

theorem Course.timed (h : Course a g own y y' s s') (fits : y.Fits g own s) (hy : y.Timed) : y'.Timed := by
  have modified {i : TaskId} {f : TaskRecord → TaskRecord} (hr : y'.records = y.records.modify i f)
      (hf : ∀ record, y.records.get? i = some record → (f record).view.state ≠ .queued →
        (f record).startedAt.isSome) : y'.Timed := by
    intro k record hk begun
    rw [hr, Table.get?_modify] at hk
    split at hk
    · next e =>
      subst e
      obtain ⟨old, hold, rfl⟩ := Option.map_eq_some_iff.mp hk
      exact hf old hold begun
    · exact hy k record hk begun
  have removed {i : TaskId} (hr : y'.records = y.records.remove i) : y'.Timed := by
    intro k record hk begun
    rw [hr, Table.get?_remove] at hk
    split at hk
    · cases hk
    · exact hy k record hk begun
  have same (hr : y'.records = y.records) : y'.Timed := by
    intro k record hk begun
    exact hy k record (hr ▸ hk) begun
  cases h with
  | rest _ tasks => exact same tasks.records
  | unwind _ _ tasks => exact same tasks.records
  | retire _ _ tasks => exact same tasks.records
  | fade _ _ _ tasks => exact same tasks.records
  | enter _ _ enters =>
    intro k record hk begun
    rw [enters.records, Table.get?_put] at hk
    split at hk
    · cases hk
      exact absurd enters.state begun
    · exact hy k record hk begun
  | withdraw _ _ withdraws => exact removed withdraws.records
  | start now _ _ _ moves => exact modified moves.records fun record _ _ => rfl
  | suspend label _ hown _ _ moves =>
    refine modified moves.records fun record hr _ => hy _ record hr ?_
    simp [fits.running hown rfl hr]
  | prepare _ _ hr => exact modified hr fun record hk begun => hy _ record hk begun
  | resume now _ _ _ moves => exact modified moves.records fun record _ _ => rfl
  | complete _ _ ends => exact removed ends.records
  | abort _ _ _ _ ends => exact removed ends.records
  | strand _ _ _ ends => exact removed ends.records

theorem Deed.executed {loud : Bool} (h : Deed g a own loud s x s' x') (fits : x.scheduler.Fits g own s)
    (charged : own = some g → ∀ k, s.charge = some k → (x.scheduler.records.get? k).isSome)
    (stranded : ∀ k, s = .strand k → s' = .leave →
      x'.ended = if x.scheduler.records.has k then x.ended + 1 else x.ended)
    (timed : x.scheduler.Timed) (hx : x.scheduler.Executed) : x'.scheduler.Executed := by
  -- A task that ends has begun.
  have begun {k : TaskId} {active : Bool} (hown : own = some g) (seat : s.seat? = some ⟨k, active⟩)
      (present : (x.scheduler.records.get? k).isSome) :
      ∃ record, x.scheduler.records.get? k = some record ∧ record.startedAt.isSome := by
    obtain ⟨record, hr⟩ := Option.isSome_iff_exists.mp present
    refine ⟨record, hr, timed k record hr ?_⟩
    cases active with
    | true => simp [fits.running hown seat hr]
    | false => simp [fits.idle hown seat hr]
  cases h with
  | @complete _ k outcome _ now =>
    have present := charged rfl k rfl
    obtain ⟨record, hr, started⟩ := begun rfl rfl present
    exact (ends_complete present outcome now).2.executed
      (executions_finish (y := { x.scheduler with activeTask := none }) hr started) hx
  | @abort c s k _ now hst =>
    have charge : s.charge = some k := by rcases hst with rfl | ⟨rfl, -⟩ <;> rfl
    have seat : s.seat? = some ⟨k, false⟩ := by rcases hst with rfl | ⟨rfl, -⟩ <;> rfl
    have present := charged rfl k charge
    obtain ⟨record, hr, started⟩ := begun rfl seat present
    exact (ends_abort present c now).2.executed
      (executions_finish (y := (x.scheduler.removeWaiter c).retire) hr started) hx
  | @strand c k x now =>
    have present : ((x.scheduler.removeWaiter c).records.get? k).isSome :=
      unfinished_of_counted (stranded k rfl rfl)
    obtain ⟨record, hr, started⟩ := begun rfl rfl present
    exact (ends_strand present c now).2.executed
      (executions_strand (y := x.scheduler.removeWaiter c) hr started) hx
  | _ =>
    simpa [Executed, tally, Scheduler.enqueue, Scheduler.withdraw, Scheduler.retire, Scheduler.suspend,
      Scheduler.markSuspended, Scheduler.resume, Scheduler.markRunning, Scheduler.addWaiter,
      Scheduler.removeWaiter, Scheduler.markReady, Metrics.executions] using hx

/-! ## Stranded tasks -/

/-- The unfinished task of the cog that is ended in this move as its body has left without the slot. -/
def Move.stranded? (g : CogId) (v : Move S A V) : Option TaskId :=
  match v.turn with
  | some (_, some h, .strand k, .leave) =>
    if h = g ∧ ((v.before.cogs.get? g).bind fun x => x.scheduler.records.get? k).isSome then some k else none
  | _ => none

/-- The tasks whose bodies have left without the slot, in order. -/
def stranded (g : CogId) (moves : List (Move S A V)) : List TaskId := moves.filterMap (Move.stranded? g)

theorem stranded_snoc (moves : List (Move S A V)) (v : Move S A V) :
    stranded g (moves ++ [v]) = stranded g moves ++ (v.stranded? g).toList := by
  unfold stranded
  rw [List.filterMap_append]
  cases h : v.stranded? g <;> simp [h]

theorem Move.stranded?_turn {v : Move S A V} (h : v.stranded? g = some k) :
    ∃ a, v.turn = some (a, some g, .strand k, .leave) := by
  unfold Move.stranded? at h
  split at h
  · next a i j hv =>
    split at h
    · next hi =>
      cases h
      exact ⟨a, hi.1 ▸ hv⟩
    · cases h
  · cases h

/-- A deed strands its task if the task is unfinished. -/
theorem Deed.stranded? {loud : Bool} (hact : move.actor? = some a) (ht : Turns m a own s s' m')
    (hw : Works m g x x' m') (h : Deed g a own loud s x s' x') :
    ((⟨m, move, m'⟩ : Move S A V).stranded? g).toList.length = x.scheduler.strands s s' := by
  have turn := ht.turn hact
  cases h with
  | @strand c k x | @fade c k x =>
    simp only [Move.stranded?, turn, hw.before, Option.bind_some, true_and, strands]
    split <;> rfl
  | abort now hst => rcases hst with rfl | ⟨rfl, -⟩ <;> simp [Move.stranded?, turn, strands]
  | _ => simp [Move.stranded?, turn, strands]

/-- No task is stranded beside the cog, or as a context gets its thread. -/
theorem Beside.not_stranded {v : Move S A V} (h : ∀ b, Beside g (v.before.look b) (v.after.look b)) :
    v.stranded? g = none := by
  rw [Option.eq_none_iff_forall_ne_some]
  intro k hk
  obtain ⟨a, hv⟩ := Move.stranded?_turn hk
  cases (Beside.alike h hv).seat rfl

theorem Grant.not_stranded {d : ContextId} {cog : Option CogId} {first : Stance}
    (hact : move.actor? = some a) (hb : Births m a own s s' d cog first m')
    (h : Grant g d a own s x s' x') : (⟨m, move, m'⟩ : Move S A V).stranded? g = none := by
  have turn := hb.turn hact
  cases h <;> simp [Move.stranded?, turn]

/-! ## All books together -/

/-- The books of a cog of which `n` tasks have been stranded in `steps` moves. -/
structure Scheduler.Accounted (y : Scheduler S A V) (n steps : Nat) : Prop where
  enrolled : y.Enrolled
  executed : y.Executed
  timed : y.Timed
  /-- A task that has been suspended has been resumed, or is suspended, or has ended since. -/
  paused : y.metrics.suspensions = y.metrics.resumptions + y.suspended.length + y.tally .aborted + n
  few : y.metrics.suspensions ≤ steps

namespace Scheduler.Accounted

variable {n steps : Nat}

theorem start : ({} : Scheduler S A V).Accounted 0 steps := by
  refine ⟨⟨rfl, rfl⟩, rfl, ?_, rfl, Nat.zero_le _⟩
  intro k record hk
  cases hk

theorem later (h : y.Accounted n steps) : y.Accounted n (steps + 1) :=
  ⟨h.enrolled, h.executed, h.timed, h.paused, Nat.le_succ_of_le h.few⟩

theorem grant {d : ContextId} (h : x.scheduler.Accounted n steps) (hg : Grant g d a own s x s' x') :
    x'.scheduler.Accounted n steps := by
  cases hg <;> exact ⟨⟨h.enrolled.known, h.enrolled.recorded⟩, h.executed, h.timed, h.paused, h.few⟩

end Scheduler.Accounted

/-- In every run, the books of each cog balance. -/
theorem History.accounted (h : History (.empty r memory) moves m) (hx : m.cogs.get? g = some x) :
    x.scheduler.Accounted (stranded g moves).length moves.length := by
  rw [← books_eq hx]
  refine h.books (P := fun moves y => y.Accounted (stranded g moves).length moves.length) .start ?_ ?_ ?_
  · intro moves v h ha hb accounted
    simp only [stranded_snoc, Beside.not_stranded hb, Option.toList_none, List.append_nil,
      List.length_append, List.length_singleton]
    exact accounted.later
  · intro moves m m' move a own loud s s' x x' h ha hact ht hw hd before
    have ho : m.Ordered := h.reachable.ordered
    have next : History (.empty r memory) (moves ++ [⟨m, move, m'⟩]) m' := .act h ha
    have filed := h.reachable.filed hw.before
    have fits := h.fits hw.before ht.before
    have roll := h.roll.2 hw.before
    have course := filed.course ho ht h.reachable.blank ha hw hd
    have charged (hown : own = some g) (k : TaskId) (hk : s.charge = some k) :
        (x.scheduler.records.get? k).isSome := filed.charged ho ht.before hown hk
    have counted (k : TaskId) (hs : s = .strand k) (hs' : s' = .leave) :
        x'.ended = if x.scheduler.records.has k then x.ended + 1 else x.ended :=
      ho.stranded ht ha hw hd hs hs'
    simp only [stranded_snoc, List.length_append, List.length_singleton]
    constructor
    case enrolled =>
      refine hd.enrolled fits roll.tidy.distinct roll.distinct (fun k hk => ?_) charged counted
        before.enrolled
      have queued := fits.offered hk
      exact ⟨filed.queued k queued, roll.known.mpr (List.mem_append_right _ queued)⟩
    case executed => exact hd.executed fits charged counted before.timed before.executed
    case timed => exact course.timed fits before.timed
    case paused =>
      have sleepers := course.sleepers fits roll.tidy.distinct (next.roll.2 hw.here).tidy.distinct
      obtain ⟨suspensions, resumptions⟩ := hd.counters
      have paused := before.paused
      rw [hd.stranded? hact ht hw]
      omega
    case few =>
      have once : s.pauses s' ≤ 1 := by
        unfold Stance.pauses
        split <;> omega
      have before := before.few
      rw [hd.counters.1]
      omega
  · intro moves m m' move a own c s s' x x' h ha hact hb hw hg accounted
    simp only [stranded_snoc, hg.not_stranded hact hb, Option.toList_none, List.append_nil,
      List.length_append, List.length_singleton]
    exact (accounted.grant hg).later

/-! ## What is in flight -/

/-- The task has not ended. -/
def Machine.unfinished (m : Machine S A V) (g : CogId) (k : TaskId) : Bool :=
  (m.handle? g k).any fun d => !d.finished

/-- A task that has been entered has ended, or has its record. -/
theorem History.submitted_split (h : History (.empty r memory) moves m) (hx : m.cogs.get? g = some x) :
    x.scheduler.metrics.submitted = x.scheduler.metrics.completed + x.scheduler.metrics.failed +
      x.scheduler.metrics.aborted + x.scheduler.records.length :=
  (h.accounted hx).enrolled.recorded

section
variable (h : History (.empty r memory) moves m) (hn : ∀ v ∈ moves, v.before.Nameable)
  (hx : m.cogs.get? g = some x) (hlock : x.lock = none)
include h hn hx hlock

/-- While the lock is free, a cog knows the tasks that it has accepted. -/
theorem History.taken : accepted g moves = claimed g moves ++ x.scheduler.queued :=
  ((h.accounts hn).present hx).settled (h.reachable.ordered.no_offers hx hlock)

/-- While the lock is free, the records are those of the accepted tasks that have not ended. -/
theorem History.recorded_iff :
    (x.scheduler.records.get? k).isSome ↔ k ∈ accepted g moves ∧ m.unfinished g k = true := by
  have faithful := (h.reachable.attended hx).faithful
  have known : (x.scheduler.handles.get? k).isSome ↔ k ∈ accepted g moves :=
    h.taken hn hx hlock ▸ (h.roll.2 hx).known
  rw [← known, unfinished, handle?_eq hx]
  cases hr : x.scheduler.records.get? k with
  | some record =>
    have sound := (faithful.sound hr).unfinished
    simp [faithful.shown hr, TaskHandle.finished, sound]
  | none =>
    cases hd : x.scheduler.handles.get? k with
    | none => simp
    | some d => simp [TaskHandle.finished, (faithful.ended hd hr).1]

theorem History.length_handles : x.scheduler.handles.length = (accepted g moves).length := by
  have roll := h.roll.2 hx
  have taken := h.taken hn hx hlock
  have perm : (Table.keys x.scheduler.handles).Perm (accepted g moves) := by
    refine (List.perm_ext_iff_of_nodup roll.distinct (taken ▸ roll.tidy.nodup)).mpr fun k => ?_
    rw [Table.mem_keys, roll.known, taken]
  rw [← perm.length_eq, Table.keys, List.length_map]

theorem History.length_records :
    x.scheduler.records.length = ((accepted g moves).filter (m.unfinished g)).length := by
  have roll := h.roll.2 hx
  have distinct : (accepted g moves).Nodup := h.taken hn hx hlock ▸ roll.tidy.nodup
  have perm : (Table.keys x.scheduler.records).Perm ((accepted g moves).filter (m.unfinished g)) := by
    refine (List.perm_ext_iff_of_nodup roll.tidy.distinct (distinct.filter _)).mpr fun k => ?_
    rw [Table.mem_keys, h.recorded_iff hn hx hlock, List.mem_filter]
  rw [← perm.length_eq, Table.keys, List.length_map]

theorem History.submitted_eq : x.scheduler.metrics.submitted = (accepted g moves).length :=
  (h.accounted hx).enrolled.known.trans (h.length_handles hn hx hlock)

/-- The sum of the tasks that have ended is one of 64 bits. -/
theorem History.ended_mod (few : (accepted g moves).length < Word.size) :
    (x.scheduler.metrics.completed + x.scheduler.metrics.failed + x.scheduler.metrics.aborted) % Word.size =
      x.scheduler.metrics.completed + x.scheduler.metrics.failed + x.scheduler.metrics.aborted := by
  have known := h.submitted_eq hn hx hlock
  have recorded := h.submitted_split hx
  exact Nat.mod_eq_of_lt (by omega)

theorem History.inFlight_eq (few : (accepted g moves).length < Word.size) :
    x.scheduler.metrics.inFlight = x.scheduler.records.length := by
  have recorded := h.submitted_split hx
  rw [Metrics.inFlight, h.ended_mod hn hx hlock few, recorded]
  omega

end

/-! ## Whole runs -/

/-- The books of the cog `g` after these moves. -/
structure Accounting (moves : List (Move S A V)) (m : Machine S A V) (g : CogId) (x : Cog S A V) :
    Prop where
  submitted : x.scheduler.metrics.submitted = x.scheduler.metrics.completed +
    x.scheduler.metrics.failed + x.scheduler.metrics.aborted + x.scheduler.records.length
  known : x.scheduler.metrics.submitted = (accepted g moves).length
  /-- The tasks in flight are the accepted ones that have not ended. -/
  inFlight : x.scheduler.metrics.inFlight = ((accepted g moves).filter (m.unfinished g)).length
  recorded : x.scheduler.metrics.inFlight = x.scheduler.records.length
  /-- The difference is one of natural numbers. -/
  unsaturated : (x.scheduler.metrics.completed + x.scheduler.metrics.failed + x.scheduler.metrics.aborted) %
    Word.size ≤ x.scheduler.metrics.submitted
  suspensions : x.scheduler.metrics.suspensions = x.scheduler.metrics.resumptions +
    x.scheduler.suspended.length + x.scheduler.metrics.aborted + (stranded g moves).length
  executed : x.scheduler.metrics.executions = x.scheduler.metrics.completed + x.scheduler.metrics.failed
  /-- At rest, the cog has counted the same tasks on its own. -/
  ended : m.Still → x.ended = x.scheduler.metrics.completed + x.scheduler.metrics.failed
  /-- None of the counters has come to the end of its 64 bits; the others are not above these. -/
  words : x.scheduler.metrics.submitted < Word.size ∧ x.scheduler.metrics.suspensions < Word.size

/-- While the lock of its scheduler is free, the books of a cog balance, and what is in flight
is what has been accepted and has not ended. -/
theorem tasks_accounted (r : Registry) (memory : A) (h : History (.empty r memory) moves m)
    (hn : ∀ v ∈ moves, v.before.Nameable) (few : moves.length < Word.size)
    (hx : m.cogs.get? g = some x) (hlock : x.lock = none) : Accounting moves m g x := by
  have accounted := h.accounted hx
  have known := h.submitted_eq hn hx hlock
  have recorded := h.submitted_split hx
  have bound : (accepted g moves).length < Word.size :=
    Nat.lt_of_le_of_lt (List.length_filterMap_le ..) few
  have inFlight := h.inFlight_eq hn hx hlock bound
  constructor
  case submitted => exact recorded
  case known => exact known
  case inFlight => rw [inFlight, h.length_records hn hx hlock]
  case recorded => exact inFlight
  case unsaturated =>
    rw [h.ended_mod hn hx hlock bound, recorded]
    omega
  case suspensions => exact accounted.paused
  case executed => exact accounted.executed
  case ended =>
    intro still
    obtain ⟨n, ended, ⟨-, b, s, hl, concludes⟩ | ⟨rfl, -⟩⟩ := h.reachable.reckoned hx
    · -- Who is about to enter an end can go on.
      rcases still.resting h.reachable.ordered hl with ⟨seat, rfl⟩ | ⟨seat, i, view, rfl, -⟩ | ⟨k, rfl⟩ <;>
        cases concludes
    · exact ended
  case words =>
    have suspensions := accounted.few
    exact ⟨known ▸ bound, by omega⟩

/-- A guard that panics when it is asked, and when it is to say which guard it is. -/
def wild : Guard Unit := .user {
  label := fun _ => .error .other
  poll := fun _ _ => .panic .other
  wait := fun _ => .answer (.ok true)
  stays := fun _ => .ok false
  sources := fun _ => ([], .ok false)
  deadline := fun _ => .ok none }

/-- One task is stranded, one aborted, one resumed and completed, and one fails; one waits, one
has the slot, and one is in the queue. -/
def accountActions : List (Action Unit Unit Unit) :=
  [.found "cog" (),
    .arrive (.submit ⟨1⟩ "stranded" (.await wild fun _ => .exit (.ok ())) fun _ =>
      .submit ⟨1⟩ "aborted" (.await (.future ⟨1⟩) fun _ => .exit (.ok ())) fun _ =>
        .submit ⟨1⟩ "resumed" (.await .always fun _ => .exit (.ok ())) fun _ =>
          .submit ⟨1⟩ "failed" (.exit (.error (.failed "no"))) fun _ =>
            .submit ⟨1⟩ "waiting" (.await (.future ⟨1⟩) fun _ => .exit (.ok ())) fun _ =>
              .submit ⟨1⟩ "running" (.block (fun _ => false) (.exit (.ok ()))) fun _ =>
                .submit ⟨1⟩ "queued" (.exit (.ok ())) fun _ =>
                  .request (.cancel ⟨2⟩) fun _ => .exit (.ok ()))] ++
    [1, 2, 3, 4, 5, 6].flatMap (fun c =>
      List.replicate 6 (.step (.caller 1)) ++ List.replicate 20 (.step (.context ⟨c⟩))) ++
    List.replicate 12 (.step (.caller 1)) ++ List.replicate 9 (.step (.context ⟨2⟩)) ++
    List.replicate 9 (.step (.context ⟨5⟩))

def accountMoves : List (Move Unit Unit Unit) :=
  (Machine.empty { namePrefix := "cog", admits := fun _ => true } ()).moves accountActions

def accountedFor : Machine Unit Unit Unit :=
  accountActions.foldl perform (.empty { namePrefix := "cog", admits := fun _ => true } ())

theorem tasks_accounted_unfinished : accountedFor.Still ∧
    (∃ x, accountedFor.cogs.get? ⟨1⟩ = some x ∧ Accounting accountMoves accountedFor ⟨1⟩ x ∧
      x.scheduler.metrics.inFlight = 3 ∧ x.ended = 3) ∧
    (accepted ⟨1⟩ accountMoves).filter (accountedFor.unfinished ⟨1⟩) = [⟨5⟩, ⟨6⟩, ⟨7⟩] ∧
    stranded ⟨1⟩ accountMoves = [⟨1⟩] := by
  have founded : (accountedFor.cogs.get? ⟨1⟩).isSome := by decide +kernel
  obtain ⟨x, hx⟩ := Option.isSome_iff_exists.mp founded
  have free : (accountedFor.cogs.get? ⟨1⟩).map (·.lock) = some none := by decide +kernel
  have counts : (accountedFor.cogs.get? ⟨1⟩).map (fun x => (x.scheduler.metrics.inFlight, x.ended)) = some (3, 3) := by
    decide +kernel
  rw [hx] at free counts
  obtain ⟨inFlight, ended⟩ := Prod.mk.inj (Option.some.inj counts)
  have accounting : Accounting accountMoves accountedFor ⟨1⟩ x :=
    tasks_accounted { namePrefix := "cog", admits := fun _ => true } () (history_moves _ accountActions)
      (by decide +kernel) (by decide +kernel) hx (Option.some.inj free)
  exact ⟨by decide +kernel, ⟨x, hx, accounting, inFlight, ended⟩, by decide +kernel, by decide +kernel⟩

end ObjectGroups
