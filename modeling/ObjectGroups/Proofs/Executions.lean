/-
Executions, name by name.

The metrics of a scheduler have three tables by the name of a task, and each
execution writes into all of them: how many there were, how long they took on
average, and when the last one ended. The new average is computed from the old
one and the number that has just been written, both under the same name. So
what an execution does to the entries of its name depends on these entries
alone (`Metrics.Entries.next`), and other names keep theirs: whatever else is
noted in between, a name has the entries that its own executions give it.

In a run, the executions of a cog are the tasks that have ended in it and were
not aborted; one that stranded is among them. They are noted in the step in
which they end, so the tables of a cog are those of its executions in the
order of the run (`History.noted`).
-/
import ObjectGroups.Proofs.Accounting

namespace ObjectGroups

/-! ## Tables -/

namespace Table

variable {κ α β : Type} [DecidableEq κ]

theorem keys_put (table : Table κ α) (k : κ) (a : α) :
    keys (table.put k a) = if k ∈ keys table then keys table else keys table ++ [k] := by
  induction table with
  | nil => rfl
  | cons e table ih =>
    obtain ⟨j, b⟩ := e
    by_cases h : j = k
    · simp [put, keys, h]
    · have other : k ≠ j := fun e => h e.symm
      simp only [put, if_neg h, keys, List.map_cons, List.mem_cons, other, false_or] at ih ⊢
      by_cases hk : k ∈ List.map (·.1) table <;> simp [ih, hk]

/-- Tables that have had the same keys go on to have the same keys. -/
theorem keys_put_congr {table : Table κ α} {table' : Table κ β} (h : keys table = keys table') (k : κ) (a : α)
    (b : β) : keys (table.put k a) = keys (table'.put k b) := by
  rw [keys_put, keys_put, h]

end Table

/-! ## Entries -/

/-- A task of this name has run to its end: how long it took, and when it ended. -/
structure Execution where
  name : String
  took : Span
  ended : Instant
deriving DecidableEq, Repr

/-- The executions under one name, in order. -/
def named (name : String) (es : List Execution) : List Execution := es.filter fun e => e.name = name

/-- No execution ends before the ones noted earlier. -/
def Chronological (es : List Execution) : Prop := es.Pairwise fun d e => d.ended ≤ e.ended

namespace Metrics

/-- Notes executions, one after the other. -/
def recordAll (m : Metrics) (es : List Execution) : Metrics :=
  es.foldl (fun m e => m.record e.ended e.name e.took) m

/-- What the three tables have under one name. -/
structure Entries where
  executed : Option Nat := none
  average : Option Span := none
  lastRun : Option Instant := none

def entries (m : Metrics) (name : String) : Entries where
  executed := m.executed.get? name
  average := m.average.get? name
  lastRun := m.lastRun.get? name

/-- The entries of a name after one more execution under it. -/
def Entries.next (x : Entries) (e : Execution) : Entries where
  executed := some (x.executed.getD 0 + 1)
  average := some (mean (x.average.getD 0) e.took (x.executed.getD 0 + 1))
  lastRun := some e.ended

variable {m : Metrics} {name : String} {e : Execution} {es : List Execution}

theorem entries_record (m : Metrics) (e : Execution) (name : String) :
    (m.record e.ended e.name e.took).entries name =
      if e.name = name then (m.entries name).next e else m.entries name := by
  split
  · next h =>
    subst h
    simp [entries, record, Entries.next]
  · next h => simp [entries, record, Table.get?_put_of_ne _ h]

/-- Executions under other names are passed over. -/
theorem entries_recordAll (m : Metrics) (es : List Execution) (name : String) :
    (m.recordAll es).entries name = (named name es).foldl Entries.next (m.entries name) := by
  induction es generalizing m with
  | nil => rfl
  | cons e es ih =>
    have first : (m.recordAll (e :: es)).entries name =
        (named name es).foldl Entries.next ((m.record e.ended e.name e.took).entries name) := ih _
    rw [first, entries_record, named, named, List.filter_cons]
    by_cases h : e.name = name <;> simp [h]

/-- Each execution counts one. -/
theorem executed_foldl (x : Entries) (es : List Execution) (h : es ≠ []) :
    (es.foldl Entries.next x).executed = some (x.executed.getD 0 + es.length) := by
  induction es generalizing x with
  | nil => exact absurd rfl h
  | cons e es ih =>
    cases es with
    | nil => rfl
    | cons e' es =>
      have counted := ih (x.next e) (by simp)
      simp only [List.foldl_cons, List.length_cons, Entries.next, Option.getD_some] at counted ⊢
      rw [counted]
      congr 1
      omega

/-- The last one counts. -/
theorem lastRun_foldl (x : Entries) (es : List Execution) :
    (es.foldl Entries.next x).lastRun = (es.getLast?.map (·.ended)).or x.lastRun := by
  induction es generalizing x with
  | nil => rfl
  | cons e es ih =>
    rw [List.foldl_cons, ih, List.getLast?_cons]
    cases es.getLast? <;> rfl

/-- The three tables have the same keys, each once. -/
structure Aligned (m : Metrics) : Prop where
  average : Table.keys m.average = Table.keys m.executed
  lastRun : Table.keys m.lastRun = Table.keys m.executed
  distinct : (Table.keys m.executed).Nodup

theorem aligned_start : ({} : Metrics).Aligned := ⟨rfl, rfl, List.nodup_nil⟩

theorem Aligned.record (h : m.Aligned) (e : Execution) : (m.record e.ended e.name e.took).Aligned where
  average := Table.keys_put_congr h.average ..
  lastRun := Table.keys_put_congr h.lastRun ..
  distinct := Table.nodup_put h.distinct _

theorem Aligned.recordAll (h : m.Aligned) (es : List Execution) : (m.recordAll es).Aligned := by
  induction es generalizing m with
  | nil => exact h
  | cons e es ih => exact ih (h.record e)

theorem mem_keys_recordAll : name ∈ Table.keys (m.recordAll es).executed ↔
    (∃ e ∈ es, e.name = name) ∨ name ∈ Table.keys m.executed := by
  induction es generalizing m with
  | nil => simp [Metrics.recordAll]
  | cons e es ih =>
    have first : name ∈ Table.keys ((m.record e.ended e.name e.took).executed) ↔
        e.name = name ∨ name ∈ Table.keys m.executed := by
      rw [eq_comm]
      exact Table.mem_keys_put _
    have rest : name ∈ Table.keys (m.recordAll (e :: es)).executed ↔
        (∃ d ∈ es, d.name = name) ∨ name ∈ Table.keys ((m.record e.ended e.name e.took).executed) := ih
    simp only [rest, first, List.mem_cons, exists_eq_or_imp]
    exact or_left_comm.trans or_assoc.symm

/-- What is not in the tables. -/
def counters (m : Metrics) : Metrics := { m with executed := [], average := [], lastRun := [] }

theorem counters_recordAll (m : Metrics) (es : List Execution) : (m.recordAll es).counters = m.counters := by
  induction es generalizing m with
  | nil => rfl
  | cons e es ih => exact ih (m.record e.ended e.name e.took)

/-- The tables are those of these executions: each name has its entries to itself. -/
structure Separate (m : Metrics) (es : List Execution) : Prop where
  /-- The executions of other names may as well not have been. -/
  alone (name : String) : m.entries name = (({} : Metrics).recordAll (named name es)).entries name
  /-- Nor does it matter how they were interleaved. -/
  interleaved {name : String} {es' : List Execution} : named name es' = named name es →
    (({} : Metrics).recordAll es').entries name = m.entries name
  aligned : m.Aligned
  recorded (name : String) : name ∈ Table.keys m.executed ↔ ∃ e ∈ es, e.name = name
  executed {e : Execution} : e ∈ es → m.executed.get? e.name = some (named e.name es).length
  lastRun (name : String) : m.lastRun.get? name = (named name es).getLast?.map (·.ended)
  /-- That is the latest time if no execution ends before the ones noted earlier. -/
  latest {e : Execution} {t : Instant} : Chronological es → e ∈ es → m.lastRun.get? e.name = some t →
    e.ended ≤ t
  /-- The average of one span is the span. -/
  single {e : Execution} : named e.name es = [e] → m.average.get? e.name = some e.took

theorem mem_named : e ∈ named name es ↔ e ∈ es ∧ e.name = name := by simp [named]

theorem named_named (name : String) (es : List Execution) : named name (named name es) = named name es := by
  simp [named]

/-- The last execution of a chronological list has ended latest. -/
theorem ended_le_last {d : Execution} (h : Chronological es) (he : e ∈ es) (hd : es.getLast? = some d) :
    e.ended ≤ d.ended := by
  obtain ⟨before, rfl⟩ := List.getLast?_eq_some_iff.mp hd
  rcases List.mem_append.mp he with earlier | last
  · exact (List.pairwise_append.mp h).2.2 e earlier d (by simp)
  · obtain rfl := List.mem_singleton.mp last
    exact Int.le_refl _

theorem separate_recordAll (es : List Execution) : (({} : Metrics).recordAll es).Separate es := by
  have entries (name : String) (es : List Execution) :
      (({} : Metrics).recordAll es).entries name = (named name es).foldl Entries.next {} :=
    entries_recordAll {} es name
  have lastRun (name : String) : (({} : Metrics).recordAll es).lastRun.get? name =
      (named name es).getLast?.map (·.ended) := by
    have written := congrArg Entries.lastRun (entries name es)
    rw [lastRun_foldl, Option.or_none] at written
    exact written
  constructor
  case alone => exact fun name => by rw [entries, entries, named_named]
  case interleaved => exact fun same => by rw [entries, entries, same]
  case aligned => exact aligned_start.recordAll es
  case recorded =>
    intro name
    rw [mem_keys_recordAll]
    simp [Table.keys]
  case executed =>
    intro e he
    have some_execution : named e.name es ≠ [] := List.ne_nil_of_mem (mem_named.mpr ⟨he, rfl⟩)
    have counted := executed_foldl {} _ some_execution
    rw [← entries, Option.getD_none, Nat.zero_add] at counted
    exact counted
  case lastRun => exact lastRun
  case latest =>
    intro e t h he ht
    rw [lastRun, Option.map_eq_some_iff] at ht
    obtain ⟨d, hd, rfl⟩ := ht
    exact ended_le_last (h.sublist List.filter_sublist) (mem_named.mpr ⟨he, rfl⟩) hd
  case single =>
    intro e alone
    have written := congrArg Entries.average (entries e.name es)
    rw [alone] at written
    exact written

end Metrics

open Metrics

/-- Whatever executions are noted, each name has the entries that its own give it, and nothing but
the tables is changed. -/
theorem names_separate (es : List Execution) :
    (({} : Metrics).recordAll es).Separate es ∧ (({} : Metrics).recordAll es).counters = {} :=
  ⟨separate_recordAll es, counters_recordAll {} es⟩

/-! ## The executions of a run -/

variable {S A V : Type} {m m' : Machine S A V} {a : Agent} {g : CogId} {c : ContextId}
  {own : Option CogId} {s s' : Stance} {x x' : Cog S A V} {k : TaskId} {move : Action S A V}
  {moves : List (Move S A V)} {y : Scheduler S A V} {now : Instant} {outcome : TaskOutcome}
  {r : Registry} {memory : A}

open Machine Scheduler

namespace Metrics

variable {n n' : Metrics} {es : List Execution}

/-- What the tables hold. -/
def tables (n : Metrics) : Table String Nat × Table String Span × Table String Instant :=
  (n.executed, n.average, n.lastRun)

theorem tables_recordAll (h : n.tables = n'.tables) (es : List Execution) :
    (n.recordAll es).tables = (n'.recordAll es).tables := by
  induction es generalizing n n' with
  | nil => exact h
  | cons e es ih =>
    refine ih ?_
    simp only [tables, Prod.mk.injEq] at h
    obtain ⟨executed, average, lastRun⟩ := h
    simp only [tables, record, executed, average, lastRun]

theorem recordAll_append (n : Metrics) (es es' : List Execution) :
    n.recordAll (es ++ es') = (n.recordAll es).recordAll es' := List.foldl_append

theorem executions_recordAll (n : Metrics) (es : List Execution) :
    (n.recordAll es).executions = n.executions + es.length := by
  induction es generalizing n with
  | nil => rfl
  | cons e es ih =>
    have first := executions_record n e.ended e.name e.took
    have rest := ih (n.record e.ended e.name e.took)
    rw [first] at rest
    rw [List.length_cons, Nat.add_comm es.length, ← Nat.add_assoc]
    exact rest

/-- The tables are all that matters. -/
theorem Separate.of_tables (hs : n'.Separate es) (h : n.tables = n'.tables) : n.Separate es := by
  obtain ⟨executed, average, lastRun⟩ : n.executed = n'.executed ∧ n.average = n'.average ∧
      n.lastRun = n'.lastRun := by simpa [tables] using h
  obtain ⟨alone, interleaved, aligned, recorded, counted, last, latest, single⟩ := hs
  simp only [entries, ← executed, ← average, ← lastRun] at alone interleaved recorded counted last latest single
  refine ⟨alone, interleaved, ?_, recorded, counted, last, latest, single⟩
  exact ⟨by rw [average, executed]; exact aligned.average, by rw [lastRun, executed]; exact aligned.lastRun,
    executed ▸ aligned.distinct⟩

end Metrics

/-- The task that ends, and not by an abort, as a thread goes from one stance to the other. -/
def Stance.closes : Stance → Stance → Option TaskId
  | .complete k _, .claim => some k
  | .strand k, .leave => some k
  | _, _ => none

/-- The execution that the unfinished task is if it ends now. -/
def Scheduler.execution? (y : Scheduler S A V) (k : TaskId) (now : Instant) : Option Execution :=
  (y.records.get? k).bind fun record => record.startedAt.map fun t => ⟨record.view.name, t.until_ now, now⟩

/-- The execution of the cog that ends in this move. -/
def Move.execution? (g : CogId) (v : Move S A V) : Option Execution :=
  match v.turn with
  | some (_, some h, s, s') =>
    if h = g then (s.closes s').bind fun k => (v.before.books g).execution? k v.before.now else none
  | _ => none

/-- The executions of the cog, in order. -/
def executions (g : CogId) (moves : List (Move S A V)) : List Execution :=
  moves.filterMap (Move.execution? g)

theorem executions_snoc (moves : List (Move S A V)) (v : Move S A V) :
    executions g (moves ++ [v]) = executions g moves ++ (v.execution? g).toList := by
  unfold executions
  rw [List.filterMap_append]
  cases h : v.execution? g <;> simp [h]

theorem Move.execution?_turn {v : Move S A V} {e : Execution} (h : v.execution? g = some e) :
    (∃ a s s' k, v.turn = some (a, some g, s, s') ∧ s.closes s' = some k) ∧ e.ended = v.before.now := by
  unfold Move.execution? at h
  split at h
  · next a i s s' hv =>
    split at h
    · next hi =>
      subst hi
      obtain ⟨k, hk, he⟩ := Option.bind_eq_some_iff.mp h
      obtain ⟨record, -, he⟩ := Option.bind_eq_some_iff.mp he
      obtain ⟨t, -, rfl⟩ := Option.map_eq_some_iff.mp he
      exact ⟨⟨a, s, s', k, hv, hk⟩, rfl⟩
    · cases h
  · cases h

theorem Move.no_execution {v : Move S A V} (hv : v.turn = some (a, own, s, s')) (hs : s.closes s' = none) :
    v.execution? g = none := by
  rw [Option.eq_none_iff_forall_ne_some]
  intro e he
  obtain ⟨⟨a₁, s₁, s₂, k, hv₁, hk⟩, -⟩ := Move.execution?_turn he
  cases hv.symm.trans hv₁
  cases hs.symm.trans hk

/-- A task that ends and is not aborted is noted. -/
theorem Scheduler.tables_finish (y : Scheduler S A V) (k : TaskId) (now : Instant) (h : outcome ≠ .aborted) :
    (y.finish k outcome now).2.metrics.tables = (y.metrics.recordAll (y.execution? k now).toList).tables := by
  unfold finish execution?
  cases y.records.get? k with
  | none => rfl
  | some record =>
    obtain ⟨view, startedAt⟩ := record
    cases startedAt <;> cases outcome <;> first | rfl | exact absurd rfl h

theorem Scheduler.tables_aborted (y : Scheduler S A V) (k : TaskId) (now : Instant) :
    (y.finish k .aborted now).2.metrics.tables = y.metrics.tables := by
  unfold finish
  cases y.records.get? k <;> rfl

theorem Scheduler.tables_strand (y : Scheduler S A V) (k : TaskId) (c : ContextId) (now : Instant) :
    (y.strand k c now).2.metrics.tables = (y.metrics.recordAll (y.execution? k now).toList).tables := by
  let z : Scheduler S A V := { y.release c with
    activeTask := if (y.release c).activeTask = some k then none else (y.release c).activeTask }
  have records : z.records = y.records := records_release
  have same : z.metrics = y.metrics := metrics_release
  have ended : (z.retire.finish k .failed now).2.metrics.tables =
      (z.retire.metrics.recordAll (z.retire.execution? k now).toList).tables :=
    tables_finish z.retire k now (by simp)
  have noted : z.retire.execution? k now = y.execution? k now := by simp [execution?, retire, records]
  rw [noted] at ended
  exact ended.trans (tables_recordAll (by simp [retire, Metrics.tables, same]) _)

/-- What a task is noted as that ends now. -/
theorem Machine.Ordered.tables_closes (ho : m.Ordered) (honest : m.Honest) (ha : m.act move = some m')
    (hx : m.cogs.get? g = some x) (hx' : m'.cogs.get? g = some x') (hl : m.look a = some (some g, s))
    (hl' : m'.look a = some (some g, s')) (hs : s.closes s' = some k) : x'.scheduler.metrics.tables =
      (x.scheduler.metrics.recordAll (x.scheduler.execution? k m.now).toList).tables := by
  have goes : s' ≠ s := by
    rintro rfl
    cases s' <;> cases hs
  rcases ho.kept_or_steps ha hl with same | rfl
  · cases same.symm.trans hl'
    exact absurd rfl goes
  have h : m.step a = some m' := ha
  obtain ⟨t, ht, hg, rfl⟩ := look_eq_some m _ hl
  have took := step_of ht h
  rw [hg] at took
  generalize t.control = control at hl hs goes took
  cases took with
  | @completes i y j outcome hi hy =>
    cases hi
    cases hx.symm.trans hy
    obtain rfl : j = k := by
      cases s' <;> cases hs
      rfl
    simp only [cogs_announceEnd, cogs_broadcast, onScheduler] at hx'
    rw [cog_onCog_self _ _ _ hx] at hx'
    cases hx'
    exact Scheduler.tables_finish { x.scheduler with activeTask := none } j m.now
      fun aborted => honest _ _ j (aborted ▸ hl)
  | @strands c i y j _ hi hy =>
    cases hi
    cases hx.symm.trans hy
    obtain rfl : j = k := by
      cases s' <;> cases hs
      rfl
    simp only [cogs_announceEnd, report, cogs_broadcast] at hx'
    rw [cog_onCog_self _ _ _ hx] at hx'
    cases hx'
    exact tables_strand (x.scheduler.removeWaiter c) j c m.now
  | @fades c i y j _ hi hy _ finished =>
    cases hi
    cases hx.symm.trans hy
    obtain rfl : j = k := by
      cases s' <;> cases hs
      rfl
    simp only [cogs_setControl, onScheduler] at hx'
    rw [cog_onCog_self _ _ _ hx] at hx'
    cases hx'
    have absent : x.scheduler.records.get? j = none := by simpa [Table.has, removeWaiter] using finished
    have gone : x.scheduler.execution? j m.now = none := by rw [execution?, absent, Option.bind_none]
    rw [gone]
    rfl
  | tells =>
    -- Who tells a notice first does not go on in the same step.
    rw [look_setControl, if_pos rfl, look_deliver, hl] at hl'
    exact absurd (congrArg Prod.snd (Option.some.inj hl')).symm goes
  | @starts stage e => cases e <;> cases hs
  | @awaits aw phase => cases phase <;> cases hs
  | _ => cases hs

/-- Any deed enters in the tables what has ended with it, and nothing else. -/
theorem Deed.tables {loud : Bool} (h : Deed g a own loud s x s' x') (ho : m.Ordered) (honest : m.Honest)
    (ha : m.act move = some m') (hact : move.actor? = some a) (ht : Turns m a own s s' m')
    (hw : Works m g x x' m') : x'.scheduler.metrics.tables =
      (x.scheduler.metrics.recordAll ((⟨m, move, m'⟩ : Move S A V).execution? g).toList).tables := by
  have turn := ht.turn hact
  have closed {k : TaskId} (hown : own = some g) (hs : s.closes s' = some k) : x'.scheduler.metrics.tables =
      (x.scheduler.metrics.recordAll ((⟨m, move, m'⟩ : Move S A V).execution? g).toList).tables := by
    subst hown
    have noted : (⟨m, move, m'⟩ : Move S A V).execution? g = x.scheduler.execution? k m.now := by
      simp [Move.execution?, turn, hs, books_eq hw.before]
    rw [noted]
    exact ho.tables_closes honest ha hw.before hw.here ht.before ht.after hs
  have silent (hs : s.closes s' = none) (same : x'.scheduler.metrics.tables = x.scheduler.metrics.tables) :
      x'.scheduler.metrics.tables =
        (x.scheduler.metrics.recordAll ((⟨m, move, m'⟩ : Move S A V).execution? g).toList).tables := by
    rw [Move.no_execution turn hs]
    exact same
  cases h with
  | complete now => exact closed rfl rfl
  | strand now => exact closed rfl rfl
  | fade => exact closed rfl rfl
  | abort now hst =>
    refine silent (by rcases hst with rfl | ⟨rfl, -⟩ <;> rfl) ?_
    exact tables_aborted (x.scheduler.removeWaiter _).retire _ now
  | _ =>
    refine silent rfl ?_
    simp [Metrics.tables, Scheduler.enqueue, Scheduler.withdraw, Scheduler.retire, Scheduler.suspend,
      Scheduler.markSuspended, Scheduler.resume, Scheduler.markRunning, Scheduler.addWaiter,
      Scheduler.removeWaiter, Scheduler.markReady]

/-- Nothing ends beside the cog, or as a context gets its thread. -/
theorem Beside.no_execution {v : Move S A V} (h : ∀ b, Beside g (v.before.look b) (v.after.look b)) :
    v.execution? g = none := by
  rw [Option.eq_none_iff_forall_ne_some]
  intro e he
  obtain ⟨⟨a, s, s', k, hv, hk⟩, -⟩ := Move.execution?_turn he
  have seat := (Beside.alike h hv).seat rfl
  cases s <;> cases s' <;> cases hk <;> cases seat

theorem Grant.no_execution {d : ContextId} {cog : Option CogId} {first : Stance} (hact : move.actor? = some a)
    (hb : Births m a own s s' d cog first m') (h : Grant g d a own s x s' x') :
    (⟨m, move, m'⟩ : Move S A V).execution? g = none :=
  Move.no_execution (hb.turn hact) (by cases h <;> rfl)

/-- In every run, the tables of a cog are what its executions come to. -/
theorem History.tables (h : History (.empty r memory) moves m) (hx : m.cogs.get? g = some x) :
    x.scheduler.metrics.tables = (({} : Metrics).recordAll (executions g moves)).tables := by
  rw [← books_eq hx]
  refine h.books (P := fun moves y => y.metrics.tables = (({} : Metrics).recordAll (executions g moves)).tables)
    rfl ?_ ?_ ?_
  · intro moves v _ _ hb same
    rw [executions_snoc, Beside.no_execution hb, Option.toList_none, List.append_nil]
    exact same
  · intro moves m m' move a own loud s s' x x' h ha hact ht hw hd before
    rw [executions_snoc, recordAll_append,
      hd.tables h.reachable.ordered (Honest.reachable h.reachable) ha hact ht hw]
    exact tables_recordAll before _
  · intro moves m m' move a own c s s' x x' _ _ hact hb _ hg before
    rw [executions_snoc, hg.no_execution hact hb, Option.toList_none, List.append_nil]
    cases hg <;> exact before

/-- In every run, a cog notes its executions as they end. -/
theorem History.chronological (h : History (.empty r memory) moves m) :
    Chronological (executions g moves) ∧ ∀ e ∈ executions g moves, e.ended ≤ m.now := by
  induction h with
  | refl => exact ⟨.nil, by simp [executions]⟩
  | @act moves m m' move h ha ih =>
    have later : m.now ≤ m'.now := (aside_act h.reachable.ordered ha).now
    have ended {e : Execution} (he : e ∈ ((⟨m, move, m'⟩ : Move S A V).execution? g).toList) : e.ended = m.now :=
      (Move.execution?_turn (Option.mem_toList.mp he)).2
    rw [executions_snoc]
    refine ⟨List.pairwise_append.mpr ⟨ih.1, ?_, fun d hd e he => ?_⟩, fun e he => ?_⟩
    · cases (⟨m, move, m'⟩ : Move S A V).execution? g <;> simp
    · rw [ended he]
      exact ih.2 d hd
    · rcases List.mem_append.mp he with earlier | new
      · exact Int.le_trans (ih.2 e earlier) later
      · rw [ended new]
        exact later

/-- In every run, what a cog keeps under a name comes of its executions under that name, of those
tasks that have ended and were not aborted, as they have ended. -/
theorem History.noted (h : History (.empty r memory) moves m) (hx : m.cogs.get? g = some x) :
    x.scheduler.metrics.Separate (executions g moves) ∧ Chronological (executions g moves) ∧
      (executions g moves).length = x.scheduler.metrics.completed + x.scheduler.metrics.failed := by
  have tables := h.tables hx
  refine ⟨(separate_recordAll _).of_tables tables, h.chronological.1, ?_⟩
  have executed : x.scheduler.metrics.executions = (({} : Metrics).recordAll (executions g moves)).executions :=
    congrArg (fun t => t.1.total) tables
  rw [executions_recordAll] at executed
  have counted : x.scheduler.metrics.executions = x.scheduler.metrics.completed + x.scheduler.metrics.failed :=
    (h.accounted hx).executed
  exact (Nat.zero_add _).symm.trans (executed.symm.trans counted)

end ObjectGroups
