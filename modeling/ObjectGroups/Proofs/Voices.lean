/-
What threads have to tell, and of what.

A thread changes the books of a task under the lock and tells the listeners
without it. `Utters` puts the two together: it has one case for each step that
concerns a task, with what the step does to the books and with the notice that
the thread is about to tell afterwards. In all other steps a thread says
nothing, and the books of all cogs stay as they are.
-/
import ObjectGroups.Proofs.Attendance

namespace ObjectGroups

variable {S A V : Type} {m m' m₁ : Machine S A V} {a b : Agent} {g : CogId} {c : ContextId}
  {x x' : Cog S A V} {t : Thread S A V} {k : Control S A V} {aw : Awaiting S A V}
  {r : Registry} {memory : A}

open Machine Scheduler

/-! ## Notices to be told -/

/-- The notice that the thread is about to tell, and the cog that it is about. -/
def Control.notice? : Control S A V → Option (CogId × Notice)
  | .notify g n _ => some (g, n)
  | _ => none

@[simp] theorem Control.notice?_rouse (k : Control S A V) : k.rouse.notice? = k.notice? := by
  cases k with
  | awaiting aw p => cases p <;> rfl
  | _ => rfl

theorem Control.New.notice? (h : k.New) : k.notice? = none := by
  rcases h with rfl | ⟨body, rfl⟩ <;> rfl

namespace Machine

/-- The notice that the thread `a` is about to tell. -/
def notice? (m : Machine S A V) (a : Agent) : Option (CogId × Notice) :=
  (m.threads.get? a).bind (·.control.notice?)

theorem notice?_eq (ht : m.threads.get? a = some t) : m.notice? a = t.control.notice? := by
  simp [notice?, ht]

theorem Stirred.notice? (h : m.Stirred m' b) : m'.notice? b = m.notice? b := by
  obtain ⟨p, hp⟩ := h
  unfold Machine.notice?
  rw [hp]
  cases m.threads.get? b with
  | none => rfl
  | some t => cases p <;> simp

end Machine

/-- Only who acts has something else to tell. -/
theorem Shift.notice? {actor : Option Agent} (ho : m.Ordered) (h : Shift m m' actor) (other : actor ≠ some b) :
    m'.notice? b = m.notice? b := by
  by_cases there : (m.look b).isSome
  · exact (h.other ho there other).notice?
  · have absent : m.notice? b = none := by
      cases ht : m.threads.get? b with
      | none => simp [Machine.notice?, ht]
      | some t => exact absurd (by simp [look_eq m b ht]) there
    rcases h.apart other with stirred | new
    · exact stirred.notice?
    · rw [absent]
      cases ht : m'.threads.get? b with
      | none => simp [Machine.notice?, ht]
      | some t => rw [notice?_eq ht, (new t ht).notice?]

/-! ## Steps -/

/-- The task in whose place the thread starts a context. -/
def Stance.hands? : Stance → Option TaskId
  | .hand _ k => some k
  | _ => none

/-- The task for which the thread starts a context, and its cog. -/
def Stance.submits? : Stance → Option (CogId × TaskId)
  | .submit _ _ g view => some (g, view.id)
  | _ => none

/-- Nothing is told here, and no start of a context for a task is begun or ended. -/
structure Control.Idles (k k' : Control S A V) : Prop where
  before : k.notice? = none
  after : k'.notice? = none
  hands : k'.stance.hands? = k.stance.hands?
  submits : k'.stance.submits? = k.stance.submits?
  letter : k.stance.letter? = none

/-- The books of all cogs say of tasks what they said. -/
def Machine.SameBooks (m m' : Machine S A V) : Prop := ∀ g, (m.books g).SameTasks (m'.books g)

/-- The books of the cog `g` change as `R` says, and no others. -/
structure Machine.Changes (m : Machine S A V) (g : CogId) (m' : Machine S A V)
    (R : Scheduler S A V → Scheduler S A V → Prop) : Prop where
  here : R (m.books g) (m'.books g)
  elsewhere : ∀ h, h ≠ g → (m.books h).SameTasks (m'.books h)

/-- What a step of the thread `a`, which works for `own`, comes to: what the thread was about to
do and is about to do then, and what has become of the books. -/
inductive Utters (m : Machine S A V) (a : Agent) (own : Option CogId) (m' : Machine S A V) :
    Control S A V → Control S A V → Prop where
  | tells (g : CogId) (n : Notice) (k : Control S A V) : m.SameBooks m' →
      Utters m a own m' (.notify g n k) k
  | still {k k' : Control S A V} : m.SameBooks m' → k.Idles k' → Utters m a own m' k k'
  | claims {g : CogId} {c : ContextId} {i : TaskId} {body : Body S A V} : a = .context c →
      own = some g → i ∈ (m.books g).queued →
      m.Changes g m' (fun y y' => y.Moves y' i .running (running c m.now)) →
      Utters m a own m' .claim (.run (some ⟨i, true⟩) body)
  /-- A context is about to be started for the task. -/
  | submits {seat : Option Seat} {g : CogId} {view : TaskView} {task : Body S A V}
      {next : Exit RuntimeError TaskId → Body S A V} :
      m.Changes g m' (fun y y' => y.Enters y' view) →
      Utters m a own m' (.enrol seat g view task next) (.starting .check (.submission seat g view next))
  | enters {seat : Option Seat} {g : CogId} {view : TaskView} {task : Body S A V}
      {next : Exit RuntimeError TaskId → Body S A V} :
      m.Changes g m' (fun y y' => y.Enters y' view) →
      Utters m a own m' (.enrol seat g view task next)
        (.notify g { kind := .added, task := view } (.run seat (next (.ok view.id))))
  | starts {c : ContextId} {seat : Option Seat} {g : CogId} {view : TaskView}
      {next : Exit RuntimeError TaskId → Body S A V} : m.SameBooks m' → (m'.look (.context c)).isSome →
      Utters m a own m' (.starting (.launch c) (.submission seat g view next))
        (.notify g { kind := .added, task := view } (.run seat (next (.ok view.id))))
  | withdraws {stage : Stage} {seat : Option Seat} {g : CogId} {view : TaskView}
      {next : Exit RuntimeError TaskId → Body S A V} {e : RuntimeError} :
      m.Changes g m' (fun y y' => y.Withdraws y' view.id) →
      (∀ c, stage = .launch c → m'.look (.context c) = none) →
      Utters m a own m' (.starting stage (.submission seat g view next)) (.run seat (next (.error e)))
  /-- The task stays in the queue, and nobody is told. -/
  | forsakes {c : ContextId} {seat : Option Seat} {g : CogId} {view : TaskView}
      {next : Exit RuntimeError TaskId → Body S A V} {p : Payload} : m.SameBooks m' →
      m'.look (.context c) = none →
      Utters m a own m' (.starting (.launch c) (.submission seat g view next)) (.run seat (next (.panic p)))
  | hands {g : CogId} {aw : Awaiting S A V} : own = some g →
      m.Changes g m' (fun y y' => y.Moves y' aw.task .suspended (awaiting aw.label)) →
      Utters m a own m' (.awaiting aw .release) (.starting .check (.handover aw))
  | suspends {g : CogId} {aw : Awaiting S A V} {record : TaskRecord} : own = some g →
      (m.books g).records.get? aw.task = some record →
      m.Changes g m' (fun y y' => y.Moves y' aw.task .suspended (awaiting aw.label)) →
      Utters m a own m' (.awaiting aw .release)
        (.notify g { kind := .suspended aw.label, task := (awaiting aw.label record).view }
          (.awaiting aw (.wait (.start aw.guard))))
  | handed {g : CogId} {stage : Stage} {aw : Awaiting S A V} {record : TaskRecord} : own = some g →
      (m.books g).records.get? aw.task = some record → m.SameBooks m' →
      Utters m a own m' (.starting stage (.handover aw))
        (.notify g { kind := .suspended aw.label, task := record.view }
          (.awaiting aw (.wait (.start aw.guard))))
  | readies {g : CogId} {aw : Awaiting S A V} {record : TaskRecord} : own = some g →
      (m.books g).records.get? aw.task = some record →
      m.Changes g m' (fun y y' => y'.records = y.records.modify aw.task prepared ∧
        y'.handles = y.handles ∧ y'.queued = y.queued) →
      Utters m a own m' (.awaiting aw .ready)
        (.notify g { kind := .ready, task := (prepared record).view } (.awaiting aw (.reenter none)))
  | resumes {g : CogId} {c : ContextId} {aw : Awaiting S A V} {failure : Option GuardError}
      {record : TaskRecord} {result : Exit TaskError Unit} : a = .context c → own = some g →
      (m.books g).records.get? aw.task = some record →
      m.Changes g m' (fun y y' => y.Moves y' aw.task .running (running c m.now)) →
      Utters m a own m' (.awaiting aw (.contend failure))
        (.notify g { kind := .resumed aw.label, task := (running c m.now record).view }
          (.run (some ⟨aw.task, true⟩) (aw.next result)))
  | aborts {g : CogId} {aw : Awaiting S A V} {phase : Phase S} {record : TaskRecord} : own = some g →
      phase = .abort ∨ (∃ failure, phase = .contend failure) →
      (m.books g).records.get? aw.task = some record →
      m.Changes g m' (fun y y' => y.Ends y' aw.task .aborted) →
      Utters m a own m' (.awaiting aw phase)
        (.notify g { kind := .finished .aborted, task := lastView record.view }
          (.run (some ⟨aw.task, false⟩) (aw.next (.error .interrupted))))
  | completes {g : CogId} {i : TaskId} {outcome : TaskOutcome} {record : TaskRecord} : own = some g →
      (m.books g).records.get? i = some record →
      m.Changes g m' (fun y y' => y.Ends y' i outcome) →
      Utters m a own m' (.complete i outcome)
        (.notify g { kind := .finished outcome, task := lastView record.view } .claim)
  | strands {g : CogId} {i : TaskId} {record : TaskRecord} : own = some g →
      (m.books g).records.get? i = some record →
      m.Changes g m' (fun y y' => y.Ends y' i .failed) →
      Utters m a own m' (.strand i)
        (.notify g { kind := .finished .failed, task := lastView record.view } .leave)

/-! ## Books -/

namespace Scheduler.SameTasks

variable {y y' y'' : Scheduler S A V}

theorem refl (y : Scheduler S A V) : y.SameTasks y := ⟨rfl, rfl, rfl⟩

theorem trans (h : y.SameTasks y') (h' : y'.SameTasks y'') : y.SameTasks y'' :=
  ⟨h'.records.trans h.records, h'.handles.trans h.handles, h'.queued.trans h.queued⟩

end Scheduler.SameTasks

namespace Machine

theorem sameBooks_of_cogs (h : m'.cogs = m.cogs) : m.SameBooks m' := by
  intro g
  have same : m'.books g = m.books g := by rw [books, books, h]
  rw [same]
  exact .refl _

/-- Tasks are not concerned by what happens to the rest of a cog. -/
theorem SameBooks.onCog {f : Cog S A V → Cog S A V} (h : m.SameBooks m₁)
    (hf : ∀ x : Cog S A V, x.scheduler.SameTasks (f x).scheduler) : m.SameBooks (m₁.onCog g f) := by
  intro i
  refine (h i).trans ?_
  rw [books, books, cog_onCog]
  split
  · cases m₁.cogs.get? i with
    | none => exact .refl {}
    | some x => exact hf x
  · exact .refl _

theorem sameBooks_of_works (hw : Works m g x x' m') (h : x.scheduler.SameTasks x'.scheduler) :
    m.SameBooks m' := by
  intro i
  by_cases hi : i = g
  · subst hi
    rw [books_eq hw.before, books_eq hw.here]
    exact h
  · have same : m'.books i = m.books i := by rw [books, books, hw.after, if_neg hi]
    rw [same]
    exact .refl _

theorem changes_of_works {R : Scheduler S A V → Scheduler S A V → Prop} (hw : Works m g x x' m')
    (h : R x.scheduler x'.scheduler) : m.Changes g m' R where
  here := by
    rw [books_eq hw.before, books_eq hw.here]
    exact h
  elsewhere i hi := by
    have same : m'.books i = m.books i := by rw [books, books, hw.after, if_neg hi]
    rw [same]
    exact .refl _

theorem Changes.at {R : Scheduler S A V → Scheduler S A V → Prop} (h : m.Changes g m' R) (i : CogId) :
    R (m.books i) (m'.books i) ∨ (m.books i).SameTasks (m'.books i) := by
  by_cases hi : i = g
  · subst hi
    exact .inl h.here
  · exact .inr (h.elsewhere i hi)

theorem Changes.imp {R R' : Scheduler S A V → Scheduler S A V → Prop} (h : m.Changes g m' R)
    (hR : R (m.books g) (m'.books g) → R' (m.books g) (m'.books g)) : m.Changes g m' R' :=
  ⟨hR h.here, h.elsewhere⟩

theorem Changes.same {R : Scheduler S A V → Scheduler S A V → Prop} (h : m.Changes g m₁ R)
    (hs : m₁.SameBooks m') (hR : ∀ {y y' y''}, R y y' → y'.SameTasks y'' → R y y'') : m.Changes g m' R where
  here := hR h.here (hs g)
  elsewhere i hi := (h.elsewhere i hi).trans (hs i)

end Machine

section
variable {y y' y'' : Scheduler S A V} {i : TaskId} {record : TaskRecord}

theorem Scheduler.Moves.same {st : TaskState} {f : TaskRecord → TaskRecord} (h : y.Moves y' i st f)
    (h' : y'.SameTasks y'') : y.Moves y'' i st f :=
  ⟨h.present, h'.records.trans h.records, h'.handles.trans h.handles⟩

theorem Scheduler.Moves.viewOf {st : TaskState} {f : TaskRecord → TaskRecord} (h : y.Moves y' i st f)
    (hr : y.records.get? i = some record) : y'.viewOf i = some (f record).view := by
  simp [Scheduler.viewOf, h.records, Table.get?_modify, hr]

theorem Scheduler.Moves.lookup {st : TaskState} {f : TaskRecord → TaskRecord} (h : y.Moves y' i st f)
    (hr : y'.records.get? i = some record) : ∃ old, y.records.get? i = some old ∧ record = f old := by
  rw [h.records, Table.get?_modify, if_pos rfl] at hr
  obtain ⟨old, hold, rfl⟩ := Option.map_eq_some_iff.mp hr
  exact ⟨old, hold, rfl⟩

theorem Scheduler.Ends.lookup {outcome : TaskOutcome} (h : y.Ends y' i outcome) : y'.records.get? i = none := by
  rw [h.records, Table.get?_remove, if_pos rfl]

theorem Scheduler.Enters.lookup {view : TaskView} (h : y.Enters y' view) (hi : i ≠ view.id) :
    y'.records.get? i = y.records.get? i := by
  rw [h.records, Table.get?_put, if_neg hi]

theorem Scheduler.Withdraws.lookup {j : TaskId} (h : y.Withdraws y' j) (hi : i ≠ j) :
    y'.records.get? i = y.records.get? i := by
  rw [h.records, Table.get?_remove, if_neg hi]

theorem Scheduler.view_finish (hr : y.records.get? i = some record) (outcome : TaskOutcome) (now : Instant) :
    (y.finish i outcome now).1 = some (lastView record.view) := by
  simp [finish, hr]

theorem Scheduler.view_strand (hr : y.records.get? i = some record) (c : ContextId) (now : Instant) :
    (y.strand i c now).1 = some (lastView record.view) := by
  have there : ({ y.release c with
      activeTask := if (y.release c).activeTask = some i then none else (y.release c).activeTask } :
        Scheduler S A V).retire.records.get? i = some record := (congrArg (·.get? i) records_release).trans hr
  exact view_finish there ..

end

/-! ## One function at a time -/

attribute [local simp] cog_onCog onScheduler setLock

/-- What the thread `a` says in a step from `k`, if it is not its last. -/
def Says (m : Machine S A V) (a : Agent) (t : Thread S A V) (k : Control S A V) (m' : Machine S A V) : Prop :=
  (m'.threads.get? a = none ∧ k.notice? = none ∧ m.SameBooks m') ∨
    ∃ k', m'.threads.get? a = some { t with control := k' } ∧ Utters m a t.cog m' k k'

section
variable (ht : m.threads.get? a = some t)
include ht

theorem Says.set {k' : Control S A V} (hm : m.Stirred m₁ a) (h : Utters m a t.cog (m₁.setControl a k') k k') :
    Says m a t k (m₁.setControl a k') := .inr ⟨k', thread_set k' ht hm, h⟩

/-- The thread goes on in silence, and the books stay as they are. -/
theorem Says.go {k' : Control S A V} (hm : m.Stirred m₁ a) (hb : m.SameBooks m₁) (hk : k.Idles k') :
    Says m a t k (m₁.setControl a k') := .set ht hm (.still hb hk)

theorem says_body {own : Option CogId} {seat : Option Seat} {body : Body S A V}
    (hs : m.BodyStep a own seat body m') : Says m a t (.run seat body) m' := by
  have go {m₁ : Machine S A V} {k' : Control S A V} (hth : m₁.threads = m.threads) (hc : m.SameBooks m₁)
      (hk : (Control.run seat body).Idles k') : Says m a t (.run seat body) (m₁.setControl a k') :=
    .go ht (.same hth) hc hk
  cases hs with
  | quits => exact .inl ⟨by simp, rfl, sameBooks_of_cogs rfl⟩
  | completes | fails | accesses =>
    exact go rfl (.onCog (sameBooks_of_cogs rfl) fun x => .refl _) ⟨rfl, rfl, rfl, rfl, rfl⟩
  | _ => exact go rfl (sameBooks_of_cogs rfl) ⟨rfl, rfl, rfl, rfl, rfl⟩

theorem says_signal {seat : Option Seat} {next : Body S A V} {signals : List Signal}
    (hs : m.SignalStep a seat next signals m') : Says m a t (.signal seat signals next) m' := by
  have go {m₁ : Machine S A V} {k' : Control S A V} (hm : m.Stirred m₁ a) (hc : m₁.cogs = m.cogs)
      (hk : (Control.signal seat signals next).Idles k') :
      Says m a t (.signal seat signals next) (m₁.setControl a k') := .go ht hm (sameBooks_of_cogs hc) hk
  cases hs with
  | interrupts => exact go (.interruptParker (.same rfl)) rfl ⟨rfl, rfl, rfl, rfl, rfl⟩
  | unparks => exact go (.unpark (.same rfl)) rfl ⟨rfl, rfl, rfl, rfl, rfl⟩
  | rings => exact go (.notifyAll (.same rfl)) rfl ⟨rfl, rfl, rfl, rfl, rfl⟩
  | through | counts | misses => exact go (.same rfl) rfl ⟨rfl, rfl, rfl, rfl, rfl⟩

/-- A context in its run loop takes a task or retires. -/
theorem says_claim (h : Reachable (.empty r memory) m) (hs : m.Step a t.cog .claim m') :
    Says m a t .claim m' := by
  cases hs with
  | @takes c g x i body rest ha hg hx _ _ _ hq =>
    have waits : i ∈ x.scheduler.queued := by simp [Scheduler.queued, hq]
    have taken : ({ x.scheduler with queue := rest, activeTask := some i } : Scheduler S A V).Moves
        (({ x.scheduler with queue := rest, activeTask := some i } : Scheduler S A V).markRunning i c m.now)
        i .running (running c m.now) := moves_markRunning ((h.filed hx).queued i waits)
    have works : Works m g x { x with scheduler :=
          ({ x.scheduler with queue := rest, activeTask := some i } : Scheduler S A V).markRunning i c m.now }
        (m.onScheduler g fun _ =>
          ({ x.scheduler with queue := rest, activeTask := some i } : Scheduler S A V).markRunning i c m.now) :=
      .intro hx (by simp [hx]) fun h e => by simp [e]
    refine .set ht (.same rfl) (.claims ha hg ?_ (changes_of_works (works.of_cogs rfl) (taken.of_eq rfl rfl)))
    rwa [books_eq hx]
  | @retires c g x ha hg hx =>
    have works : Works m g x { x with scheduler := (x.scheduler.release c).retire }
        ((m.onScheduler g fun _ => (x.scheduler.release c).retire).broadcast g) :=
      .intro hx (by simp [hx]) fun h e => by simp [e]
    exact .go ht (.broadcast (.same rfl)) (sameBooks_of_works works
      ⟨records_release, handles_release, by simp [Scheduler.queued, Scheduler.retire]⟩) ⟨rfl, rfl, rfl, rfl, rfl⟩

theorem says_enrol (h : Reachable (.empty r memory) m) {seat : Option Seat} {view : TaskView} {task : Body S A V}
    {next : Exit RuntimeError TaskId → Body S A V} (hk : t.control = .enrol seat g view task next)
    (hs : m.Step a t.cog (.enrol seat g view task next) m') : Says m a t (.enrol seat g view task next) m' := by
  obtain ⟨blank, plain⟩ := h.blank a t.cog seat g view (by rw [look_eq m a ht, hk]; rfl)
  have enters (x : Cog S A V) : x.scheduler.Enters (x.scheduler.enqueue view task) view :=
    ⟨blank.1, plain, rfl, rfl, by simp [Scheduler.queued, Scheduler.enqueue]⟩
  cases hs with
  | @enlists _ _ _ _ _ x hx =>
    have works : Works m g x { x with scheduler := x.scheduler.enqueue view task, lock := some a }
        ((m.onScheduler g (·.enqueue view task)).setLock g (some a)) :=
      .intro hx (by simp [hx]) fun h e => by simp [e]
    exact .set ht (.same rfl) (.submits (changes_of_works (works.of_cogs rfl) (enters x)))
  | @joins _ _ _ _ _ x hx =>
    have works : Works m g x { x with scheduler := x.scheduler.enqueue view task }
        ((m.onScheduler g (·.enqueue view task)).broadcast g) :=
      .intro hx (by simp [hx]) fun h e => by simp [e]
    exact .set ht (.broadcast (.same rfl)) (.enters (changes_of_works (works.of_cogs rfl) (enters x)))

/-! ### Starting a context -/

/-- The suspended task is through with its first phase, in which `m₁` has been reached. -/
theorem says_handedOver {aw : Awaiting S A V} {record : TaskRecord} {k : Control S A V}
    (hx : m₁.cogs.get? g = some x) (hr : x.scheduler.records.get? aw.task = some record)
    (hm : m.Stirred m₁ a)
    (hu : ∀ m', m₁.SameBooks m' → Utters m a t.cog m' k
      (.notify g { kind := .suspended aw.label, task := record.view } (.awaiting aw (.wait (.start aw.guard))))) :
    Says m a t k (m₁.handedOver a c g aw) := by
  have works : Works m₁ g x { x with scheduler := x.scheduler.addWaiter c, lock := none }
      (((m₁.broadcast g).onScheduler g (·.addWaiter c)).setLock g none) :=
    .intro hx (by simp [hx]) fun h e => by simp [e]
  have view : ((((m₁.broadcast g).onScheduler g (·.addWaiter c)).setLock g none).cogs.get? g).bind
      (fun y => y.scheduler.viewOf aw.task) = some record.view := by
    rw [works.here]
    exact congrArg (Option.map (·.view)) hr
  unfold handedOver
  dsimp only
  rw [view]
  have stirred : m.Stirred (m₁.broadcast g) a := .broadcast hm
  exact .set ht (stirred.trans (.same rfl)) (hu _ (sameBooks_of_works (works.of_cogs rfl) ⟨rfl, rfl, rfl⟩))

/-- A context has been started in place of the task, or not, and the thread goes on without the lock. -/
theorem says_started (h : Reachable (.empty r memory) m) {stage : Stage} {aw : Awaiting S A V}
    (hg : t.cog = some g) (hk : t.control = .starting stage (.handover aw))
    (works : Works m g x x' m₁) (hs : x.scheduler.SameTasks x'.scheduler) (hm : m.Stirred m₁ a) :
    Says m a t (.starting stage (.handover aw)) (m₁.handedOver a c g aw) := by
  have hl : m.look a = some (some g, .hand stage aw.task) := by
    rw [look_eq m a ht, hg, hk]
    rfl
  obtain ⟨record, hr⟩ := Option.isSome_iff_exists.mp ((h.filed works.before).charged h.ordered hl rfl rfl)
  refine says_handedOver ht works.here (hs.records ▸ hr) hm fun m' same => .handed hg ?_ fun i => ?_
  · rwa [books_eq works.before]
  · exact (sameBooks_of_works works hs i).trans (same i)

section
variable (h : Reachable (.empty r memory) m) {errand : Errand S A V}
include h

/-- Who starts a context in place of its task is at home in a cog. -/
theorem home_of_handover {stage : Stage} {aw : Awaiting S A V} (hk : t.control = .starting stage (.handover aw)) :
    ∃ g c x, t.cog = some g ∧ a = .context c ∧ m.cogs.get? g = some x ∧
      m.look (.context c) = some (some g, .hand stage aw.task) := by
  have hl : m.look a = some (t.cog, .hand stage aw.task) := look_starting m a ht hk
  obtain ⟨g, c, x, hg, rfl, hx⟩ := h.ordered.home_of_hosts hl rfl
  exact ⟨g, c, x, hg, rfl, hx, hg ▸ hl⟩

/-- The context that is about to be started has no thread yet. -/
theorem absent_of_launch {c : ContextId} (hk : t.control = .starting (.launch c) errand)
    (hm : m.Stirred m₁ (.context c)) (k : Control S A V) :
    a ≠ .context c ∧ (m₁.setControl a k).look (.context c) = none := by
  have hl : m.look a = some (t.cog, errand.stance (.launch c)) := look_starting m a ht hk
  obtain ⟨-, fresh, -⟩ := h.ordered.newcomer (c := c) hl (by simp [Stance.newcomer?])
  have apart : a ≠ .context c := by
    rintro rfl
    cases hl.symm.trans fresh
  refine ⟨apart, ?_⟩
  rw [look_setControl, if_neg apart.symm, hm.look]
  exact fresh

theorem says_startFailed {stage : Stage} (e : RuntimeError) (hk : t.control = .starting stage errand)
    (hm : ∀ b, m.Stirred m₁ b) (hc : m₁.cogs = m.cogs) :
    Says m a t (.starting stage errand) (m₁.startFailed a t.cog e errand) := by
  cases errand with
  | submission seat g view next =>
    obtain ⟨x, hx, -⟩ := h.ordered.locks (look_eq m a ht) (by rw [hk]; rfl)
    have works : Works m g x { x with scheduler := x.scheduler.withdraw view.id, lock := none }
        (((m₁.report (.notStarted (((m₁.cogs.get? g).map (·.name)).getD "") view.id e)).onScheduler g
          (·.withdraw view.id)).setLock g none) :=
      .intro hx (by simp [hx, hc, report]) fun h e => by simp [e, hc, report]
    refine .set ht ((hm a).trans (.same rfl)) (.withdraws (changes_of_works (works.of_cogs rfl)
      ⟨rfl, rfl, by simp [Scheduler.queued, Scheduler.withdraw]⟩) fun c hc => ?_)
    subst hc
    exact (absent_of_launch ht h hk ((hm _).trans (.same rfl)) _).2
  | handover aw =>
    obtain ⟨g, c, x, hg, rfl, hx, -⟩ := home_of_handover ht h hk
    have works : Works m g x x
        (m₁.report (.queueNotStarted (((m₁.cogs.get? g).map (·.name)).getD "") e)) :=
      .intro hx (by simp [hx, hc, report]) fun h e => by simp [hc, report]
    rw [hg]
    exact says_started ht h hg hk works (.refl _) ((hm _).trans (.same rfl))
  | direct seat label waker main next => exact .go ht (hm a) (sameBooks_of_cogs hc) ⟨rfl, rfl, rfl, rfl, rfl⟩

theorem says_startUnwound {c : ContextId} (p : Payload) (hk : t.control = .starting (.launch c) errand)
    (hn : Registry.nameable (((m.contexts.get? c).map (·.name)).getD "") = false) (hm : ∀ b, m.Stirred m₁ b)
    (hc : m₁.cogs = m.cogs) :
    Says m a t (.starting (.launch c) errand) (m₁.startUnwound a t.cog p errand) := by
  cases errand with
  | submission seat g view next =>
    obtain ⟨x, hx, -⟩ := h.ordered.locks (look_eq m a ht) (by rw [hk]; rfl)
    have works : Works m g x { x with lock := none } (m₁.setLock g none) :=
      .intro hx (by simp [hx, hc]) fun h e => by simp [e, hc]
    exact .set ht ((hm a).trans (.same rfl))
      (.forsakes (sameBooks_of_works (works.of_cogs rfl) (.refl _))
        (absent_of_launch ht h hk ((hm _).trans (.same rfl)) _).2)
  | handover aw =>
    obtain ⟨g, self, x, -, -, -, hl⟩ := home_of_handover ht h hk
    cases hn.symm.trans (h.housed.nameable h.ordered hl)
  | direct seat label waker main next => exact .go ht (hm a) (sameBooks_of_cogs hc) ⟨rfl, rfl, rfl, rfl, rfl⟩

theorem says_startSucceeded {c : ContextId} (hk : t.control = .starting (.launch c) errand)
    (hth : m₁.threads = m.threads.put (.context c) (m.newcomer t.cog errand).2.2) (hc : m₁.cogs = m.cogs) :
    Says m a t (.starting (.launch c) errand) (m₁.startSucceeded a t.cog c errand) := by
  obtain ⟨apart, -⟩ := absent_of_launch ht h hk (.same rfl) .leave
  have hm : m.Stirred m₁ a := ⟨false, by simp [hth, Table.get?_put, apart]⟩
  cases errand with
  | submission seat g view next =>
    obtain ⟨x, hx, -⟩ := h.ordered.locks (look_eq m a ht) (by rw [hk]; rfl)
    have works : Works m g x { x with scheduler := x.scheduler.grant c, lock := none }
        (((m₁.onScheduler g (·.grant c)).broadcast g).setLock g none) :=
      .intro hx (by simp [hx, hc]) fun h e => by simp [e, hc]
    have stirred : m.Stirred ((m₁.onScheduler g (·.grant c)).broadcast g) a := .broadcast (hm.trans (.same rfl))
    have told : m₁.Stirred (((m₁.onScheduler g (·.grant c)).broadcast g).setLock g none) (.context c) :=
      .trans (.broadcast (.same rfl) : m₁.Stirred ((m₁.onScheduler g (·.grant c)).broadcast g) _) (.same rfl)
    refine .set ht (stirred.trans (.same rfl))
      (.starts (sameBooks_of_works (works.of_cogs rfl) ⟨rfl, rfl, rfl⟩) ?_)
    rw [look_setControl, if_neg apart.symm, told.look, look, hth, Table.get?_put_self]
    rfl
  | handover aw =>
    obtain ⟨g, self, x, hg, rfl, hx, -⟩ := home_of_handover ht h hk
    have works : Works m g x { x with scheduler := x.scheduler.grant c } (m₁.onScheduler g (·.grant c)) :=
      .intro hx (by simp [hx, hc]) fun h e => by simp [e, hc]
    rw [hg]
    exact says_started ht h hg hk works ⟨rfl, rfl, rfl⟩ (hm.trans (.same rfl))
  | direct seat label waker main next => exact .go ht hm (sameBooks_of_cogs hc) ⟨rfl, rfl, rfl, rfl, rfl⟩

theorem says_start {stage : Stage} (hk : t.control = .starting stage errand)
    (hs : m.StartStep a t.cog errand stage m') : Says m a t (.starting stage errand) m' := by
  cases hs with
  | closed => exact says_startFailed ht h _ hk (fun b => .same rfl) rfl
  | numbers | enters =>
    exact .go ht (.same rfl) (sameBooks_of_cogs rfl) (by cases errand <;> exact ⟨rfl, rfl, rfl, rfl, rfl⟩)
  | panics unnameable => exact says_startUnwound ht h _ hk unnameable (fun b => .strike (.same rfl)) (by simp)
  | refused => exact says_startFailed ht h _ hk (fun b => .strike (.same rfl)) (by simp)
  | granted => exact says_startSucceeded ht h hk rfl rfl

end

/-! ### Awaiting -/

section
variable (h : Reachable (.empty r memory) m) (hg : t.cog = some g) (hx : m.cogs.get? g = some x)
  {aw : Awaiting S A V}
include h hg hx

theorem says_release (hk : t.control = .awaiting aw .release) (ha : a = .context c)
    (hs : m.AwaitStep c g x aw .release m') : Says m a t (.awaiting aw .release) m' := by
  subst ha
  have hl : m.look (.context c) = some (some g, .release aw.task) := by
    rw [look_eq m _ ht, hg, hk]
    rfl
  obtain ⟨record, hr⟩ := Option.isSome_iff_exists.mp ((h.filed hx).charged h.ordered hl rfl rfl)
  have moves : x.scheduler.Moves (x.scheduler.suspend aw.task c aw.label) aw.task .suspended (awaiting aw.label) :=
    moves_suspend (by simp [hr])
  cases hs with
  | handsOver =>
    have works : Works m g x { x with scheduler := x.scheduler.suspend aw.task c aw.label }
        (m.onScheduler g (·.suspend aw.task c aw.label)) := .intro hx (by simp [hx]) fun h e => by simp [e]
    have there := works.here
    have changes : m.Changes g (m.onScheduler g (·.suspend aw.task c aw.label)) fun y y' =>
        y.Moves y' aw.task .suspended (awaiting aw.label) := changes_of_works works moves
    refine says_handedOver ht there (?_ : _ = some (awaiting aw.label record)) (.same rfl) fun m' same =>
      .suspends hg (by rwa [books_eq hx]) (changes.same same Moves.same)
    rw [moves.records, Table.get?_modify, if_pos rfl, hr]
    rfl
  | handsOn =>
    have works : Works m g x
        { x with scheduler := x.scheduler.suspend aw.task c aw.label, lock := some (.context c) }
        ((m.onScheduler g (·.suspend aw.task c aw.label)).setLock g (some (.context c))) :=
      .intro hx (by simp [hx]) fun h e => by simp [e]
    exact .set ht (.same rfl) (.hands hg (changes_of_works (works.of_cogs rfl) moves))

theorem says_ready (hk : t.control = .awaiting aw .ready) :
    Says m a t (.awaiting aw .ready) ((m.onScheduler g (·.markReady aw.task)).setControl a
      (announce g .ready (((m.onScheduler g (·.markReady aw.task)).cogs.get? g).bind
        fun y => y.scheduler.viewOf aw.task) (.awaiting aw (.reenter none)))) := by
  have hl : m.look a = some (some g, .wait aw.task) := by
    rw [look_eq m a ht, hg, hk]
    rfl
  obtain ⟨record, hr⟩ := Option.isSome_iff_exists.mp ((h.filed hx).charged h.ordered hl rfl rfl)
  have works : Works m g x { x with scheduler := x.scheduler.markReady aw.task }
      (m.onScheduler g (·.markReady aw.task)) := .intro hx (by simp [hx]) fun h e => by simp [e]
  have view : ((m.onScheduler g (·.markReady aw.task)).cogs.get? g).bind
      (fun y => y.scheduler.viewOf aw.task) = some (prepared record).view := by
    rw [works.here]
    simp [Scheduler.viewOf, Scheduler.markReady, Table.get?_modify, hr, prepared]
  rw [view]
  exact .set ht (.same rfl) (.readies hg (by rwa [books_eq hx])
    (changes_of_works (works.of_cogs rfl) ⟨rfl, rfl, rfl⟩))

theorem says_abort {phase : Phase S} (hk : t.control = .awaiting aw phase)
    (hp : phase = .abort ∨ ∃ failure, phase = .contend failure) :
    Says m a t (.awaiting aw phase) (m.abort a c g x aw) := by
  have hl : m.look a = some (some g, phase.stance aw.task) := by
    rw [look_eq m a ht, hg, hk]
    rfl
  have charge : (phase.stance aw.task).charge = some aw.task := by
    rcases hp with rfl | ⟨failure, rfl⟩ <;> rfl
  obtain ⟨record, hr⟩ := Option.isSome_iff_exists.mp ((h.filed hx).charged h.ordered hl rfl charge)
  obtain ⟨ends, -⟩ := ends_abort (y := x.scheduler) (k := aw.task) (by simp [hr]) c m.now
  have view : (x.scheduler.abort aw.task c m.now).1 = some (lastView record.view) :=
    view_finish (y := (x.scheduler.removeWaiter c).retire) hr ..
  unfold Machine.abort
  cases hab : x.scheduler.abort aw.task c m.now with
  | mk v scheduler =>
    rw [hab] at ends view
    cases view
    have works : Works m g x { x with scheduler, lock := none }
        (m.onCog g fun y => { y with scheduler, lock := none }) :=
      .intro hx (by simp [hx]) fun h e => by simp [e]
    exact .set ht (.notifyAll (.same rfl)) (.aborts hg hp (by rwa [books_eq hx])
      (changes_of_works (works.of_cogs rfl) ends))

theorem says_takeSlot {failure failure' : Option GuardError} (ha : a = .context c)
    (hk : t.control = .awaiting aw (.contend failure))
    (hth : m₁.threads = m.threads) (hc : m₁.cogs = m.cogs) (hn : m₁.now = m.now) :
    Says m a t (.awaiting aw (.contend failure)) (m₁.takeSlot a c g x aw failure') := by
  have hl : m.look a = some (some g, .contend aw.task) := by
    rw [look_eq m a ht, hg, hk]
    rfl
  obtain ⟨record, hr⟩ := Option.isSome_iff_exists.mp ((h.filed hx).charged h.ordered hl rfl rfl)
  have moves : x.scheduler.Moves (x.scheduler.resume aw.task c m.now) aw.task .running (running c m.now) :=
    moves_resume (by simp [hr])
  have works : Works m g x { x with scheduler := x.scheduler.resume aw.task c m.now, lock := none }
      (m₁.onCog g fun y => { y with scheduler := x.scheduler.resume aw.task c m.now, lock := none }) :=
    .intro hx (by simp [hx, hc]) fun h e => by simp [e, hc]
  unfold takeSlot
  rw [hn]
  dsimp only
  rw [moves.viewOf hr]
  exact .set ht (.same hth) (.resumes ha hg (by rwa [books_eq hx])
    (changes_of_works (works.of_cogs rfl) moves))

theorem says_await {phase : Phase S} (ha : a = .context c) (hk : t.control = .awaiting aw phase)
    (hs : m.AwaitStep c g x aw phase m') : Says m a t (.awaiting aw phase) m' := by
  subst ha
  have same : m.SameBooks m := sameBooks_of_cogs rfl
  have turned : m.SameBooks m.turned := same
  have go {m₁ : Machine S A V} {k' : Control S A V} (hth : m₁.threads = m.threads) (hb : m.SameBooks m₁)
      (hk : (Control.awaiting aw phase).Idles k') :
      Says m (.context c) t (.awaiting aw phase) (m₁.setControl (.context c) k') := .go ht (.same hth) hb hk
  cases hs with
  | handsOver free empty => exact says_release ht h hg hx hk rfl (.handsOver free empty)
  | handsOn free queued => exact says_release ht h hg hx hk rfl (.handsOn free queued)
  | marks => exact says_ready ht h hg hx hk
  | aborts => exact says_abort ht h hg hx hk (.inr ⟨_, rfl⟩)
  | abandons => exact says_abort ht h hg hx hk (.inl rfl)
  | returns | resumes | fails => exact says_takeSlot ht h hg hx rfl hk rfl rfl rfl
  | reenters | reentersFailed => exact go rfl (.onCog same fun x => ⟨rfl, rfl, rfl⟩) ⟨rfl, rfl, rfl, rfl, rfl⟩
  | wakes => exact go rfl (.onCog same fun x => .refl _) ⟨rfl, rfl, rfl, rfl, rfl⟩
  | aims | aimFails | sleeps | unwinds =>
    exact go rfl (.onCog turned fun x => .refl _) ⟨rfl, rfl, rfl, rfl, rfl⟩
  | _ => exact go rfl same ⟨rfl, rfl, rfl, rfl, rfl⟩

theorem says_complete {i : TaskId} {outcome : TaskOutcome} (hk : t.control = .complete i outcome) :
    Says m a t (.complete i outcome)
      (((m.onScheduler g fun _ => (x.scheduler.complete i outcome m.now).2).broadcast g).announceEnd a g outcome
        (x.scheduler.complete i outcome m.now).1 .claim) := by
  have hl : m.look a = some (some g, .complete i outcome) := by
    rw [look_eq m a ht, hg, hk]
    rfl
  obtain ⟨record, hr⟩ := Option.isSome_iff_exists.mp ((h.filed hx).charged h.ordered hl rfl rfl)
  obtain ⟨ends, -⟩ := ends_complete (y := x.scheduler) (k := i) (by simp [hr]) outcome m.now
  have view : (x.scheduler.complete i outcome m.now).1 = some (lastView record.view) :=
    view_finish (y := { x.scheduler with activeTask := none }) hr ..
  generalize x.scheduler.complete i outcome m.now = completed at ends view
  rw [view]
  have works : Works m g x { x with scheduler := completed.2 }
      ((m.onScheduler g fun _ => completed.2).broadcast g) := .intro hx (by simp [hx]) fun h e => by simp [e]
  have stirred : m.Stirred ((m.onScheduler g fun _ => completed.2).broadcast g) a := .broadcast (.same rfl)
  exact .set ht stirred.notifyAll (.completes hg (by rwa [books_eq hx])
    (changes_of_works (works.of_cogs rfl) ends))

omit h in
theorem says_strand {i : TaskId} (unfinished : (x.scheduler.removeWaiter c).records.has i = true) :
    Says m a t (.strand i)
      ((((m.onCog g fun y => { y with
          scheduler := ((x.scheduler.removeWaiter c).strand i c m.now).2
          ended := y.ended + 1 }).broadcast g).report (.leftOutside x.name c i)).announceEnd a g .failed
        ((x.scheduler.removeWaiter c).strand i c m.now).1 .leave) := by
  obtain ⟨record, hr⟩ := Option.isSome_iff_exists.mp
    (show ((x.scheduler.removeWaiter c).records.get? i).isSome from unfinished)
  obtain ⟨ends, -⟩ := ends_strand (y := x.scheduler.removeWaiter c) (k := i) (by simp [hr]) c m.now
  have ends : x.scheduler.Ends ((x.scheduler.removeWaiter c).strand i c m.now).2 i .failed := ends.of_eq rfl rfl
  have view := view_strand (y := x.scheduler.removeWaiter c) hr c m.now
  generalize (x.scheduler.removeWaiter c).strand i c m.now = stranded at ends view
  rw [view]
  have works : Works m g x { x with scheduler := stranded.2, ended := x.ended + 1 }
      (((m.onCog g fun y => { y with scheduler := stranded.2, ended := y.ended + 1 }).broadcast g).report
        (.leftOutside x.name c i)) := .intro hx (by simp [hx, report]) fun h e => by simp [e, report]
  have stirred : m.Stirred ((m.onCog g fun y => { y with
      scheduler := stranded.2, ended := y.ended + 1 }).broadcast g) a := .broadcast (.same rfl)
  exact .set ht (stirred.trans (.same rfl)).notifyAll (.strands hg (by rwa [books_eq hx])
    (changes_of_works (works.of_cogs rfl) ends))

end

end

/-! ## The next step of a thread -/

theorem says_step (h : Reachable (.empty r memory) m) (ht : m.threads.get? a = some t)
    (hs : m.step a = some m') : Says m a t t.control m' := by
  have took := step_of ht hs
  generalize hk : t.control = k at took ⊢
  have go {m₁ : Machine S A V} {k' : Control S A V} (hth : m₁.threads = m.threads) (hc : m₁.cogs = m.cogs)
      (hk : k.Idles k') : Says m a t k (m₁.setControl a k') := .go ht (.same hth) (sameBooks_of_cogs hc) hk
  cases took with
  | runs took => exact says_body ht took
  | enlists hx free idle => exact says_enrol ht h hk (.enlists hx free idle)
  | joins hx free busy => exact says_enrol ht h hk (.joins hx free busy)
  | starts took => exact says_start ht h hk took
  | awaits ha hg hx took => exact says_await ht h hg hx ha hk took
  | takes ha hg hx free active opened queue => exact says_claim ht h (.takes ha hg hx free active opened queue)
  | retires ha hg hx free barred => exact says_claim ht h (.retires ha hg hx free barred)
  | completes hg hx => exact says_complete ht h hg hx hk
  | strands ha hg hx _ unfinished => exact says_strand ht hg hx unfinished
  | @fades c g x i ha hg hx =>
    have works : Works m g x { x with scheduler := x.scheduler.removeWaiter c }
        (m.onScheduler g fun _ => x.scheduler.removeWaiter c) := .intro hx (by simp [hx]) fun h e => by simp [e]
    exact .go ht (.same rfl) (sameBooks_of_works works ⟨rfl, rfl, rfl⟩) ⟨rfl, rfl, rfl, rfl, rfl⟩
  | leaves ha =>
    subst ha
    exact .inl ⟨by simp [thread_strike], rfl, sameBooks_of_cogs (cogs_strike ..)⟩
  | departs => exact .inl ⟨Table.get?_remove_self .., rfl, sameBooks_of_cogs rfl⟩
  | tells => exact .set ht (.same (threads_deliver ..)) (.tells _ _ _ (sameBooks_of_cogs (cogs_deliver ..)))
  | sends took => exact says_signal ht took
  | _ => exact go rfl rfl ⟨rfl, rfl, rfl, rfl, rfl⟩

/-! ## The books of other tasks -/

/-- What nobody does changes no books. -/
theorem Shift.sameBooks (h : Shift m m' none) (ho : m.Ordered) : m.SameBooks m' := by
  intro g
  cases h.vantage ho g with
  | aside _ hx =>
    rw [books_aside hx]
    exact .refl _

/-- A task that a thread hosts keeps its record and its handle while others act. -/
theorem Machine.Reachable.spared {move : Action S A V} {own : Option CogId} {s : Stance} {i : TaskId}
    {active : Bool} (h : Reachable (.empty r memory) m) (ha : m.act move = some m')
    (hl : m.look b = some (own, s)) (hi : s.seat? = some ⟨i, active⟩) (hne : move.actor? ≠ some b) (g : CogId) :
    (m'.books g).records.get? i = (m.books g).records.get? i ∧
      (m'.books g).handles.get? i = (m.books g).handles.get? i := by
  have ho : m.Ordered := h.ordered
  have vantage := (shift_act ho ha).vantage ho g
  generalize move.actor? = actor at vantage hne
  cases vantage with
  | aside _ hx =>
    rw [books_aside hx]
    exact ⟨rfl, rfl⟩
  | deed ht hw hd =>
    rw [books_eq hw.before, books_eq hw.here]
    exact (h.filed hw.before).spares ho ht h.blank ha hw hd hl hi fun e => hne (e ▸ rfl)
  | grant _ hw hg =>
    rw [books_eq hw.before, books_eq hw.here]
    cases hg <;> exact ⟨rfl, rfl⟩

end ObjectGroups
