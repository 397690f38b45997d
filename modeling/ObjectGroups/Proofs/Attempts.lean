/-
What a submission does once its task has a number.

It puts the task at the end of the queue, under the lock of the scheduler. If
nobody has the slot it keeps the lock, and starts a context stage by stage. While
it is at it nobody else touches the books of the cog, so they are what they were
before, with the task at the end, and its own steps spare everything else but the
registry's entry of the context. `Attempt` says so of the moves since the task
came into the queue, and every thread that starts a context for a submission has
made such an attempt.
-/
import ObjectGroups.Proofs.Callers
import ObjectGroups.Proofs.Roll

namespace ObjectGroups

variable {S A V : Type} {m m' : Machine S A V} {a b : Agent} {g : CogId} {c : ContextId}
  {own : Option CogId} {s s' : Stance} {x x' : Cog S A V} {y : Scheduler S A V} {t : Thread S A V}
  {seat : Option Seat} {view : TaskView} {task : Body S A V} {stage : Stage} {e : RuntimeError}
  {next : Exit RuntimeError TaskId → Body S A V} {move : Action S A V} {moves later : List (Move S A V)}
  {r : Registry} {memory : A}

open Machine

/-! ## Books under a lock -/

/-- A task that is new leaves nothing behind when it is taken back. -/
theorem Scheduler.withdraw_enqueue (record : y.records.get? view.id = none)
    (handle : y.handles.get? view.id = none) : (y.enqueue view task).withdraw view.id = y := by
  simp [enqueue, withdraw, Table.remove_put, Table.remove_absent, record, handle]

/-- A deed leaves the books alone while another thread has the lock. -/
theorem Deed.scheduler_other {loud : Bool} (h : Deed g a own loud s x s' x') (hb : b ≠ a)
    (hx : x.lock = some b) (ha : s.lock own = some g → x.lock = some a) :
    x'.scheduler = x.scheduler := by
  have hba : ¬ a = b := fun e => hb e.symm
  cases h with
  | abort now hs => rcases hs with rfl | ⟨rfl, hs⟩ <;> simp_all [Stance.lock]
  | _ => simp_all [Stance.lock]

namespace Machine

theorem Ordered.lock_eq (ho : m.Ordered) (hl : m.look a = some (own, s)) (hs : s.lock own = some g)
    (hx : m.cogs.get? g = some x) : x.lock = some a := by
  obtain ⟨y, hy, lock, -⟩ := ho.locks hl hs
  cases hx.symm.trans hy
  exact lock

/-- Nobody touches the books while a thread has the lock, but this thread. -/
theorem Ordered.books_locked (ho : m.Ordered) (ha : m.act move = some m') (hl : m.look b = some (own, s))
    (hs : s.lock own = some g) (other : move.actor? ≠ some b) : m'.books g = m.books g := by
  have shift := shift_act ho ha
  generalize move.actor? = actor at shift other
  cases shift.vantage ho g with
  | aside _ hx => exact books_aside hx
  | @deed a own' loud s₁ s₂ x x' ht hw hd =>
    rw [books_eq hw.before, books_eq hw.here]
    exact hd.scheduler_other (fun e => other (e ▸ rfl)) (ho.lock_eq hl hs hw.before)
      fun locks => ho.lock_eq ht.before locks hw.before
  | @grant a own' s₁ s₂ d x x' hb hw hg =>
    have locks : s₁.lock own' = some g := by cases hg <;> rfl
    have same := (ho.lock_eq hl hs hw.before).symm.trans (ho.lock_eq hb.before locks hw.before)
    exact absurd (congrArg some (Option.some.inj same).symm) other

end Machine

/-- The books know nothing yet of a task that is about to be put into the queue. -/
theorem History.unknown (h : History (.empty r memory) moves m) (hx : m.cogs.get? g = some x)
    (hl : m.look a = some (own, .enrol seat g view)) :
    x.scheduler.records.get? view.id = none ∧ x.scheduler.handles.get? view.id = none := by
  have roll := h.roll.2 hx
  refine ⟨roll.not_recorded hl rfl, Option.not_isSome_iff_eq_none.mp fun there => ?_⟩
  exact (roll.posted _ (roll.known.mp there)).arrived a own _ hl rfl

/-! ## What else there is -/

/-- The context that is being started, once it has its number. -/
def Stage.context? : Stage → Option ContextId
  | .check => none
  | .register c => some c
  | .launch c => some c

namespace Machine

/-- Nothing is different but the books of the cog `g` and its lock, what is known of the context
`c`, what the thread `a` is about to do, and the log. Others are at most notified. -/
structure Spares (m : Machine S A V) (a : Agent) (g : CogId) (c : ContextId) (m' : Machine S A V) : Prop where
  cogs : ∀ i, i ≠ g → m'.cogs.get? i = m.cogs.get? i
  cog : ∀ x, m.cogs.get? g = some x →
    ∃ scheduler lock, m'.cogs.get? g = some { x with scheduler, lock }
  live : m'.registry.live.filter (· ≠ c) = m.registry.live.filter (· ≠ c)
  registry : m'.registry =
    { m.registry with live := m'.registry.live, nextContext := m'.registry.nextContext }
  contexts : ∀ d, d ≠ c → m'.contexts.get? d = m.contexts.get? d
  parkers : ∀ p, p ≠ .own c → m'.parkers.get? p = m.parkers.get? p
  threads : ∀ b, b ≠ a → m.Stirred m' b
  rest : m' = { m with
    cogs := m'.cogs, registry := m'.registry, contexts := m'.contexts, parkers := m'.parkers,
    threads := m'.threads, reports := m'.reports }

namespace Spares

theorem refl (m : Machine S A V) : m.Spares a g c m where
  cogs _ _ := rfl
  cog _ hx := ⟨_, _, hx⟩
  live := rfl
  registry := rfl
  contexts _ _ := rfl
  parkers _ _ := rfl
  threads _ _ := .same rfl
  rest := rfl

theorem trans {m'' : Machine S A V} (h : m.Spares a g c m') (h' : m'.Spares a g c m'') :
    m.Spares a g c m'' where
  cogs i hi := (h'.cogs i hi).trans (h.cogs i hi)
  cog x hx := by
    obtain ⟨_, _, hx'⟩ := h.cog x hx
    obtain ⟨scheduler, lock, hx''⟩ := h'.cog _ hx'
    exact ⟨scheduler, lock, hx''⟩
  live := h'.live.trans h.live
  registry := by
    have same := h'.registry
    rw [h.registry] at same
    exact same
  contexts d hd := (h'.contexts d hd).trans (h.contexts d hd)
  parkers p hp := (h'.parkers p hp).trans (h.parkers p hp)
  threads b hb := (h.threads b hb).trans (h'.threads b hb)
  rest := by
    have same := h'.rest
    rw [h.rest] at same
    exact same

theorem setControl (m : Machine S A V) (a : Agent) (g : CogId) (c : ContextId) (k : Control S A V) :
    m.Spares a g c (m.setControl a k) where
  cogs _ _ := rfl
  cog _ hx := ⟨_, _, hx⟩
  live := rfl
  registry := rfl
  contexts _ _ := rfl
  parkers _ _ := rfl
  threads _ hb := Stirred.setControl hb (.same rfl)
  rest := rfl

theorem onCog (m : Machine S A V) (a : Agent) (g : CogId) (c : ContextId) (f : Cog S A V → Cog S A V)
    (hf : ∀ x, ∃ scheduler lock, f x = { x with scheduler, lock }) : m.Spares a g c (m.onCog g f) where
  cogs i hi := by rw [cog_onCog, if_neg hi]
  cog x hx := by
    obtain ⟨scheduler, lock, same⟩ := hf x
    exact ⟨scheduler, lock, by rw [cog_onCog_self m g f hx, same]⟩
  live := rfl
  registry := rfl
  contexts _ _ := rfl
  parkers _ _ := rfl
  threads _ _ := .same rfl
  rest := rfl

theorem onScheduler (m : Machine S A V) (a : Agent) (g : CogId) (c : ContextId)
    (f : Scheduler S A V → Scheduler S A V) : m.Spares a g c (m.onScheduler g f) :=
  onCog m a g c _ fun _ => ⟨_, _, rfl⟩

theorem setLock (m : Machine S A V) (a : Agent) (g : CogId) (c : ContextId) (holder : Option Agent) :
    m.Spares a g c (m.setLock g holder) :=
  onCog m a g c _ fun _ => ⟨_, _, rfl⟩

/-- The context gets its number, and is entered. -/
theorem known (m : Machine S A V) (a : Agent) (g : CogId) {registry : Registry}
    {contexts : Table ContextId Context} {parkers : Table ParkerId Parker} (reports : List Report)
    (live : registry.live.filter (· ≠ c) = m.registry.live.filter (· ≠ c))
    (same : registry = { m.registry with live := registry.live, nextContext := registry.nextContext })
    (others : ∀ d, d ≠ c → contexts.get? d = m.contexts.get? d)
    (asleep : ∀ p, p ≠ .own c → parkers.get? p = m.parkers.get? p) :
    m.Spares a g c { m with registry, contexts, parkers, reports } where
  cogs _ _ := rfl
  cog _ hx := ⟨_, _, hx⟩
  live := live
  registry := same
  contexts := others
  parkers := asleep
  threads _ _ := .same rfl
  rest := rfl

theorem strike (m : Machine S A V) (a : Agent) (g : CogId) (c : ContextId) : m.Spares a g c (m.strike c) where
  cogs _ _ := by rw [cogs_strike]
  cog x hx := ⟨_, _, by rw [cogs_strike, hx]⟩
  live := by simp [Registry.strike, List.filter_filter]
  registry := by
    rw [registry_strike]
    rfl
  contexts _ _ := by
    obtain ⟨_, h⟩ := m.strike_eq c
    rw [h]
  parkers _ _ := by
    obtain ⟨_, h⟩ := m.strike_eq c
    rw [h]
  threads _ _ := .strike (.same rfl)
  rest := by
    obtain ⟨_, h⟩ := m.strike_eq c
    rw [h]

theorem deliveries (h : m.Spares a g c m') : m'.deliveries = m.deliveries := by
  rw [h.rest]

/-- With the books and their lock as they were, no cog is different. -/
theorem cogs_eq (h : m.Spares a g c m') (books : m'.books g = m.books g) (free : m.unlocked g = true)
    (free' : m'.unlocked g = true) (i : CogId) : m'.cogs.get? i = m.cogs.get? i := by
  by_cases hi : i = g
  · subst hi
    unfold unlocked at free free'
    split at free
    · next x hx =>
      obtain ⟨scheduler, lock, hx'⟩ := h.cog x hx
      rw [books_eq hx, books_eq hx'] at books
      simp only [hx', Option.isNone_iff_eq_none] at free free' books
      rw [hx', hx, books, free', ← free]
    · cases free
  · exact h.cogs i hi

theorem registry_eq (h : m.Spares a g c m') (hc : c ∉ m.registry.live) (hc' : c ∉ m'.registry.live) :
    m'.registry = { m.registry with nextContext := m'.registry.nextContext } := by
  have live := h.live
  rw [List.filter_eq_self.mpr (by grind), List.filter_eq_self.mpr (by grind)] at live
  have same := h.registry
  rw [live] at same
  exact same

end Spares

/-! ## The steps of a submission -/

/-- A call that finds the registry open gives the task its number, and is about to put it into the queue. -/
theorem enrols_of_open (opened : m.registry.shutdown = false) (ht : m.threads.get? a = some t) {name : String}
    (hk : t.control = .run seat (.submit g name task next)) :
    m.act (.step a) = some ({ m with nextTask := m.nextTask.next }.setControl a
      (.enrol seat g { id := m.nextTask, name, cog := g, submittedAt := m.now } task next)) := by
  simp [act, step, ht, hk, stepBody, opened]

/-- Why a start that has come this far fails, if it does. -/
def denial? (m : Machine S A V) : Stage → Option RuntimeError
  | .check => if m.registry.shutdown then some .shutDown else none
  | .register _ => none
  | .launch c => match m.grant c with
    | .error e => some e
    | _ => none

/-- The machine once a start that fails has given back what it has. -/
def vacate (m : Machine S A V) : Stage → Machine S A V
  | .launch c => m.strike c
  | _ => m

/-- What comes of a step of the thread `a` that puts a task into the queue. `k` is what it does next. -/
inductive Enrols (m : Machine S A V) (a : Agent) (seat : Option Seat) (g : CogId) (view : TaskView)
    (task : Body S A V) (next : Exit RuntimeError TaskId → Body S A V) (m' : Machine S A V) :
    Control S A V → Prop where
  /-- Nobody has the slot, and the thread keeps the lock to start a context. -/
  | starts {x : Cog S A V} : m.cogs.get? g = some x → x.lock = none →
      m' = ((m.onScheduler g (·.enqueue view task)).setLock g (some a)).setControl a
        (.starting .check (.submission seat g view next)) →
      Enrols m a seat g view task next m' (.starting .check (.submission seat g view next))
  | joins : Enrols m a seat g view task next m' (announce g .added (some view) (.run seat (next (.ok view.id))))

theorem enrols (ht : m.threads.get? a = some t) (hk : t.control = .enrol seat g view task next)
    (h : m.step a = some m') :
    ∃ k, m'.threads.get? a = some { t with control := k } ∧ m.Enrols a seat g view task next m' k := by
  have took := step_of ht h
  rw [hk] at took
  cases took with
  | enlists hx free => exact ⟨_, thread_set _ ht (.same rfl), .starts hx free rfl⟩
  | joins =>
    have told : m.Stirred ((m.onScheduler g (·.enqueue view task)).broadcast g) a := .broadcast (.same rfl)
    exact ⟨_, thread_set _ ht told, .joins⟩

theorem stepStart_denied (denied : m.denial? stage = some e) (errand : Errand S A V) :
    m.stepStart a own stage errand = (m.vacate stage).startFailed a own e errand := by
  cases stage with
  | check =>
    simp only [denial?] at denied
    split at denied
    · next closed =>
      cases denied
      simp [stepStart, closed, vacate]
    · cases denied
  | register c => cases denied
  | launch c =>
    simp only [denial?, grant] at denied
    by_cases named : Registry.nameable (((m.contexts.get? c).map (·.name)).getD "") = true
    · by_cases admitted : m.registry.admits c = true
      · simp [named, admitted] at denied
      · simp only [named, admitted, Bool.not_true, Bool.not_false, Bool.false_eq_true, if_false, if_true,
          Option.some.injEq] at denied
        simp [stepStart, named, admitted, vacate, ← denied]
    · simp [named] at denied

theorem Spares.failed (m : Machine S A V) (c : ContextId) (own : Option CogId) (e : RuntimeError) :
    m.Spares a g c (m.startFailed a own e (.submission seat g view next)) := by
  let m₁ := m.report (.notStarted (((m.cogs.get? g).map (·.name)).getD "") view.id e)
  have reported : m.Spares a g c m₁ := .known m a g _ rfl rfl (fun _ _ => rfl) fun _ _ => rfl
  exact ((reported.trans (.onScheduler ..)).trans (.setLock ..)).trans (.setControl ..)

/-- A step that gets no thread for the context. -/
theorem Spares.start (own : Option CogId) (hc : ∀ d, stage.context? = some d → d = c)
    (granted : ∀ d, stage = .launch d → ∀ d', m.grant d ≠ .ok d') :
    m.Spares a g c (m.stepStart a own stage (.submission seat g view next)) := by
  have took := m.stepStart_cases a own stage (.submission seat g view next)
  generalize m.stepStart a own stage (.submission seat g view next) = m' at took ⊢
  cases took with
  | closed => exact .failed ..
  | numbers =>
    have numbered : m.Spares a g c { m with registry := m.registry.allocate.2 } :=
      .known m a g _ rfl rfl (fun _ _ => rfl) fun _ _ => rfl
    exact numbered.trans (.setControl ..)
  | enters =>
    obtain rfl := hc _ rfl
    refine Spares.trans (.known m a g _ ?_ rfl (fun i hi => ?_) fun p hp => ?_) (.setControl ..)
    · simp [Registry.enter]
    · rw [Table.get?_put_of_ne _ hi.symm]
    · rw [Table.get?_put_of_ne _ hp.symm]
  | panics =>
    obtain rfl := hc _ rfl
    exact ((Spares.strike ..).trans (.setLock ..)).trans (.setControl ..)
  | refused =>
    obtain rfl := hc _ rfl
    exact (Spares.strike ..).trans (.failed ..)
  | @granted d named admitted => exact absurd (by simp [grant, named, admitted]) (granted d rfl d)

/-- What a step comes to of the thread `a` that starts a context for its submission. `k` is what it
does next. -/
inductive Tries (m : Machine S A V) (a : Agent) (own : Option CogId) (seat : Option Seat) (g : CogId)
    (view : TaskView) (next : Exit RuntimeError TaskId → Body S A V) (m' : Machine S A V) :
    Stage → Control S A V → Prop where
  | numbered : m.registry.shutdown = false → m'.cogs = m.cogs →
      Tries m a own seat g view next m' .check
        (.starting (.register m.registry.nextContext) (.submission seat g view next))
  | entered (c : ContextId) : m'.cogs = m.cogs →
      Tries m a own seat g view next m' (.register c) (.starting (.launch c) (.submission seat g view next))
  | granted (c : ContextId) : m.grant c = .ok c → (m'.look (.context c)).isSome →
      Tries m a own seat g view next m' (.launch c)
        (announce g .added (some view) (.run seat (next (.ok view.id))))
  | denied {stage : Stage} (e : RuntimeError) : m.denial? stage = some e →
      m' = (m.vacate stage).startFailed a own e (.submission seat g view next) →
      Tries m a own seat g view next m' stage (.run seat (next (.error e)))
  | unwound (c : ContextId) (p : Payload) : m.grant c = .panic p →
      m' = (m.strike c).startUnwound a own p (.submission seat g view next) →
      Tries m a own seat g view next m' (.launch c) (.run seat (next (.panic p)))

theorem step_start {errand : Errand S A V} (h : m.step a = some m') (ht : m.threads.get? a = some t)
    (hk : t.control = .starting stage errand) : m' = m.stepStart a t.cog stage errand := by
  simp only [step, ht, hk] at h
  exact (Option.some.inj h).symm

theorem Ordered.tries (ho : m.Ordered) (ht : m.threads.get? a = some t)
    (hk : t.control = .starting stage (.submission seat g view next)) (h : m.step a = some m') :
    ∃ k, m'.threads.get? a = some { t with control := k } ∧ m.Tries a t.cog seat g view next m' stage k := by
  have took := step_of ht h
  rw [hk] at took
  cases took with | starts took
  have struck {d : ContextId} : m.Stirred (m.strike d) a := .strike (.same rfl)
  cases took with
  | closed shut => exact ⟨_, thread_set _ ht (.same rfl), .denied .shutDown (by simp [denial?, shut]) rfl⟩
  | numbers opened => exact ⟨_, thread_set _ ht (.same rfl), .numbered opened rfl⟩
  | enters => exact ⟨_, thread_set _ ht (.same rfl), .entered _ rfl⟩
  | panics unnameable =>
    exact ⟨_, thread_set _ ht (struck.trans (.same rfl)), .unwound _ _ (by simp [grant, unnameable]) rfl⟩
  | refused named refused =>
    exact ⟨_, thread_set _ ht (struck.trans (.same rfl)),
      .denied _ (by simp [denial?, grant, named, refused]) rfl⟩
  | granted named admitted =>
    obtain ⟨cog, control⟩ := t
    cases hk
    obtain ⟨ht', born⟩ := ho.launched ht named admitted
    rw [stepStart_granted named admitted] at ht' born
    exact ⟨_, ht', .granted _ (by simp [grant, named, admitted]) born⟩

/-- Who is denied its context goes on with the error at once. -/
theorem Ordered.told_denied (ho : m.Ordered) (h : m.step a = some m') (ht : m.threads.get? a = some t)
    (hk : t.control = .starting stage (.submission seat g view next)) (denied : m.denial? stage = some e) :
    m'.threads.get? a = some { t with control := .run seat (next (.error e)) } := by
  obtain ⟨k, ht', tries⟩ := ho.tries ht hk h
  cases tries with
  | numbered opened => simp [denial?, opened] at denied
  | entered => cases denied
  | granted c granted => simp [denial?, granted] at denied
  | unwound c p panics => simp [denial?, panics] at denied
  | denied e' same =>
    obtain rfl := Option.some.inj (denied.symm.trans same)
    exact ht'

end Machine

/-! ## Attempts -/

theorem Control.behind_enrol {k : Control S A V} (h : k.stance = .enrol seat g view) :
    ∃ task next, k.behind = .enrol seat g view task next := by
  induction k with
  | notify _ _ after ih => exact ih h
  | enrol =>
    cases h
    exact ⟨_, _, rfl⟩
  | awaiting aw phase => cases phase <;> cases h
  | starting _ errand => cases errand <;> cases h
  | _ => cases h

theorem Control.behind_submit {k : Control S A V} (h : k.stance = .submit stage seat g view) :
    ∃ next, k.behind = .starting stage (.submission seat g view next) := by
  induction k with
  | notify _ _ after ih => exact ih h
  | awaiting aw phase => cases phase <;> cases h
  | starting _ errand => cases errand with
    | submission =>
      cases h
      exact ⟨_, rfl⟩
    | _ => cases h
  | _ => cases h

/-- A notification is nothing to a thread that starts a context. -/
theorem Control.rouse_starting {k : Control S A V} {errand : Errand S A V}
    (h : k.rouse.behind = .starting stage errand) : k.rouse = k := by
  cases k with
  | awaiting aw phase => cases phase <;> cases h
  | idle | linger | park | hold => cases h
  | _ => rfl

/-- Who starts a context for a submission has just put its task into the queue, or has gone on from
another stage. -/
theorem Passes.submit (h : Passes m m' a own s (.submit stage seat g view)) :
    s = .enrol seat g view ∨ ∃ stage, s = .submit stage seat g view := by
  have restaged {s : Stance} {other : Stage} (e : s.restage other = .submit stage seat g view) :
      ∃ stage, s = .submit stage seat g view := by
    cases s with
    | submit =>
      cases e
      exact ⟨_, rfl⟩
    | _ => cases e
  generalize e : Stance.submit stage seat g view = s' at h
  cases h with
  | quiet hq => cases hq with
    | same => exact .inr ⟨_, e.symm⟩
    | enter => exact .inr (restaged e.symm)
    | _ => cases e
  | deed hd => cases hd with
    | submit =>
      cases e
      exact .inl rfl
    | _ => cases e
  | allocate => exact .inr (restaged e.symm)
  | grant hg => cases hg <;> cases e
  | _ => cases e

/-- The thread `a` has put the task into the queue of the cog in the move `first`, and has come to
`stage` since then. -/
structure Attempt (a : Agent) (g : CogId) (view : TaskView) (task : Body S A V) (first : Move S A V)
    (later : List (Move S A V)) (m : Machine S A V) (stage : Stage) : Prop where
  begins : first.act = .step a ∧ ∃ t seat next,
    first.before.threads.get? a = some t ∧ t.control = .enrol seat g view task next
  unlocked : first.before.unlocked g = true
  restored : ((first.before.books g).enqueue view task).withdraw view.id = first.before.books g
  books : m.books g = (first.before.books g).enqueue view task
  meanwhile : ∀ v ∈ first :: later, v.after.books g = (first.before.books g).enqueue view task
  spares : ∀ c, (∀ d, stage.context? = some d → d = c) →
    ∀ v ∈ first :: later, v.act = .step a → v.before.Spares a g c v.after
  onward : first.before.registry.nextContext.val ≤ m.registry.nextContext.val
  newer : ∀ c, stage.context? = some c → first.before.registry.nextContext.val ≤ c.val

namespace Attempt

variable {first : Move S A V}

/-- The task comes into the queue, and nobody has the slot. -/
theorem begin (h : History (.empty r memory) moves m) (ht : m.threads.get? a = some t)
    (hk : t.control = .enrol seat g view task next) (hx : m.cogs.get? g = some x) (free : x.lock = none)
    (he : m' = ((m.onScheduler g (·.enqueue view task)).setLock g (some a)).setControl a
      (.starting .check (.submission seat g view next))) :
    Attempt a g view task ⟨m, .step a, m'⟩ [] m' .check := by
  obtain ⟨record, handle⟩ := h.unknown hx (by rw [look_eq m a ht, hk]; rfl)
  have before : m.books g = x.scheduler := books_eq hx
  have books : m'.books g = (m.books g).enqueue view task := by
    have hx' : m'.cogs.get? g = some { x with scheduler := x.scheduler.enqueue view task, lock := some a } := by
      rw [he]
      simp [setLock, onScheduler, cog_onCog, hx]
    rw [before, books_eq hx']
  have spares (c : ContextId) : m.Spares a g c m' := by
    rw [he]
    exact ((Spares.onScheduler ..).trans (.setLock ..)).trans (.setControl ..)
  constructor
  case begins => exact ⟨rfl, t, seat, next, ht, hk⟩
  case unlocked => simp [Machine.unlocked, hx, free]
  case restored => rw [before, Scheduler.withdraw_enqueue record handle]
  case books => exact books
  case meanwhile => simpa using books
  case spares =>
    intro c _ v hv _
    obtain rfl := List.mem_singleton.mp hv
    exact spares c
  case onward => exact Nat.le_of_eq (congrArg (·.registry.nextContext.val) he).symm
  case newer =>
    intro c hc
    cases hc

/-- A move that leaves the books alone. -/
theorem act (h : Attempt a g view task first later m stage) (ho : m.Ordered) (ha : m.act move = some m')
    {stage' : Stage} (books : m'.books g = m.books g)
    (same : ∀ c, (∀ d, stage'.context? = some d → d = c) → ∀ d, stage.context? = some d → d = c)
    (spares : ∀ c, (∀ d, stage'.context? = some d → d = c) → move = .step a → m.Spares a g c m')
    (newer : ∀ c, stage'.context? = some c → stage.context? = some c ∨ m.registry.nextContext.val ≤ c.val) :
    Attempt a g view task first (later ++ [⟨m, move, m'⟩]) m' stage' where
  begins := h.begins
  unlocked := h.unlocked
  restored := h.restored
  books := books.trans h.books
  meanwhile := by
    intro v hv
    rw [← List.cons_append] at hv
    rcases List.mem_append.mp hv with old | new
    · exact h.meanwhile v old
    · obtain rfl := List.mem_singleton.mp new
      exact books.trans h.books
  spares := by
    intro c hc v hv acts
    rw [← List.cons_append] at hv
    rcases List.mem_append.mp hv with old | new
    · exact h.spares c (same c hc) v old acts
    · obtain rfl := List.mem_singleton.mp new
      exact spares c hc acts
  onward := Nat.le_trans h.onward (shift_act ho ha).issues.context
  newer := by
    intro c hc
    exact (newer c hc).elim (h.newer c) (Nat.le_trans h.onward)

/-- The thread goes on to the next stage. -/
theorem step (h : Attempt a g view task first later m stage) (ho : m.Ordered) (ha : m.act (.step a) = some m')
    (ht : m.threads.get? a = some t) (hk : t.control = .starting stage (.submission seat g view next))
    {t' : Thread S A V} (ht' : m'.threads.get? a = some t') {stage' : Stage} {errand : Errand S A V}
    (hk' : t'.control.behind = .starting stage' errand) :
    t'.control = .starting stage' (.submission seat g view next) ∧
      Attempt a g view task first (later ++ [⟨m, .step a, m'⟩]) m' stage' := by
  have started := step_start ha ht hk
  obtain ⟨k, after, tries⟩ := ho.tries ht hk ha
  cases after.symm.trans ht'
  cases tries with
  | numbered opened cogs =>
    cases hk'
    refine ⟨rfl, h.act ho ha (by rw [Machine.books, Machine.books, cogs]) ?_ (fun c hc _ => ?_) ?_⟩
    · intro _ _ _ hd
      cases hd
    · rw [started]
      exact .start _ (by rintro _ ⟨⟩) (by rintro _ ⟨⟩)
    · rintro c ⟨⟩
      exact .inr (Nat.le_refl _)
  | entered c cogs =>
    cases hk'
    refine ⟨rfl, h.act ho ha (by rw [Machine.books, Machine.books, cogs]) ?_ (fun c hc _ => ?_) ?_⟩
    · exact fun _ hc => hc
    · rw [started]
      exact .start _ hc (by rintro _ ⟨⟩)
    · exact fun _ hc => .inl hc
  | granted =>
    rw [behind_announce] at hk'
    cases hk'
  | denied => cases hk'
  | unwound => cases hk'

end Attempt

/-- A thread that acts and then starts a context for its submission has just put the task into the
queue, or has been at it before. -/
theorem Machine.Ordered.submits_before (ho : m.Ordered) (ha : m.act (.step a) = some m')
    (ht : m'.threads.get? a = some t) (hs : t.control.stance = .submit stage seat g view) :
    ∃ t₀, m.threads.get? a = some t₀ ∧ ((∃ task next, t₀.control = .enrol seat g view task next) ∨
      ∃ stage next, t₀.control.behind = .starting stage (.submission seat g view next)) := by
  have shift : Shift m m' (some a) := shift_act ho ha
  have hl' : m'.look a = some (t.cog, .submit stage seat g view) := by rw [look_eq m' a ht, hs]
  obtain ⟨s, hl⟩ : ∃ s, m.look a = some (t.cog, s) := by
    rcases shift.came hl' with ⟨-, s, hl⟩ | hl | e | e
    · exact ⟨s, hl⟩
    · exact ⟨_, hl⟩
    · cases e
    · cases e
  obtain ⟨t₀, ht₀, -, stance⟩ := look_eq_some m a hl
  refine ⟨t₀, ht₀, ?_⟩
  rcases (shift.passes hl hl').2.submit with rfl | ⟨stage, rfl⟩
  · obtain ⟨task, next, behind⟩ := Control.behind_enrol stance
    refine .inl ⟨task, next, ?_⟩
    cases hk : t₀.control with
    | notify i n after =>
      -- It has a notice to tell, and does that first.
      simp only [Machine.act, step, ht₀, hk, Option.some.injEq] at ha
      subst ha
      cases (thread_set after ht₀ (.same (by simp))).symm.trans ht
      rw [hk] at stance
      cases hs.symm.trans stance
    | _ =>
      rw [hk] at behind
      exact behind
  · obtain ⟨next, behind⟩ := Control.behind_submit stance
    exact .inr ⟨stage, next, behind⟩

/-- A thread that starts a context for a submission has nothing to tell first, and the task has come
into the queue in a move of its own. -/
theorem History.attempt (h : History (.empty r memory) moves m) (ht : m.threads.get? a = some t)
    (hk : t.control.behind = .starting stage (.submission seat g view next)) :
    t.control = .starting stage (.submission seat g view next) ∧
      ∃ earlier first later task, moves = earlier ++ first :: later ∧
        Attempt a g view task first later m stage := by
  induction h generalizing t stage next with
  | refl => cases ht
  | @act moves m m' move h ha ih =>
    have ho : m.Ordered := h.reachable.ordered
    have hs : t.control.stance = .submit stage seat g view := by
      rw [← Control.stance_behind, hk]
      rfl
    by_cases acts : move.actor? = some a
    · obtain rfl := Action.step_of_actor acts
      obtain ⟨t₀, ht₀, ⟨task, next₀, hk₀⟩ | ⟨stage₀, next₀, hk₀⟩⟩ := ho.submits_before ha ht hs
      · obtain ⟨k, ht', enrols⟩ := enrols ht₀ hk₀ ha
        cases ht.symm.trans ht'
        cases enrols with
        | starts hx free he =>
          cases hk
          exact ⟨rfl, moves, _, [], task, rfl, .begin h ht₀ hk₀ hx free he⟩
        | joins =>
          rw [behind_announce] at hk
          cases hk
      · obtain ⟨hk₀, earlier, first, later, task, rfl, attempt⟩ := ih ht₀ hk₀
        obtain ⟨hk', attempt⟩ := attempt.step ho ha ht₀ hk₀ ht hk
        rw [hk'] at hk ⊢
        exact ⟨hk, earlier, first, _, task, by simp, attempt⟩
    · -- Others leave the thread where it is, and the books under its lock.
      rcases (shift_act ho ha).apart acts with ⟨p, stirred⟩ | new
      · obtain ⟨t₀, ht₀, rfl⟩ : ∃ t₀, m.threads.get? a = some t₀ ∧ (if p then t₀.rouse else t₀) = t := by
          rw [ht] at stirred
          exact Option.map_eq_some_iff.mp stirred.symm
        have same : (if p then t₀.rouse else t₀).control = t₀.control := by
          cases p with
          | true => exact Control.rouse_starting hk
          | false => rfl
        rw [same] at hk hs ⊢
        obtain ⟨hk₀, earlier, first, later, task, rfl, attempt⟩ := ih ht₀ hk
        have locked : (Stance.submit stage seat g view).lock t₀.cog = some g := rfl
        have books := ho.books_locked ha (look_eq m a ht₀) (hs ▸ locked) acts
        refine ⟨hk₀, earlier, first, _, task, by simp, attempt.act ho ha books (fun _ hc => hc) ?_ fun _ => .inl⟩
        exact fun _ _ acts' => absurd (by rw [acts']; rfl) acts
      · rcases new t ht with e | ⟨b, e⟩ <;> rw [e] at hk <;> cases hk

theorem History.attempted (h : History (.empty r memory) moves m) (ht : m.threads.get? a = some t)
    (hk : t.control = .starting stage (.submission seat g view next)) :
    ∃ earlier first later task, moves = earlier ++ first :: later ∧
      Reachable (.empty r memory) first.before ∧ History first.before (first :: later) m ∧
        Attempt a g view task first later m stage := by
  have behind : t.control.behind = .starting stage (.submission seat g view next) := by
    rw [hk]
    rfl
  obtain ⟨-, earlier, first, later, task, rfl, attempt⟩ := h.attempt ht behind
  obtain ⟨before, ha, after⟩ := h.at_move
  exact ⟨earlier, first, later, task, rfl, before.reachable, History.join .refl ha after, attempt⟩

end ObjectGroups
