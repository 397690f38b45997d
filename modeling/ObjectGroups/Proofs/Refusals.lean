/-
Submissions that are answered with an error.

A call that finds the registry closed uses up a number and does nothing else. A
call that comes further has put its task at the end of the queue. If there is no
context to run the task, it is taken back from the end of the queue, where it
still is, and the books are what they were, with all that earlier starts have
left in the queue. The registry has had an entry for the context at most, which
is struck off again; nothing is told to anybody.
-/
import ObjectGroups.Proofs.Attempts

namespace ObjectGroups

variable {S A V : Type} {m m' n : Machine S A V} {a : Agent} {g : CogId} {c : ContextId}
  {t : Thread S A V} {seat : Option Seat} {view : TaskView} {task : Body S A V} {stage : Stage}
  {e : RuntimeError} {next : Exit RuntimeError TaskId → Body S A V} {moves later : List (Move S A V)}
  {r : Registry} {memory : A}

open Machine

/-! ## Whole calls -/

/-- Where every move leaves the rest alone, they do so together. -/
theorem History.spares (h : History n later m) (own : ∀ v ∈ later, v.before.Spares a g c v.after) :
    n.Spares a g c m := by
  induction h with
  | refl => exact .refl n
  | act h ha ih =>
    have before := ih fun v hv => own v (List.mem_append_left _ hv)
    exact before.trans (own _ (List.mem_append_right _ List.mem_cons_self))

/-- The call of the thread `a` that has put the task into the queue of the cog in the move `first` ends
with `last`, and no context has been started for it. -/
structure Fruitless (a : Agent) (g : CogId) (view : TaskView) (task : Body S A V) (first : Move S A V)
    (later : List (Move S A V)) (last : Move S A V) : Prop where
  begins : first.act = .step a ∧ ∃ t seat next,
    first.before.threads.get? a = some t ∧ t.control = .enrol seat g view task next
  ends : last.act = .step a
  unlocked : first.before.unlocked g = true ∧ last.after.unlocked g = true
  /-- In between the books have the task at the end of the queue, and nobody touches them. -/
  meanwhile : ∀ v ∈ first :: later, v.after.books g = (first.before.books g).enqueue view task
  /-- The call does nothing else but enter a context for a while. -/
  spares : ∃ c, c ∉ first.before.registry.live ∧ c ∉ last.after.registry.live ∧
    ∀ v ∈ first :: later ++ [last], v.act = .step a → v.before.Spares a g c v.after

/-- A call that has come to nothing. -/
structure Undone (a : Agent) (g : CogId) (view : TaskView) (task : Body S A V) (first : Move S A V)
    (later : List (Move S A V)) (last : Move S A V) : Prop
    extends Fruitless a g view task first later last where
  /-- The books are what they were, down to the order of their entries. -/
  books : last.after.books g = first.before.books g
  /-- If nobody else acts meanwhile, nothing has changed in any cog, no context is live that was not, and
  none has been started; nothing has been delivered. -/
  alone : (∀ v ∈ later, v.act = .step a) → (∀ i, last.after.cogs.get? i = first.before.cogs.get? i) ∧
    last.after.registry =
      { first.before.registry with nextContext := last.after.registry.nextContext } ∧
    last.after.deliveries = first.before.deliveries

/-- A context that is live has been given its number. -/
theorem Machine.Reachable.live_numbered (h : Reachable (.empty r memory) m) (hr : r.live = [])
    (live : c ∈ m.registry.live) : c.val < m.registry.nextContext.val := by
  rcases (h.live_iff hr).mp live with there | ⟨a, own, s, hl, hs⟩
  · exact h.ordered.newContext there
  · exact (h.ordered.newcomer hl (s.newcomer?_stage.mpr (.inr hs))).1

/-- An attempt ends without a context. -/
theorem Attempt.fruitless {first : Move S A V} (attempt : Attempt a g view task first later m stage)
    (before : Reachable (.empty r memory) first.before) (h : Reachable (.empty r memory) m) (hr : r.live = [])
    (ha : m.act (.step a) = some m') (started : m' = m.stepStart a own stage (.submission seat g view next))
    (granted : ∀ d, stage = .launch d → ∀ d', m.grant d ≠ .ok d')
    (gone : ∀ d, stage.context? = some d → d ∉ m'.registry.live) (free : m'.unlocked g = true) :
    Fruitless a g view task first later ⟨m, .step a, m'⟩ := by
  have hm' : Reachable (.empty r memory) m' := h.act ha
  -- The context that has been entered; if the call has not come so far, one that is new.
  obtain ⟨c, hc, new, gone⟩ : ∃ c, (∀ d, stage.context? = some d → d = c) ∧
      first.before.registry.nextContext.val ≤ c.val ∧ c ∉ m'.registry.live := by
    cases hs : stage.context? with
    | some c =>
      refine ⟨c, ?_, attempt.newer c hs, gone c hs⟩
      rintro d ⟨⟩
      rfl
    | none =>
      refine ⟨m'.registry.nextContext, by rintro _ ⟨⟩, ?_, fun live => ?_⟩
      · exact Nat.le_trans attempt.onward (shift_act h.ordered ha).issues.context
      · exact absurd (hm'.live_numbered hr live) (Nat.lt_irrefl _)
  constructor
  case begins => exact attempt.begins
  case ends => rfl
  case unlocked => exact ⟨attempt.unlocked, free⟩
  case meanwhile => exact attempt.meanwhile
  case spares =>
    refine ⟨c, fun live => ?_, gone, fun v hv acts => ?_⟩
    · exact absurd (before.live_numbered hr live) (Nat.not_lt.mpr new)
    · rcases List.mem_append.mp hv with old | last
      · exact attempt.spares c hc v old acts
      · obtain rfl := List.mem_singleton.mp last
        rw [started]
        exact .start _ hc granted

/-- If the books are what they were, the call has come to nothing. -/
theorem Fruitless.undone {first last : Move S A V} (h : Fruitless a g view task first later last)
    (whole : History first.before (first :: later ++ [last]) last.after)
    (books : last.after.books g = first.before.books g) : Undone a g view task first later last where
  toFruitless := h
  books := books
  alone own := by
    obtain ⟨c, vacant, gone, spares⟩ := h.spares
    have whole : first.before.Spares a g c last.after := by
      refine whole.spares fun v hv => spares v hv ?_
      rcases List.mem_append.mp hv with hv | hv
      · rcases List.mem_cons.mp hv with rfl | hv
        · exact h.begins.1
        · exact own v hv
      · obtain rfl := List.mem_singleton.mp hv
        exact h.ends
    exact ⟨whole.cogs_eq books h.unlocked.1 h.unlocked.2, whole.registry_eq vacant gone, whole.deliveries⟩

/-- A call that is denied its context has come to nothing. -/
theorem History.undone (h : History (.empty r memory) moves m) (hr : r.live = []) (ha : m.act (.step a) = some m')
    (ht : m.threads.get? a = some t) (hk : t.control = .starting stage (.submission seat g view next))
    (denied : m.denial? stage = some e) : ∃ earlier first later task, moves = earlier ++ first :: later ∧
      Undone a g view task first later ⟨m, .step a, m'⟩ := by
  obtain ⟨earlier, first, later, task, rfl, before, during, attempt⟩ := h.attempted ht hk
  refine ⟨earlier, first, later, task, rfl, ?_⟩
  have ho : m.Ordered := h.reachable.ordered
  have started := step_start ha ht hk
  have failed := started.trans (stepStart_denied denied _)
  have locks : m.look a = some (t.cog, .submit stage seat g view) := look_starting m a ht hk
  obtain ⟨x, hx, -⟩ := ho.locks locks rfl
  have cogs : (m.vacate stage).cogs = m.cogs := by cases stage <;> simp [vacate]
  have hx' : m'.cogs.get? g = some { x with scheduler := x.scheduler.withdraw view.id, lock := none } := by
    rw [failed]
    simp [startFailed, Machine.onScheduler, Machine.setLock, report, cog_onCog, cogs, hx]
  have books : m'.books g = first.before.books g := by
    rw [books_eq hx', ← books_eq hx, attempt.books, attempt.restored]
  have free : m'.unlocked g = true := by simp [Machine.unlocked, hx']
  have fruitless : Fruitless a g view task first later ⟨m, .step a, m'⟩ := by
    refine attempt.fruitless before h.reachable hr ha started ?_ ?_ free
    · rintro d rfl d' granted
      simp [denial?, granted] at denied
    · intro d hd
      cases stage with
      | check => cases hd
      | register => cases denied
      | launch c =>
        cases hd
        rw [failed]
        simp [startFailed, vacate, Machine.onScheduler, Machine.setLock, Machine.onCog, report, Registry.strike]
  exact fruitless.undone (during.act ha) books

/-! ## Answers -/

/-- How many steps a submission takes at most until it is answered. -/
def Control.toGo : Control S A V → Nat
  | .notify _ _ after => after.toGo + 1
  | .enrol .. => 4
  | .starting .check _ => 3
  | .starting (.register _) _ => 2
  | .starting (.launch _) _ => 1
  | _ => 0

/-- What a submission comes to in a step of the thread `a`, other than an error. The thread is about to do
`k`, and then `k'`. -/
inductive Machine.Heard (m m' : Machine S A V) (a : Agent) (g : CogId) (view : TaskView)
    (next : Exit RuntimeError TaskId → Body S A V) (k k' : Control S A V) : Prop where
  | pending : k'.submits? = some (g, view, next) → k'.toGo < k.toGo → Heard m m' a g view next k k'
  | accepted (seat : Option Seat) : k'.behind = .run seat (next (.ok view.id)) →
      (⟨m, .step a, m'⟩ : Move S A V).accepted? g = some view.id → Heard m m' a g view next k k'
  /-- The system panics over the name of the context. -/
  | unwound (seat : Option Seat) (c : ContextId) (p : Payload) :
      k = .starting (.launch c) (.submission seat g view next) → m.grant c = .panic p →
      k' = .run seat (next (.panic p)) → Heard m m' a g view next k k'

/-- A submission is answered with an error only if it is denied its context. -/
theorem Machine.Ordered.heard (ho : m.Ordered) (ha : m.act (.step a) = some m') (ht : m.threads.get? a = some t)
    (hk : t.control.submits? = some (g, view, next))
    (granted : ∀ stage errand, t.control = .starting stage errand → m.denial? stage = none) :
    ∃ k, m'.threads.get? a = some { t with control := k } ∧ Heard m m' a g view next t.control k := by
  have turn {k : Control S A V} (ht' : m'.threads.get? a = some { t with control := k }) :
      (⟨m, .step a, m'⟩ : Move S A V).turn = some (a, t.cog, t.control.stance, k.stance) := by
    simp [Move.turn, Action.actor?, look_eq m a ht, look_eq m' a ht']
  cases hc : t.control with
  | notify i n after =>
    rw [hc] at hk
    simp only [Machine.act, step, ht, hc, Option.some.injEq] at ha
    subst ha
    exact ⟨after, thread_set _ ht (.same (by simp)), .pending hk (Nat.lt_succ_self _)⟩
  | enrol seat i view' task next' =>
    rw [hc] at hk
    cases hk
    obtain ⟨k, ht', enrols⟩ := enrols ht hc ha
    have turn := turn ht'
    rw [hc] at turn
    cases enrols with
    | starts => exact ⟨_, ht', .pending rfl (Nat.lt_succ_self 3)⟩
    | joins => exact ⟨_, ht', .accepted seat rfl (Move.accepted?_enrol turn)⟩
  | starting stage errand => cases errand with
    | submission seat i view' next' =>
      rw [hc] at hk
      cases hk
      obtain ⟨k, ht', tries⟩ := ho.tries ht hc ha
      have turn := turn ht'
      rw [hc] at turn
      cases tries with
      | numbered => exact ⟨_, ht', .pending rfl (Nat.lt_succ_self 2)⟩
      | entered => exact ⟨_, ht', .pending rfl (Nat.lt_succ_self 1)⟩
      | granted c _ born => exact ⟨_, ht', .accepted seat rfl (Move.accepted?_launch turn born)⟩
      | denied e denied => cases (granted _ _ hc).symm.trans denied
      | unwound c p panics => exact ⟨_, ht', .unwound seat c p rfl panics rfl⟩
    | _ =>
      rw [hc] at hk
      cases hk
  | _ =>
    rw [hc] at hk
    cases hk

/-- What a step of the thread `a` is to its submission. `moves` is what has happened before. -/
structure Machine.Undoes (moves : List (Move S A V)) (m : Machine S A V) (a : Agent) (m' : Machine S A V) :
    Prop where
  /-- A call that finds the registry closed is told so, and uses up a number. -/
  closed {t : Thread S A V} {seat : Option Seat} {g : CogId} {name : String} {task : Body S A V}
    {next : Exit RuntimeError TaskId → Body S A V} : m.threads.get? a = some t →
      t.control = .run seat (.submit g name task next) → m.registry.shutdown = true →
        m' = { m with nextTask := m.nextTask.next }.setControl a (.run seat (next (.error .shutDown)))
  /-- A call that is denied its context is told why, and has come to nothing. -/
  denied {t : Thread S A V} {stage : Stage} {seat : Option Seat} {g : CogId} {view : TaskView}
    {next : Exit RuntimeError TaskId → Body S A V} {e : RuntimeError} : m.threads.get? a = some t →
      t.control = .starting stage (.submission seat g view next) → m.denial? stage = some e →
        m'.threads.get? a = some { t with control := .run seat (next (.error e)) } ∧
          ∃ earlier first later task, moves = earlier ++ first :: later ∧
            Undone a g view task first later ⟨m, .step a, m'⟩
  /-- No other call is answered with an error. -/
  opened {t : Thread S A V} {seat : Option Seat} {g : CogId} {name : String} {task : Body S A V}
    {next : Exit RuntimeError TaskId → Body S A V} : m.threads.get? a = some t →
      t.control = .run seat (.submit g name task next) → m.registry.shutdown = false →
        ∃ view, view.id = m.nextTask ∧
          m'.threads.get? a = some { t with control := .enrol seat g view task next }
  heard {t : Thread S A V} {g : CogId} {view : TaskView} {next : Exit RuntimeError TaskId → Body S A V} :
    m.threads.get? a = some t → t.control.submits? = some (g, view, next) →
      (∀ stage errand, t.control = .starting stage errand → m.denial? stage = none) →
        ∃ k, m'.threads.get? a = some { t with control := k } ∧ Heard m m' a g view next t.control k

/-- In every run, a submission that is answered with an error has come to nothing. -/
theorem refusals_undone (r : Registry) (memory : A) (hr : r.live = []) (h : History (.empty r memory) moves m)
    (ha : m.act (.step a) = some m') : Undoes moves m a m' where
  closed ht hk shut := Option.some.inj (ha.symm.trans (refused_of_closed shut ht hk))
  denied ht hk denied := ⟨h.reachable.ordered.told_denied ha ht hk denied, h.undone hr ha ht hk denied⟩
  opened ht hk opened := by
    cases ha.symm.trans (enrols_of_open opened ht hk)
    exact ⟨_, rfl, thread_set _ ht (.same rfl)⟩
  heard ht hk := h.reachable.ordered.heard ha ht hk

/-- Only the first context can have a thread. -/
def sole : Registry := { namePrefix := "cog", admits := fun c => c = ⟨1⟩ }

/-- The first task has submitted the second and awaits, and no context could be started to run the second
meanwhile. A third is submitted, and its caller is about to ask for the thread of a context. -/
def soleActions : List (Action Nat Unit Unit) :=
  [.found "cog" 0,
    .arrive (.submit ⟨1⟩ "first" (.submit ⟨1⟩ "second" (.exit (.ok ())) fun _ =>
      .await (.field "n > 0" fun n => .ok (0 < n)) fun _ => .exit (.ok ())) fun _ => .exit (.ok ()))] ++
    List.replicate 7 (.step (.caller 1)) ++ List.replicate 9 (.step (.context ⟨1⟩)) ++
    [.arrive (.submit ⟨1⟩ "third" (.exit (.ok ())) fun _ => .exit (.ok ()))] ++
    List.replicate 4 (.step (.caller 2))

def turnedAway : Machine Nat Unit Unit := soleActions.foldl perform (.empty sole ())

def third : TaskView := { id := ⟨3⟩, name := "third", cog := ⟨1⟩, submittedAt := 0 }

theorem refusals_undone_left : ∃ m' earlier first later task,
    turnedAway.act (.step (.caller 2)) = some m' ∧
    (Machine.empty sole ()).moves soleActions = earlier ++ first :: later ∧
    Undone (.caller 2) ⟨1⟩ third task first later ⟨turnedAway, .step (.caller 2), m'⟩ ∧
    (turnedAway.books ⟨1⟩).queued = [⟨2⟩, ⟨3⟩] ∧ (m'.books ⟨1⟩).queued = [⟨2⟩] ∧
    m'.registry.live = [⟨1⟩] := by
  have look : turnedAway.look (.caller 2) = some (none, .submit (.launch ⟨3⟩) none ⟨1⟩ third) := by
    decide +kernel
  have denied : (turnedAway.denial? (.launch ⟨3⟩)).isSome = true := by decide +kernel
  have acts : (turnedAway.act (.step (.caller 2))).map (fun m' =>
      ((m'.books ⟨1⟩).queued, m'.registry.live)) = some ([⟨2⟩], [⟨1⟩]) := by decide +kernel
  obtain ⟨e, denied⟩ := Option.isSome_iff_exists.mp denied
  obtain ⟨m', ha, after⟩ := Option.map_eq_some_iff.mp acts
  obtain ⟨t, ht, -, stance⟩ := look_eq_some _ _ look
  obtain ⟨next, behind⟩ := Control.behind_submit stance
  have history := history_moves (.empty sole ()) soleActions
  have starts := (history.attempt ht behind).1
  have undoes := refusals_undone sole () rfl history ha
  obtain ⟨-, earlier, first, later, task, whole, undone⟩ := undoes.denied ht starts denied
  simp only [Prod.mk.injEq] at after
  exact ⟨m', earlier, first, later, task, ha, whole, undone, by decide +kernel, after.1, after.2⟩

end ObjectGroups
