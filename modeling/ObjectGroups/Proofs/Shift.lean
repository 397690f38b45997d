/-
What an action can do to the stances of threads and to the books of cogs.

`Shift` has one case for each kind of action, with all that a later argument
needs of it, so that none of them opens `step` again. Most actions are a deed
of one thread to one cog: `Deed` lists them with the stance and the cog before
and after. The other threads are at most notified; where a deed ends with a
broadcast, `Tells` says who is. A context gets its thread in a birth.
-/
import ObjectGroups.Proofs.Order
import ObjectGroups.Proofs.Steps

namespace ObjectGroups

variable {S A V : Type}

/-- Moves of a thread that concern no cog. -/
inductive Stance.Quiet (own : Option CogId) : Stance → Stance → Prop where
  | same (s : Stance) : Quiet own s s
  | await (t : TaskId) : Quiet own (.body (some ⟨t, true⟩)) (.release t)
  | leave (seat : Option Seat) : own = none ∨ seat = none → Quiet own (.body seat) .leave
  | strand (t : TaskId) : own.isSome → Quiet own (.body (some ⟨t, false⟩)) (.strand t)
  | start (seat : Option Seat) : Quiet own (.body seat) (.start .check seat)
  | dropped (stage : Stage) (seat : Option Seat) : Quiet own (.start stage seat) (.body seat)
  | enter (s : Stance) (c : ContextId) : s.stage? = some (.register c) →
      Quiet own s (s.restage (.launch c))

/-- What the thread `a`, which works for `own`, does to the cog `g`: its stance
and the cog before and after. The flag says whether it ends with a broadcast. -/
inductive Deed (g : CogId) : (a : Agent) → (own : Option CogId) → Bool →
    Stance → Cog S A V → Stance → Cog S A V → Prop where
  | access {a : Agent} {t : TaskId} {x : Cog S A V} (change : S → S) :
      Deed g a (some g) false (.body (some ⟨t, true⟩)) x (.body (some ⟨t, true⟩))
        { x with state := change x.state }
  | finish {a : Agent} {t : TaskId} {x : Cog S A V} (outcome : TaskOutcome) :
      outcome ≠ .aborted →
      Deed g a (some g) false (.body (some ⟨t, true⟩)) x (.complete t outcome)
        { x with ended := x.ended + 1 }
  | take {c : ContextId} {x : Cog S A V} {t : TaskId} {body : Body S A V}
      {rest : List (TaskId × Body S A V)} (now : Instant) :
      x.lock = none → x.scheduler.active = some c → x.scheduler.queue = (t, body) :: rest →
      Deed g (.context c) (some g) false .claim x (.body (some ⟨t, true⟩))
        { x with scheduler :=
            ({ x.scheduler with queue := rest, activeTask := some t }).markRunning t c now }
  | retire {c : ContextId} {x : Cog S A V} :
      x.lock = none →
      Deed g (.context c) (some g) true .claim x .leave
        { x with scheduler := (x.scheduler.release c).retire }
  | submit {a : Agent} {own : Option CogId} {seat : Option Seat} {view : TaskView} {x : Cog S A V}
      (body : Body S A V) :
      x.lock = none → x.scheduler.active = none →
      Deed g a own false (.enrol seat g view) x (.submit .check seat g view)
        { x with scheduler := x.scheduler.enqueue view body, lock := some a }
  | enqueue {a : Agent} {own : Option CogId} {seat : Option Seat} {view : TaskView} {x : Cog S A V}
      (body : Body S A V) :
      x.lock = none → x.scheduler.active ≠ none →
      Deed g a own true (.enrol seat g view) x (.body seat)
        { x with scheduler := x.scheduler.enqueue view body }
  | withdraw {a : Agent} {own : Option CogId} {stage : Stage} {seat : Option Seat} {view : TaskView}
      {x : Cog S A V} :
      Deed g a own false (.submit stage seat g view) x (.body seat)
        { x with scheduler := x.scheduler.withdraw view.id, lock := none }
  | unwindSubmit {a : Agent} {own : Option CogId} {stage : Stage} {seat : Option Seat}
      {view : TaskView} {x : Cog S A V} :
      Deed g a own false (.submit stage seat g view) x (.body seat) { x with lock := none }
  | suspend {c : ContextId} {t : TaskId} {x : Cog S A V} (label : String) :
      x.lock = none → x.scheduler.queue = [] →
      Deed g (.context c) (some g) true (.release t) x (.wait t)
        { x with scheduler := (x.scheduler.suspend t c label).addWaiter c, lock := none }
  | handOver {c : ContextId} {t : TaskId} {x : Cog S A V} (label : String) :
      x.lock = none → x.scheduler.queue ≠ [] →
      Deed g (.context c) (some g) false (.release t) x (.hand .check t)
        { x with scheduler := x.scheduler.suspend t c label, lock := some (.context c) }
  | handFailed {c : ContextId} {stage : Stage} {t : TaskId} {x : Cog S A V} :
      Deed g (.context c) (some g) true (.hand stage t) x (.wait t)
        { x with scheduler := x.scheduler.addWaiter c, lock := none }
  | unwindHand {a : Agent} {stage : Stage} {t : TaskId} {x : Cog S A V} :
      Deed g a (some g) false (.hand stage t) x (.body (some ⟨t, false⟩)) { x with lock := none }
  | markReady {a : Agent} {t : TaskId} {x : Cog S A V} :
      x.lock = none →
      Deed g a (some g) false (.wait t) x (.wait t)
        { x with scheduler := x.scheduler.markReady t }
  | reenter {c : ContextId} {t : TaskId} {x : Cog S A V} :
      x.lock = none →
      Deed g (.context c) (some g) false (.wait t) x (.contend t)
        { x with scheduler := x.scheduler.removeWaiter c, lock := some (.context c) }
  | wake {a : Agent} {t : TaskId} {x : Cog S A V} :
      x.lock = none →
      Deed g a (some g) false (.wait t) x (.contend t) { x with lock := some a }
  | doze {a : Agent} {t : TaskId} {x : Cog S A V} :
      Deed g a (some g) false (.contend t) x (.wait t) { x with lock := none }
  | abort {c : ContextId} {s : Stance} {t : TaskId} {x : Cog S A V} (now : Instant) :
      s = .contend t ∨ (s = .wait t ∧ x.lock = none) →
      Deed g (.context c) (some g) false s x (.body (some ⟨t, false⟩))
        { x with scheduler := (x.scheduler.abort t c now).2, lock := none }
  | resume {c : ContextId} {t : TaskId} {x : Cog S A V} (now : Instant) :
      x.scheduler.active = none →
      Deed g (.context c) (some g) false (.contend t) x (.body (some ⟨t, true⟩))
        { x with scheduler := x.scheduler.resume t c now, lock := none }
  | unwind {a : Agent} {t : TaskId} {x : Cog S A V} :
      Deed g a (some g) false (.contend t) x (.body (some ⟨t, false⟩)) { x with lock := none }
  | complete {a : Agent} {t : TaskId} {outcome : TaskOutcome} {x : Cog S A V} (now : Instant) :
      x.lock = none →
      Deed g a (some g) true (.complete t outcome) x .claim
        { x with scheduler := (x.scheduler.complete t outcome now).2 }
  | strand {c : ContextId} {t : TaskId} {x : Cog S A V} (now : Instant) :
      x.lock = none →
      Deed g (.context c) (some g) true (.strand t) x .leave
        { x with
          scheduler := ((x.scheduler.removeWaiter c).strand t c now).2
          ended := x.ended + 1 }
  | fade {c : ContextId} {t : TaskId} {x : Cog S A V} :
      x.lock = none →
      Deed g (.context c) (some g) false (.strand t) x .leave
        { x with scheduler := x.scheduler.removeWaiter c }

/-- How the thread `a` goes on once the context `c` that it starts for the
cog `g` has got its thread, and what becomes of the cog. -/
inductive Grant (g : CogId) (c : ContextId) : (a : Agent) → (own : Option CogId) →
    Stance → Cog S A V → Stance → Cog S A V → Prop where
  | submission {a : Agent} {own : Option CogId} {seat : Option Seat} {view : TaskView}
      {x : Cog S A V} :
      Grant g c a own (.submit (.launch c) seat g view) x (.body seat)
        { x with scheduler := x.scheduler.grant c, lock := none }
  | handover {self : ContextId} {t : TaskId} {x : Cog S A V} :
      Grant g c (.context self) (some g) (.hand (.launch c) t) x (.wait t)
        { x with scheduler := (x.scheduler.grant c).addWaiter self, lock := none }

/-- The thread `a`, which works for `own`, goes from one stance to the other. -/
structure Turns (m : Machine S A V) (a : Agent) (own : Option CogId) (s s' : Stance)
    (m' : Machine S A V) : Prop where
  before : m.look a = some (own, s)
  after : m'.look a = some (own, s')
  others : ∀ b, b ≠ a → m.Stirred m' b

/-- What a thread is about to do when it has just been made. -/
def Control.New (k : Control S A V) : Prop := k = .claim ∨ ∃ b, k = .run none b

/-- The same while the context `c` gets its thread. -/
structure Births (m : Machine S A V) (a : Agent) (own : Option CogId) (s s' : Stance)
    (c : ContextId) (cog : Option CogId) (first : Stance) (m' : Machine S A V) : Prop where
  before : m.look a = some (own, s)
  launches : s.stage? = some (.launch c)
  named : Registry.nameable (((m.contexts.get? c).map (·.name)).getD "") = true
  after : m'.look a = some (own, s')
  born : m'.look (.context c) = some (cog, first)
  new : ∀ t, m'.threads.get? (.context c) = some t → t.control.New
  others : ∀ b, b ≠ a → b ≠ .context c → m.Stirred m' b

/-- Of the cogs, `g` alone changes. -/
structure Works (m : Machine S A V) (g : CogId) (x x' : Cog S A V) (m' : Machine S A V) : Prop where
  before : m.cogs.get? g = some x
  after : ∀ h, m'.cogs.get? h = if h = g then some x' else m.cogs.get? h

/-- Who waits in the scheduler of the cog `g` is told, `a` apart. -/
structure Tells (m : Machine S A V) (g : CogId) (x : Cog S A V) (a : Agent)
    (m' : Machine S A V) : Prop where
  slot : ∀ b t, b ≠ a → m.threads.get? b = some t → t.sleepsOn b (.slot g) = true →
    m'.threads.get? b = some t.rouse
  waiter : ∀ c ∈ x.scheduler.waiters, .context c ≠ a →
    (m'.parker (.own c)).permit = true ∧
      ∀ t, m.threads.get? (.context c) = some t →
        t.sleepsOn (.context c) (.parker (.own c)) = true →
          m'.threads.get? (.context c) = some t.rouse

/-- The thread that takes a step. -/
def Action.actor? : Action S A V → Option Agent
  | .step a => some a
  | _ => none

/-- What an action does to threads and cogs, and which thread takes it if one does. -/
inductive Shift (m m' : Machine S A V) : Option Agent → Prop where
  /-- A thread moves, and the cogs do not. -/
  | quiet {a : Agent} {own : Option CogId} {s s' : Stance} :
      Turns m a own s s' m' → s.Quiet own s' → m'.cogs = m.cogs → m'.issue = m.issue → Shift m m' (some a)
  | deed {a : Agent} {own : Option CogId} {g : CogId} {loud : Bool} {s s' : Stance}
      {x x' : Cog S A V} :
      Turns m a own s s' m' → Works m g x x' m' → Deed g a own loud s x s' x' →
      (loud = true → Tells m g x a m') → m'.issue = m.issue → Shift m m' (some a)
  /-- A context gets its number. -/
  | allocate {a : Agent} {own : Option CogId} {s : Stance} :
      Turns m a own s (s.restage (.register m.registry.nextContext)) m' →
      s.stage? = some .check → m'.cogs = m.cogs →
      m'.issue = (m.registry.nextContext.next, m.nextTask, m.nextCog, m.nextCaller) → Shift m m' (some a)
  /-- A context gets its thread, and the slot of a cog along with it. -/
  | birth {a : Agent} {own : Option CogId} {s s' : Stance} {c : ContextId} {g : CogId}
      {x x' : Cog S A V} :
      Births m a own s s' c (some g) .claim m' → Works m g x x' m' → Grant g c a own s x s' x' →
      Tells m g x a m' → m'.issue = m.issue → Shift m m' (some a)
  /-- A context with a body of its own gets its thread. -/
  | launch {a : Agent} {own : Option CogId} {c : ContextId} {seat : Option Seat} :
      Births m a own (.start (.launch c) seat) (.body seat) c none (.body none) m' →
      m'.cogs = m.cogs → m'.issue = m.issue → Shift m m' (some a)
  /-- A task gets its number, and a thread is about to put it into a queue. -/
  | letter {a : Agent} {own : Option CogId} {seat : Option Seat} {s' : Stance} :
      Turns m a own (.body seat) s' m' →
      s' = .body seat ∨ (∃ g view, s' = .enrol seat g view ∧ view.id = m.nextTask ∧
        view.state = .queued ∧ view.context = none) →
      m'.cogs = m.cogs →
      m'.issue = (m.registry.nextContext, m.nextTask.next, m.nextCog, m.nextCaller) →
      Shift m m' (some a)
  /-- A thread ends. -/
  | gone {a : Agent} {own : Option CogId} {s : Stance} :
      m.look a = some (own, s) → s = .leave ∨ ((∃ n, a = .caller n) ∧ ∃ seat, s = .body seat) →
      m'.threads.get? a = none → (∀ b, b ≠ a → m.Stirred m' b) → m'.cogs = m.cogs →
      m'.issue = m.issue → Shift m m' (some a)
  | arrive :
      m'.look (.caller m.nextCaller) = some (none, .body none) →
      (∀ b, b ≠ .caller m.nextCaller → m.Stirred m' b) → m'.cogs = m.cogs →
      m'.issue = (m.registry.nextContext, m.nextTask, m.nextCog, m.nextCaller + 1) →
      (∀ t, m'.threads.get? (.caller m.nextCaller) = some t → t.control.New) → Shift m m' none
  | found (name : String) (state : S) :
      (∀ b, m.Stirred m' b) → m'.cogs = m.cogs.put ⟨m.nextCog⟩ { name, state } →
      m'.issue = (m.registry.nextContext, m.nextTask, m.nextCog + 1, m.nextCaller) → Shift m m' none
  /-- Who listens to a cog or holds it changes. -/
  | furnish {g : CogId} {f : Cog S A V → Cog S A V} :
      m'.threads = m.threads → m'.cogs = m.cogs.modify g f →
      (∀ x, f x = { x with listeners := (f x).listeners, held := (f x).held }) →
      m'.issue = m.issue → Shift m m' none
  /-- Threads may be notified, and nothing else happens to threads and cogs. -/
  | rest :
      (∀ b, m.Stirred m' b) → m'.cogs = m.cogs → m'.issue = m.issue → Shift m m' none

/-! ## Putting a shift together -/

section
variable {m m' : Machine S A V} {a b : Agent} {g : CogId}

theorem Machine.Stirred.look (h : m.Stirred m' b) : m'.look b = m.look b := by
  obtain ⟨p, hp⟩ := h
  exact Machine.look_of_roused m b (p := fun _ => p) hp

theorem Turns.setControl {own : Option CogId} {s s' : Stance} {m₁ : Machine S A V}
    {k : Control S A V} (hl : m.look a = some (own, s)) (hk : k.stance = s')
    (hm : ∀ b, m.Stirred m₁ b) : Turns m a own s s' (m₁.setControl a k) where
  before := hl
  after := by rw [Machine.look_setControl, if_pos rfl, (hm a).look, hl, ← hk]; rfl
  others b hb := (hm b).setControl hb

/-- A broadcast tells who waits, whatever notifications follow. -/
theorem Tells.broadcast {x : Cog S A V} (m₁ : Machine S A V) {m₂ : Machine S A V}
    (k : Control S A V) (ht : ∀ b, m.threads.get? b ≠ none → m.Stirred m₁ b)
    (hy : ∃ y, m₁.cogs.get? g = some y ∧
      ∀ c ∈ x.scheduler.waiters, .context c ≠ a → c ∈ y.scheduler.waiters)
    (hs : ∀ b, (m₁.broadcast g).Stirred m₂ b) (hp : m₂.parkers = (m₁.broadcast g).parkers) :
    Tells m g x a (m₂.setControl a k) := by
  obtain ⟨y, hy, hw⟩ := hy
  have thread (b : Agent) (t : Thread S A V) (hb : b ≠ a) (hbt : m.threads.get? b = some t)
      (hh : t.hears g y.scheduler.waiters b = true) :
      (m₂.setControl a k).threads.get? b = some t.rouse := by
    obtain ⟨p, ht⟩ := ht b (by simp [hbt])
    obtain ⟨q, hs⟩ := hs b
    rw [Machine.thread_setControl, if_neg hb, hs, Machine.thread_broadcast m₁ b g hy, ht, hbt]
    cases p <;> simp [hh]
  constructor
  · intro b t hb hbt hsl
    exact thread b t hb hbt (by simp [Thread.hears, hsl])
  · intro c hc hca
    have hcy := hw c hc hca
    constructor
    · have e : (m₂.setControl a k).parker (.own c) = (m₁.broadcast g).parker (.own c) := by
        show (m₂.parkers.get? _).getD {} = ((m₁.broadcast g).parkers.get? _).getD {}
        rw [hp]
      rw [e, Machine.parker_broadcast m₁ g hy, if_pos ⟨c, hcy, rfl⟩]
      rfl
    · intro t hbt hsl
      exact thread _ t hca hbt (by
        simp only [Thread.hears, Bool.or_eq_true, List.any_eq_true]
        exact .inr ⟨c, hcy, hsl⟩)

theorem Works.here {x x' : Cog S A V} (h : Works m g x x' m') : m'.cogs.get? g = some x' := by
  rw [h.after, if_pos rfl]

theorem Works.elsewhere {x x' : Cog S A V} {i : CogId} (h : Works m g x x' m') (hi : i ≠ g) :
    m'.cogs.get? i = m.cogs.get? i := by
  rw [h.after, if_neg hi]

theorem Works.intro {x x' : Cog S A V} (hx : m.cogs.get? g = some x)
    (hself : m'.cogs.get? g = some x') (hother : ∀ h, h ≠ g → m'.cogs.get? h = m.cogs.get? h) :
    Works m g x x' m' where
  before := hx
  after h := by
    split
    · next e => rw [e, hself]
    · next e => exact hother h e

/-- Only the table of the cogs matters. -/
theorem Works.of_cogs {x x' : Cog S A V} {m₁ : Machine S A V} (h : Works m g x x' m₁) (hc : m'.cogs = m₁.cogs) :
    Works m g x x' m' where
  before := h.before
  after i := by rw [hc, h.after]

/-- A thread that goes on without touching a cog. -/
theorem Shift.step {own : Option CogId} {s s' : Stance} {m₁ : Machine S A V} {k : Control S A V}
    (hl : m.look a = some (own, s)) (hk : k.stance = s') (hm : ∀ b, m.Stirred m₁ b)
    (hc : m₁.cogs = m.cogs) (hi : m₁.issue = m.issue) (hq : s.Quiet own s') :
    Shift m (m₁.setControl a k) (some a) :=
  .quiet (.setControl hl hk hm) hq hc hi

/-- A deed without a broadcast. -/
theorem Shift.mute {own : Option CogId} {s s' : Stance} {x x' : Cog S A V} {m₁ : Machine S A V}
    {k : Control S A V} (hl : m.look a = some (own, s)) (hk : k.stance = s')
    (hm : ∀ b, m.Stirred m₁ b) (works : Works m g x x' m₁) (deed : Deed g a own false s x s' x')
    (hi : m₁.issue = m.issue) : Shift m (m₁.setControl a k) (some a) :=
  .deed (.setControl hl hk hm) (works.of_cogs rfl) deed nofun hi

/-- A deed with a broadcast in `m₁`, after which the thread goes on. -/
theorem Shift.loud {own : Option CogId} {s s' : Stance} {x x' : Cog S A V} (m₁ : Machine S A V)
    {m₂ : Machine S A V} {k : Control S A V} (hl : m.look a = some (own, s)) (hk : k.stance = s')
    (ht : ∀ b, m.Stirred m₁ b) (works : Works m g x x' m₂) (hy : ∃ y, m₁.cogs.get? g = some y ∧
      ∀ c ∈ x.scheduler.waiters, .context c ≠ a → c ∈ y.scheduler.waiters)
    (hs : ∀ b, (m₁.broadcast g).Stirred m₂ b) (hp : m₂.parkers = (m₁.broadcast g).parkers)
    (deed : Deed g a own true s x s' x') (hi : m₂.issue = m.issue) :
    Shift m (m₂.setControl a k) (some a) :=
  .deed (.setControl hl hk fun b => (ht b).broadcast.trans (hs b))
    (works.of_cogs rfl) deed (fun _ => .broadcast m₁ k (fun b _ => ht b) hy hs hp) hi

/-- A deed that ends a task, with a broadcast in `m₁` before the listeners are told. -/
theorem Shift.ending {own : Option CogId} {s : Stance} {x x' : Cog S A V} (m₁ : Machine S A V)
    {m₂ : Machine S A V} {outcome : TaskOutcome} (view : Option TaskView) {after : Control S A V}
    (hl : m.look a = some (own, s)) (ht : ∀ b, m.Stirred m₁ b) (works : Works m g x x' m₂)
    (hy : ∃ y, m₁.cogs.get? g = some y ∧
      ∀ c ∈ x.scheduler.waiters, .context c ≠ a → c ∈ y.scheduler.waiters)
    (hs : m₂.threads = (m₁.broadcast g).threads) (hp : m₂.parkers = (m₁.broadcast g).parkers)
    (deed : Deed g a own true s x after.stance x') (hi : m₂.issue = m.issue) :
    Shift m (m₂.announceEnd a g outcome view after) (some a) := by
  cases view with
  | none => exact .loud m₁ hl rfl ht works hy (fun b => .same hs) hp deed hi
  | some v =>
    exact .loud m₁ hl rfl ht (works.of_cogs rfl) hy (fun b => .notifyAll (.same hs)) hp
      deed hi

end

namespace Machine

variable {m m' : Machine S A V} {a b : Agent} {g : CogId}

/-! ## One function at a time -/

attribute [local simp] cog_onCog onScheduler setLock

theorem shift_signal {own : Option CogId} {seat : Option Seat} {next : Body S A V}
    {signals : List Signal} (hl : m.look a = some (own, .body seat))
    (h : m.SignalStep a seat next signals m') : Shift m m' (some a) := by
  have go {m₁ : Machine S A V} {k : Control S A V} (hm : ∀ b, m.Stirred m₁ b) (hc : m₁.cogs = m.cogs)
      (hi : m₁.issue = m.issue) (hk : k.stance = .body seat) :
      Shift m (m₁.setControl a k) (some a) := .step hl hk hm hc hi (.same _)
  cases h with
  | interrupts => exact go (fun b => .interruptParker (.same rfl)) rfl rfl rfl
  | unparks => exact go (fun b => .unpark (.same rfl)) rfl rfl rfl
  | rings => exact go (fun b => .notifyAll (.same rfl)) rfl rfl rfl
  | through | counts | misses => exact go (fun b => .same rfl) rfl rfl rfl

theorem shift_body (ho : m.Ordered) {own : Option CogId} {seat : Option Seat} {b : Body S A V}
    (hl : m.look a = some (own, .body seat)) (h : m.BodyStep a own seat b m') : Shift m m' (some a) := by
  have go {m₁ : Machine S A V} {k : Control S A V} (ht : m₁.threads = m.threads) (hc : m₁.cogs = m.cogs)
      (hi : m₁.issue = m.issue) (hq : (Stance.body seat).Quiet own k.stance) :
      Shift m (m₁.setControl a k) (some a) := .step hl rfl (fun b => .same ht) hc hi hq
  cases h with
  | quits caller =>
    exact .gone hl (.inr ⟨caller, seat, rfl⟩) (Table.get?_remove_self ..)
      (fun b hb => ⟨false, by simp [Table.get?_remove, hb]⟩) rfl rfl
  | completes _ hg hs | fails _ hg hs =>
    subst hg hs
    obtain ⟨-, x, hx⟩ := ho.home hl
    exact .mute hl rfl (fun b => .same rfl)
      (.intro hx (by simp [hx, report]) fun h e => by simp [e, report]) (.finish _ (by simp)) rfl
  | strands _ hg hs =>
    subst hg hs
    exact go rfl rfl rfl (.strand _ rfl)
  | leaves _ apart => exact go rfl rfl rfl (.leave _ apart)
  | @accesses g x k change next refused hg hs hx =>
    subst hg hs
    exact .mute hl rfl (fun b => .same rfl) (.intro hx (by simp [hx]) fun h e => by simp [e]) (.access change) rfl
  | awaits hs =>
    subst hs
    exact go rfl rfl rfl (.await _)
  | closed => exact .letter (.setControl hl rfl fun b => .same rfl) (.inl rfl) rfl rfl
  | submits =>
    exact .letter (.setControl hl rfl fun b => .same rfl) (.inr ⟨_, _, rfl, rfl, rfl, rfl⟩) rfl rfl
  | starts => exact go rfl rfl rfl (.start seat)
  | _ => exact go rfl rfl rfl (.same _)

/-- The first phase of an await ends with a broadcast in `m₁`. -/
theorem handedOver_eq (m₁ : Machine S A V) (c : ContextId) (aw : Awaiting S A V) :
    ∃ k, m₁.handedOver a c g aw =
        (((m₁.broadcast g).onScheduler g (·.addWaiter c)).setLock g none).setControl a k ∧
      k.stance = .wait aw.task :=
  ⟨_, rfl, stance_announce ..⟩

theorem shift_startFailed (ho : m.Ordered) {own : Option CogId} {stage : Stage} {m₁ : Machine S A V}
    (e : RuntimeError) (errand : Errand S A V) (hl : m.look a = some (own, errand.stance stage))
    (hm : ∀ b, m.Stirred m₁ b) (hc : m₁.cogs = m.cogs) (hi : m₁.issue = m.issue) :
    Shift m (m₁.startFailed a own e errand) (some a) := by
  cases errand with
  | submission seat g view next =>
    obtain ⟨x, hx, -⟩ := ho.locks hl rfl
    exact .mute hl rfl (fun b => (hm b).trans (.same rfl))
      (.intro hx (by simp [hx, hc, report]) fun h e => by simp [e, hc, report]) .withdraw hi
  | handover aw =>
    obtain ⟨g, c, x, rfl, rfl, hx⟩ := ho.home_of_hosts hl rfl
    obtain ⟨k, hk, hs⟩ := handedOver_eq (a := .context c) (g := g)
      (m₁.report (.queueNotStarted (((m₁.cogs.get? g).map (·.name)).getD "") e)) c aw
    simp only [startFailed, Agent.context?]
    rw [hk]
    exact .loud (m₁.report _) hl hs (fun b => (hm b).trans (.same rfl))
      (.intro hx (by simp [hx, hc, report]) fun h e => by simp [e, hc, report])
      ⟨x, hc ▸ hx, fun d hd _ => hd⟩ (fun b => .same rfl) rfl .handFailed (by simp [hi])
  | direct seat label waker main next =>
    exact .step hl rfl hm hc hi (.dropped stage seat)

theorem shift_startUnwound (ho : m.Ordered) {own : Option CogId} {stage : Stage}
    {m₁ : Machine S A V} (p : Payload) (errand : Errand S A V)
    (hl : m.look a = some (own, errand.stance stage))
    (hm : ∀ b, m.Stirred m₁ b) (hc : m₁.cogs = m.cogs) (hi : m₁.issue = m.issue) :
    Shift m (m₁.startUnwound a own p errand) (some a) := by
  cases errand with
  | submission seat g view next =>
    obtain ⟨x, hx, -⟩ := ho.locks hl rfl
    exact .mute hl rfl (fun b => (hm b).trans (.same rfl))
      (.intro hx (by simp [hx, hc]) fun h e => by simp [e, hc]) .unwindSubmit hi
  | handover aw =>
    obtain ⟨g, c, x, rfl, rfl, hx⟩ := ho.home_of_hosts hl rfl
    exact .mute hl rfl (fun b => (hm b).trans (.same rfl))
      (.intro hx (by simp [hx, hc]) fun h e => by simp [e, hc]) .unwindHand hi
  | direct seat label waker main next =>
    exact .step hl rfl hm hc hi (.dropped stage seat)

theorem Births.setControl {own : Option CogId} {s s' : Stance} {c : ContextId}
    {m₁ : Machine S A V} {t : Thread S A V} {k : Control S A V} (hl : m.look a = some (own, s))
    (hs : s.stage? = some (.launch c))
    (hn : Registry.nameable (((m.contexts.get? c).map (·.name)).getD "") = true)
    (hk : k.stance = s') (hc : m.look (.context c) = none)
    (hm : ∀ b, Stirred { m with threads := m.threads.put (.context c) t } m₁ b)
    (hnew : t.control.New) : Births m a own s s' c t.cog t.control.stance (m₁.setControl a k) := by
  have hac : .context c ≠ a := fun e => by simp [e, hl] at hc
  have look (b : Agent) : m₁.look b =
      if b = .context c then some (t.cog, t.control.stance) else m.look b := by
    rw [(hm b).look]
    simp only [Machine.look, Table.get?_put]
    split <;> rfl
  constructor
  · exact hl
  · exact hs
  · exact hn
  · rw [look_setControl, if_pos rfl, look, if_neg hac.symm, hl, ← hk]
    rfl
  · rw [look_setControl, if_neg hac, look, if_pos rfl]
  · intro t' ht'
    obtain ⟨p, hp⟩ := hm (.context c)
    rw [thread_setControl, if_neg hac, hp] at ht'
    simp only [Table.get?_put_self, Option.map_some, Option.some.injEq] at ht'
    subst ht'
    rcases hnew with e | ⟨body, e⟩
    · left
      cases p <;> simp [e, Control.rouse]
    · right
      exact ⟨body, by cases p <;> simp [e, Control.rouse]⟩
  · intro b hb hbc
    refine Stirred.setControl hb (.trans ?_ (hm b))
    exact ⟨false, by simp [Table.get?_put, hbc]⟩

theorem shift_startSucceeded (ho : m.Ordered) {own : Option CogId} {c : ContextId}
    {m₁ : Machine S A V} (errand : Errand S A V)
    (hl : m.look a = some (own, errand.stance (.launch c)))
    (hn : Registry.nameable (((m.contexts.get? c).map (·.name)).getD "") = true)
    (ht : m₁.threads = m.threads.put (.context c) (m.newcomer own errand).2.2)
    (hc : m₁.cogs = m.cogs) (hi : m₁.issue = m.issue) :
    Shift m (m₁.startSucceeded a own c errand) (some a) := by
  have fresh := ho.unlaunched hl (errand.stage?_stance _)
  have absent : m.threads.get? (.context c) = none := by simpa [look] using fresh
  -- The new thread is nobody who could be told anything.
  have known (b : Agent) (hb : m.threads.get? b ≠ none) : m.Stirred m₁ b := by
    have hbc : b ≠ .context c := fun e => hb (e ▸ absent)
    exact ⟨false, by simp [ht, Table.get?_put, hbc]⟩
  have births {s' : Stance} {m₂ : Machine S A V} {k : Control S A V} (hk : k.stance = s')
      (hnew : (m.newcomer own errand).2.2.control.New) (hm : ∀ b, m₁.Stirred m₂ b) :=
    Births.setControl hl (by simp) hn hk fresh (fun b =>
      (Stirred.same (m := { m with threads := m.threads.put _ _ }) ht).trans (hm b)) hnew
  cases errand with
  | submission seat g view next =>
    obtain ⟨x, hx, -⟩ := ho.locks hl rfl
    simp only [startSucceeded]
    exact .birth (births rfl (.inl rfl) fun b => .broadcast (.same rfl))
      (.intro hx (by simp [hx, hc]) fun h e => by simp [e, hc]) .submission
      (.broadcast (m₁.onScheduler g (·.grant c)) _ known
        ⟨_, cog_onCog_self _ _ _ (hc ▸ hx), fun d hd _ => hd⟩ (fun b => .same rfl) rfl)
      (by simp [hi])
  | handover aw =>
    obtain ⟨g, self, x, rfl, rfl, hx⟩ := ho.home_of_hosts hl rfl
    obtain ⟨k, hk, hs⟩ := handedOver_eq (a := .context self) (g := g)
      (m₁.onScheduler g (·.grant c)) self aw
    simp only [startSucceeded, Agent.context?]
    rw [hk]
    exact .birth (births hs (.inl rfl) fun b => .broadcast (.same rfl))
      (.intro hx (by simp [hx, hc]) fun h e => by simp [e, hc]) .handover
      (.broadcast (m₁.onScheduler g (·.grant c)) _ known
        ⟨_, cog_onCog_self _ _ _ (hc ▸ hx), fun d hd _ => hd⟩ (fun b => .same rfl) rfl)
      (by simp [hi])
  | direct seat label waker main next =>
    exact .launch (births rfl (.inr ⟨main, rfl⟩) fun b => .same rfl) hc hi

theorem shift_start (ho : m.Ordered) {own : Option CogId} {stage : Stage} {errand : Errand S A V}
    (hl : m.look a = some (own, errand.stance stage)) (h : m.StartStep a own errand stage m') :
    Shift m m' (some a) := by
  cases h with
  | closed => exact shift_startFailed ho _ errand hl (fun b => .same rfl) rfl rfl
  | numbers =>
    have restaged : (errand.stance .check).restage (.register m.registry.nextContext) = _ :=
      errand.restage_stance _ _
    exact .allocate (.setControl hl restaged.symm fun b => .same rfl) (by simp) rfl rfl
  | @enters c =>
    have quiet : (errand.stance (.register c)).Quiet own _ := .enter _ c (by simp)
    rw [Errand.restage_stance] at quiet
    exact .step hl rfl (fun b => .same rfl) rfl rfl quiet
  | panics => exact shift_startUnwound ho _ errand hl (fun b => .strike (.same rfl)) (by simp) (by simp)
  | refused => exact shift_startFailed ho _ errand hl (fun b => .strike (.same rfl)) (by simp) (by simp)
  | granted named => exact shift_startSucceeded ho errand hl named rfl rfl rfl

theorem shift_abort {c : ContextId} {x : Cog S A V} {aw : Awaiting S A V} {s : Stance}
    (hl : m.look (.context c) = some (some g, s)) (hx : m.cogs.get? g = some x)
    (hs : s = .contend aw.task ∨ (s = .wait aw.task ∧ x.lock = none)) :
    Shift m (m.abort (.context c) c g x aw) (some (.context c)) := by
  have deed := Deed.abort (g := g) (c := c) (x := x) m.now hs
  unfold abort
  cases hk : x.scheduler.abort aw.task c m.now with
  | mk view scheduler =>
    rw [hk] at deed
    have works : Works m g x { x with scheduler, lock := none }
        (m.onCog g fun y => { y with scheduler, lock := none }) :=
      .intro hx (by simp [hx]) fun h e => by simp [e]
    cases view with
    | none => exact .mute hl rfl (fun b => .same rfl) works deed rfl
    | some v =>
      exact .mute hl rfl (fun b => .notifyAll (.same rfl)) (works.of_cogs rfl) deed rfl

theorem shift_takeSlot {c : ContextId} {x : Cog S A V} {aw : Awaiting S A V} {m₁ : Machine S A V}
    (failure : Option GuardError) (hl : m.look (.context c) = some (some g, .contend aw.task))
    (hx : m.cogs.get? g = some x) (ha : x.scheduler.active = none) (ht : m₁.threads = m.threads)
    (hc : m₁.cogs = m.cogs) (hi : m₁.issue = m.issue) :
    Shift m (m₁.takeSlot (.context c) c g x aw failure) (some (.context c)) :=
  .mute hl (stance_announce ..) (fun b => .same ht)
    (.intro hx (by simp [hx, hc]) fun h e => by simp [e, hc]) (.resume m₁.now ha) hi

theorem shift_await {c : ContextId} {x : Cog S A V} {aw : Awaiting S A V} {phase : Phase S}
    (hl : m.look (.context c) = some (some g, phase.stance aw.task)) (hx : m.cogs.get? g = some x)
    (h : m.AwaitStep c g x aw phase m') : Shift m m' (some (.context c)) := by
  cases h with
  | handsOver free empty =>
    obtain ⟨k, hk, hs⟩ := handedOver_eq (a := .context c) (g := g)
      (m.onScheduler g (·.suspend aw.task c aw.label)) c aw
    rw [hk]
    exact .loud (m.onScheduler g (·.suspend aw.task c aw.label)) hl hs (fun b => .same rfl)
      (.intro hx (by simp [hx]) fun h e => by simp [e])
      ⟨_, cog_onCog_self _ _ _ hx, fun d hd _ => by simpa using hd⟩ (fun b => .same rfl) rfl
      (.suspend aw.label free empty) (by simp)
  | handsOn free queued =>
    exact .mute hl rfl (fun b => .same rfl) (.intro hx (by simp [hx]) fun h e => by simp [e])
      (.handOver aw.label free queued) rfl
  | marks free =>
    exact .mute hl (stance_announce ..) (fun b => .same rfl)
      (.intro hx (by simp [hx]) fun h e => by simp [e]) (.markReady free) rfl
  | reenters free | reentersFailed free =>
    exact .mute hl rfl (fun b => .same rfl) (.intro hx (by simp [hx]) fun h e => by simp [e])
      (.reenter free) rfl
  | aborts => exact shift_abort hl hx (.inl rfl)
  | abandons free => exact shift_abort hl hx (.inr ⟨rfl, free⟩)
  | returns _ idle | resumes _ idle | fails _ idle => exact shift_takeSlot _ hl hx idle rfl rfl rfl
  | unwinds =>
    exact .mute hl rfl (fun b => .same rfl) (.intro hx (by simp [hx, turned]) fun h e => by simp [e, turned])
      .unwind rfl
  | aims | aimFails | sleeps =>
    exact .mute hl rfl (fun b => .same rfl) (.intro hx (by simp [hx, turned]) fun h e => by simp [e, turned])
      .doze rfl
  | wakes free =>
    exact .mute hl rfl (fun b => .same rfl) (.intro hx (by simp [hx]) fun h e => by simp [e]) (.wake free) rfl
  | _ => exact .step hl rfl (fun b => .same rfl) rfl rfl (.same _)

theorem shift_step (ho : m.Ordered) (h : m.step a = some m') : Shift m m' (some a) := by
  obtain ⟨t, ht, took⟩ := step_cases h
  have hl := look_eq m a ht
  generalize t.control = k at hl took
  generalize t.cog = own at hl took
  have go {m₁ : Machine S A V} {k' : Control S A V} (hk : k'.stance = k.stance)
      (hth : m₁.threads = m.threads) (hc : m₁.cogs = m.cogs) (hi : m₁.issue = m.issue) :
      Shift m (m₁.setControl a k') (some a) := .step hl hk (fun b => .same hth) hc hi (.same _)
  cases took with
  | runs took => exact shift_body ho hl took
  | @enlists seat g view task next x hx free idle =>
    exact .mute hl rfl (fun b => .same rfl) (.intro hx (by simp [hx]) fun h e => by simp [e])
      (.submit task free idle) rfl
  | @joins seat g view task next x hx free busy =>
    exact .loud (m.onScheduler g (·.enqueue view task)) hl rfl (fun b => .same rfl)
      (.intro hx (by simp [hx]) fun h e => by simp [e]) ⟨_, cog_onCog_self _ _ _ hx, fun d hd _ => hd⟩
      (fun b => .same rfl) rfl (.enqueue task free busy) (by simp)
  | starts took => exact shift_start ho hl took
  | awaits ha hg hx took =>
    subst ha hg
    exact shift_await hl hx took
  | takes ha hg hx free active opened queue =>
    subst ha hg
    exact .mute hl rfl (fun b => .same rfl) (.intro hx (by simp [hx]) fun h e => by simp [e])
      (.take m.now free active queue) rfl
  | @retires c g x ha hg hx free =>
    subst ha hg
    refine .loud (m.onScheduler g fun _ => (x.scheduler.release c).retire) hl rfl (fun b => .same rfl)
      (.intro hx (by simp [hx]) fun h e => by simp [e]) ⟨_, cog_onCog_self _ _ _ hx, fun d hd _ => ?_⟩
      (fun b => .same rfl) rfl (.retire free) (by simp)
    simpa [Scheduler.retire] using hd
  | @completes g x k outcome hg hx free =>
    subst hg
    exact .ending (m.onScheduler g fun _ => (x.scheduler.complete k outcome m.now).2) _ hl
      (fun b => .same rfl) (.intro hx (by simp [hx]) fun h e => by simp [e])
      ⟨_, cog_onCog_self _ _ _ hx, fun d hd _ => (x.scheduler.waiters_complete k outcome m.now).symm ▸ hd⟩
      rfl rfl (.complete m.now free) (by simp)
  | @strands c g x k ha hg hx free =>
    subst ha hg
    refine .ending (m.onCog g fun y => { y with
        scheduler := ((x.scheduler.removeWaiter c).strand k c m.now).2, ended := y.ended + 1 }) _ hl
      (fun b => .same rfl) (.intro hx (by simp [hx, report]) fun h e => by simp [e, report])
      ⟨_, cog_onCog_self _ _ _ hx, fun d hd hdc => ?_⟩ rfl rfl (.strand m.now free)
      ((issue_broadcast ..).trans rfl)
    rw [Scheduler.waiters_strand, Scheduler.mem_removeWaiter]
    exact ⟨fun e => hdc (congrArg _ e), hd⟩
  | fades ha hg hx free =>
    subst ha hg
    exact .mute hl rfl (fun b => .same rfl) (.intro hx (by simp [hx]) fun h e => by simp [e]) (.fade free) rfl
  | leaves ha =>
    subst ha
    refine .gone hl (.inl rfl) ?_ (fun b hb => .strike ⟨false, by simp [Table.get?_remove, hb]⟩)
      (cogs_strike ..) (issue_strike ..)
    simp [thread_strike]
  | departs =>
    exact .gone hl (.inl rfl) (Table.get?_remove_self ..)
      (fun b hb => ⟨false, by simp [Table.get?_remove, hb]⟩) rfl rfl
  | tells => exact go rfl (threads_deliver ..) (cogs_deliver ..) (issue_deliver ..)
  | sends took => exact shift_signal hl took
  | _ => exact go rfl rfl rfl rfl

theorem shift_act (ho : m.Ordered) {act : Action S A V} (h : m.act act = some m') :
    Shift m m' act.actor? := by
  cases act with
  | step a => exact shift_step ho h
  | pass d => cases h; exact .rest (fun b => .same rfl) rfl rfl
  | spurious a =>
    cases h
    refine .rest (fun b => ⟨b = a, ?_⟩) rfl rfl
    simp only [Table.get?_modify]
    split
    · next e => simp [e, Thread.rouse]
    · next e => simp [e]
  | arrive b =>
    cases h
    refine .arrive ?_ (fun b hb => ⟨false, ?_⟩) rfl rfl fun t ht => ?_
    · simp [look, arrive, Control.stance]
    · simp [arrive, Table.get?_put, hb]
    · simp only [arrive, Table.get?_put_self, Option.some.injEq] at ht
      exact .inr ⟨b, by rw [← ht]⟩
  | memory change => cases h; exact .rest (fun b => .same rfl) rfl rfl
  | found name state => cases h; exact .found name state (fun b => .same rfl) rfl rfl
  | listen c l =>
    cases h
    exact .furnish (f := fun g => { g with listeners := g.listeners ++ [l] }) rfl rfl
      (fun x => rfl) rfl
  | drop c =>
    cases h
    exact .furnish (f := fun g => { g with held := false }) rfl rfl (fun x => rfl) rfl
  | release => cases h; exact .rest (fun b => .same rfl) rfl rfl
  | count n =>
    simp only [act] at h
    split at h
    · cases h
    · cases h; exact .rest (fun b => .same rfl) rfl rfl
  | forget n => cases h; exact .rest (fun b => .same rfl) rfl rfl

end Machine

end ObjectGroups
