/-
Tasks are claimed in the order in which they were accepted.

What a cog has accepted is what its contexts have claimed, followed by what is
in its queue. The equation holds whenever the lock of the scheduler is free.
While a thread holds it to start a context for the task it has just put into
the queue, this task stands at the end and is not accepted yet: if the start
fails it is taken back, and nobody else has touched the queue meanwhile.

A panic over the name of the new thread undoes nothing, and the task is left
in the queue although the submission has failed; so names have to be ones that
the system takes.
-/
import ObjectGroups.Proofs.Ledger

namespace ObjectGroups

variable {S A V : Type} {m m' : Machine S A V} {a : Agent} {g : CogId}
  {own : Option CogId} {s s' : Stance} {x x' : Cog S A V} {move : Action S A V} {t : TaskId}
  {taken started : List TaskId}

open Machine

namespace Machine

/-- Every context has a name that a thread can have. -/
def Nameable (m : Machine S A V) : Prop := ∀ e ∈ m.contexts, Registry.nameable e.2.name = true

instance (m : Machine S A V) : Decidable m.Nameable :=
  inferInstanceAs (Decidable (∀ e ∈ m.contexts, Registry.nameable e.2.name = true))

/-- A thread has put the task into the queue of the cog, and does not know yet
whether it is accepted. -/
def Offers (m : Machine S A V) (g : CogId) (t : TaskId) : Prop :=
  ∃ a own s, m.look a = some (own, s) ∧ s.offers g = some t

/-- The task has its number and is not on its way into a queue. -/
structure Posted (m : Machine S A V) (t : TaskId) : Prop where
  numbered : t.val < m.nextTask.val
  arrived : ∀ a own s, m.look a = some (own, s) → s.letter? ≠ some t

/-- What has been accepted and claimed accounts for the queue of the cog. -/
structure Account (m : Machine S A V) (g : CogId) (x : Cog S A V) (taken started : List TaskId) :
    Prop where
  tidy : x.scheduler.Tidy started
  posted : ∀ t ∈ started ++ x.scheduler.queued, m.Posted t
  settled : (∀ t, ¬ m.Offers g t) → taken = started ++ x.scheduler.queued
  pending : ∀ t, m.Offers g t → ∃ q, x.scheduler.queued = q ++ [t] ∧ taken = started ++ q

structure Accounts (m : Machine S A V) (g : CogId) (taken started : List TaskId) : Prop where
  /-- Nothing has happened to a task that is on its way into a queue. -/
  fresh {a : Agent} {own : Option CogId} {seat : Option Seat} {i : CogId} {view : TaskView} :
    m.look a = some (own, .enrol seat i view) → view.state = .queued ∧ view.context = none
  absent : m.cogs.get? g = none → taken = [] ∧ started = []
  present {x : Cog S A V} : m.cogs.get? g = some x → m.Account g x taken started

end Machine

/-! ## Letters -/

theorem Machine.Posted.kept {actor : Option Agent} (h : m.Posted t) (shift : Shift m m' actor) :
    m'.Posted t where
  numbered := Nat.lt_of_lt_of_le h.numbered shift.issues.task
  arrived := by
    intro a own s hl hs
    cases s with
    | enrol seat i view =>
      rcases shift.enrol hl with hl | ⟨-, new, -⟩
      · exact h.arrived a own _ hl hs
      · -- A new letter has the next number.
        obtain rfl : view.id = t := Option.some.inj hs
        have old := h.numbered
        rw [new] at old
        exact Nat.lt_irrefl _ old
    | _ => cases hs

/-- A letter that has been put into a queue is on its way no more. -/
theorem Machine.Ordered.posted (ho : m.Ordered) {actor : Option Agent} (shift : Shift m m' actor)
    (ht : Turns m a own s s' m') (hs : s.letter? = some t) (hs' : s'.letter? = none) :
    m'.Posted t where
  numbered := by
    have old := ho.newTask (p := .letter a) ⟨own, s, ht.before, hs⟩
    exact Nat.lt_of_lt_of_le old shift.issues.task
  arrived := by
    intro b own₁ s₁ hb hs₁
    rcases ht.cases hb with ⟨-, -, rfl⟩ | ⟨hne, hb⟩
    · rw [hs'] at hs₁
      cases hs₁
    · have same := ho.berth (p := .letter b) (q := .letter a) ⟨own₁, s₁, hb, hs₁⟩
        ⟨own, s, ht.before, hs⟩
      cases same
      exact hne rfl

/-! ## Offers -/

/-- Who offers a task holds the lock. -/
theorem Machine.Ordered.lock_of_offers (ho : m.Ordered) (hl : m.look a = some (own, s))
    (hs : s.offers g = some t) (hx : m.cogs.get? g = some x) : x.lock = some a := by
  obtain ⟨hlock, -⟩ := Stance.offers_lock hs own
  obtain ⟨y, hy, lock, -⟩ := ho.locks hl hlock
  cases hx.symm.trans hy
  exact lock

theorem Machine.Ordered.no_offers (ho : m.Ordered) (hx : m.cogs.get? g = some x)
    (hlock : x.lock = none) (t : TaskId) : ¬ m.Offers g t := by
  rintro ⟨a, own, s, hl, hs⟩
  have lock := ho.lock_of_offers hl hs hx
  rw [hlock] at lock
  cases lock

/-- Of one cog, one task is offered at a time, by the thread with the lock. -/
theorem Machine.Ordered.offers_unique (ho : m.Ordered) (hx : m.cogs.get? g = some x)
    (hl : m.look a = some (own, s)) (hlock : x.lock = some a) {k : TaskId} (h : m.Offers g k) :
    s.offers g = some k := by
  obtain ⟨b, own₁, s₁, hb, hs⟩ := h
  have lock := ho.lock_of_offers hb hs hx
  obtain rfl := Option.some.inj (hlock.symm.trans lock)
  cases hl.symm.trans hb
  exact hs

theorem Beside.offers (h : ∀ b, Beside g (m.look b) (m'.look b)) : m'.Offers g t ↔ m.Offers g t := by
  constructor
  · rintro ⟨a, own, s', hl, hs⟩
    rcases (h a).before hl with ⟨s, hl, alike⟩ | ⟨-, rfl | rfl⟩
    · exact ⟨a, own, s, hl, alike.offers ▸ hs⟩
    · cases hs
    · cases hs
  · rintro ⟨a, own, s, hl, hs⟩
    rcases (h a).after hl with ⟨s', hl, alike⟩ | rfl | ⟨-, seat, rfl⟩
    · exact ⟨a, own, s', hl, alike.offers.trans hs⟩
    · cases hs
    · cases hs

/-- A thread that offers nothing before or after changes no offers. -/
theorem Turns.offers (ht : Turns m a own s s' m') (hs : s.offers g = none) (hs' : s'.offers g = none) :
    m'.Offers g t ↔ m.Offers g t := by
  constructor
  · rintro ⟨b, own₁, s₁, hb, h⟩
    rcases ht.cases hb with ⟨-, -, rfl⟩ | ⟨-, hb⟩
    · rw [hs'] at h
      cases h
    · exact ⟨b, own₁, s₁, hb, h⟩
  · rintro ⟨b, own₁, s₁, hb, h⟩
    by_cases hba : b = a
    · rw [hba, ht.before] at hb
      cases hb
      rw [hs] at h
      cases h
    · exact ⟨b, own₁, s₁, by rw [ht.look, if_neg hba, hb], h⟩

/-! ## Deeds to the queue -/

/-- What a deed of the thread `a` does to the queue of the cog. -/
inductive Queues (a : Agent) (g : CogId) (s : Stance) (x : Cog S A V) (s' : Stance) (x' : Cog S A V) :
    Prop where
  | same : s.offers g = none → s'.offers g = none → s.posts s' = none → s.claims s' = none →
      x'.scheduler.queued = x.scheduler.queued → Queues a g s x s' x'
  | take (c : ContextId) (k : TaskId) : a = .context c → x.scheduler.active = some c →
      x.lock = none → x'.lock = none → s.posts s' = none →
      s.claims s' = some k → x.scheduler.queued = k :: x'.scheduler.queued → Queues a g s x s' x'
  | offer (k : TaskId) : x.lock = none → x'.lock = some a → s.letter? = some k →
      s'.letter? = none → s'.offers g = some k → s.posts s' = none → s.claims s' = none →
      x'.scheduler.queued = x.scheduler.queued ++ [k] → Queues a g s x s' x'
  | accept (k : TaskId) : x.lock = none → x'.lock = none → s.letter? = some k →
      s'.letter? = none → s.posts s' = some k → s.claims s' = none →
      x'.scheduler.queued = x.scheduler.queued ++ [k] → Queues a g s x s' x'
  | withdraw (k : TaskId) : s.offers g = some k → x'.lock = none → s.posts s' = none →
      s.claims s' = none → x'.scheduler.queued = x.scheduler.queued.dropLast → Queues a g s x s' x'
  /-- The start has panicked, and the task is left behind. -/
  | forsake {stage : Stage} {seat : Option Seat} {view : TaskView} :
      s = .submit stage seat g view → s' = .body seat → x'.lock = none →
      x'.scheduler = x.scheduler → Queues a g s x s' x'

theorem Deed.queues {loud : Bool} (h : Deed g a own loud s x s' x') : Queues a g s x s' x' := by
  cases h with
  | take now hlock hc hq =>
    exact .take _ _ rfl hc hlock hlock rfl rfl (by simp [Scheduler.queued, hq])
  | submit body hlock =>
    exact .offer _ hlock rfl rfl rfl (if_pos rfl) rfl rfl (by simp [Scheduler.queued, Scheduler.enqueue])
  | enqueue body hlock =>
    exact .accept _ hlock hlock rfl rfl rfl rfl (by simp [Scheduler.queued, Scheduler.enqueue])
  | withdraw =>
    exact .withdraw _ (if_pos rfl) rfl rfl rfl (by simp [Scheduler.queued, Scheduler.withdraw])
  | unwindSubmit => exact .forsake rfl rfl rfl rfl
  | abort now hs =>
    rcases hs with rfl | ⟨rfl, -⟩ <;> exact .same rfl rfl rfl rfl (by simp [Scheduler.queued])
  | _ =>
    refine .same rfl rfl rfl rfl ?_
    simp [Scheduler.queued, Scheduler.addWaiter, Scheduler.markReady, Scheduler.removeWaiter,
      Scheduler.retire]

/-! ## Answers to submissions -/

/-- The submission in progress: the cog, the task, and what the submitter does once it is answered. -/
def Control.submits? (k : Control S A V) :
    Option (CogId × TaskView × (Exit RuntimeError TaskId → Body S A V)) :=
  match k.behind with
  | .enrol _ g view _ next => some (g, view, next)
  | .starting _ (.submission _ g view next) => some (g, view, next)
  | _ => none

theorem Control.submits?_body {k : Control S A V} {seat : Option Seat}
    (h : k.stance = .body seat) : k.submits? = none := by
  induction k with
  | notify i n after ih => exact ih h
  | enrol => cases h
  | starting stage e => cases e with
    | submission => cases h
    | _ => rfl
  | _ => rfl

theorem Control.submits?_submit {k : Control S A V} {stage : Stage} {seat : Option Seat}
    {view : TaskView} (h : k.stance = .submit stage seat g view) :
    ∃ next, k.submits? = some (g, view, next) := by
  induction k with
  | notify i n after ih => exact ih h
  | awaiting aw phase => cases phase <;> cases h
  | starting stage e => cases e with
    | submission seat i view next =>
      cases h
      exact ⟨next, rfl⟩
    | _ => cases h
  | _ => cases h

/-- What a step of the thread `a` makes of its submission to the cog `g`. `k` is what it does next. -/
inductive Submitted (m m' : Machine S A V) (a : Agent) (g : CogId) (x : Cog S A V) (view : TaskView)
    (next : Exit RuntimeError TaskId → Body S A V) (k : Control S A V) : Prop where
  | pending : k.submits? = some (g, view, next) → Submitted m m' a g x view next k
  /-- The submitter gets the task, whose acceptance is seen in this move. -/
  | accepted {seat : Option Seat} : k.behind = .run seat (next (.ok view.id)) →
      (⟨m, .step a, m'⟩ : Move S A V).accepted? g = some view.id → Submitted m m' a g x view next k
  | refused {seat : Option Seat} (e : RuntimeError) : k = .run seat (next (.error e)) →
      m'.cogs.get? g = some { x with scheduler := x.scheduler.withdraw view.id, lock := none } →
      Submitted m m' a g x view next k
  | panicked {seat : Option Seat} (p : Payload) : k = .run seat (next (.panic p)) → ¬ m.Nameable →
      Submitted m m' a g x view next k

theorem Machine.Nameable.getD (h : m.Nameable) (c : ContextId) :
    Registry.nameable (((m.contexts.get? c).map (·.name)).getD "") = true := by
  cases hc : m.contexts.get? c with
  | none =>
    show Registry.nameable "" = true
    decide +kernel
  | some y => exact h _ (Table.mem_of_get? hc)

theorem Machine.stepStart_granted {own : Option CogId} {c : ContextId} {e : Errand S A V}
    (named : Registry.nameable (((m.contexts.get? c).map (·.name)).getD "") = true)
    (admitted : m.registry.admits c = true) :
    m.stepStart a own (.launch c) e =
      { m with
        threads := m.threads.put (.context c) (m.newcomer own e).2.2
        registry := m.registry.countStarted }.startSucceeded a own c e := by
  simp [stepStart, named, admitted]

/-- Once the new context has its thread, the submitter goes on with the number of its task. -/
theorem Machine.Ordered.launched (ho : m.Ordered) {cog : Option CogId} {c : ContextId} {seat : Option Seat}
    {view : TaskView} {next : Exit RuntimeError TaskId → Body S A V}
    (ht : m.threads.get? a = some ⟨cog, .starting (.launch c) (.submission seat g view next)⟩)
    (named : Registry.nameable (((m.contexts.get? c).map (·.name)).getD "") = true)
    (admitted : m.registry.admits c = true) :
    (m.stepStart a cog (.launch c) (.submission seat g view next)).threads.get? a =
        some ⟨cog, announce g .added (some view) (.run seat (next (.ok view.id)))⟩ ∧
      ((m.stepStart a cog (.launch c) (.submission seat g view next)).look (.context c)).isSome := by
  let m₁ : Machine S A V :=
    { m with
      threads := m.threads.put (.context c) { cog := some g, control := .claim }
      registry := m.registry.countStarted }
  have other : .context c ≠ a := by
    rintro rfl
    obtain ⟨-, absent, -⟩ := ho.newcomer (look_eq m _ ht) (c := c) rfl
    simp [look, ht] at absent
  have kept : m.Stirred m₁ a := ⟨false, by simp [m₁, Table.get?_put, other.symm]⟩
  have told (b : Agent) : m₁.Stirred ((m₁.onScheduler g (·.grant c)).broadcast g) b :=
    .broadcast (.same rfl)
  have told (b : Agent) :
      m₁.Stirred (((m₁.onScheduler g (·.grant c)).broadcast g).setLock g none) b :=
    (told b).trans (.same rfl)
  have born : m.stepStart a cog (.launch c) (.submission seat g view next) =
      (((m₁.onScheduler g (·.grant c)).broadcast g).setLock g none).setControl a
        (announce g .added (some view) (.run seat (next (.ok view.id)))) :=
    (stepStart_granted named admitted).trans rfl
  rw [born]
  refine ⟨thread_set _ ht (kept.trans (told a)), ?_⟩
  rw [look_setControl, if_neg other, (told _).look]
  simp [m₁, look]

/-- A submission goes on until it is answered, with its task just if it is accepted. -/
theorem Machine.Ordered.submission (ho : m.Ordered) {t : Thread S A V} {view : TaskView}
    {next : Exit RuntimeError TaskId → Body S A V} (ht : m.threads.get? a = some t)
    (hk : t.control.submits? = some (g, view, next)) (hx : m.cogs.get? g = some x)
    (h : m.step a = some m') :
    ∃ k, m'.threads.get? a = some { t with control := k } ∧ Submitted m m' a g x view next k := by
  have turn {k : Control S A V} (ht' : m'.threads.get? a = some { t with control := k }) :
      (⟨m, .step a, m'⟩ : Move S A V).turn = some (a, t.cog, t.control.stance, k.stance) := by
    simp [Move.turn, Action.actor?, look_eq m a ht, look_eq m' a ht']
  have took := step_of ht h
  generalize hc : t.control = control at hk took
  cases took with
  | tells => exact ⟨_, thread_set _ ht (.same (by simp)), .pending hk⟩
  | enlists =>
    cases hk
    exact ⟨_, thread_set _ ht (.same rfl), .pending rfl⟩
  | @joins seat i view' task =>
    cases hk
    have told : m.Stirred ((m.onScheduler g (·.enqueue view task)).broadcast g) a := .broadcast (.same rfl)
    have ht' := thread_set (announce g .added (some view) (.run seat (next (.ok view.id)))) ht told
    have turn := turn ht'
    rw [hc] at turn
    exact ⟨_, ht', .accepted rfl (Move.accepted?_enrol turn)⟩
  | @starts stage e _ took => cases e with
    | submission seat i view' next' =>
      cases hk
      have failed {m₁ : Machine S A V} (e : RuntimeError) (hm : m.Stirred m₁ a) (hc : m₁.cogs = m.cogs) :
          (m₁.startFailed a t.cog e (.submission seat g view next)).threads.get? a =
              some { t with control := .run seat (next (.error e)) } ∧
            (m₁.startFailed a t.cog e (.submission seat g view next)).cogs.get? g =
              some { x with scheduler := x.scheduler.withdraw view.id, lock := none } :=
        ⟨thread_set _ ht (hm.trans (.same rfl)),
          by simp [startFailed, onScheduler, setLock, report, cog_onCog, hc, hx]⟩
      cases took with
      | closed =>
        obtain ⟨thread, taken⟩ := failed .shutDown (.same rfl) rfl
        exact ⟨_, thread, .refused _ rfl taken⟩
      | numbers | enters => exact ⟨_, thread_set _ ht (.same rfl), .pending rfl⟩
      | panics unnameable =>
        refine ⟨_, thread_set _ ht ((Stirred.strike (.same rfl)).trans (.same rfl)), .panicked _ rfl ?_⟩
        intro nameable
        cases unnameable.symm.trans (nameable.getD _)
      | refused =>
        obtain ⟨thread, taken⟩ := failed (.spawn m.registry.refusal) (.strike (.same rfl)) (cogs_strike m _)
        exact ⟨_, thread, .refused _ rfl taken⟩
      | granted named admitted =>
        obtain ⟨cog, control⟩ := t
        cases hc
        obtain ⟨ht', born⟩ := ho.launched ht named admitted
        rw [stepStart_granted named admitted] at ht' born
        exact ⟨_, ht', .accepted rfl (Move.accepted?_launch (turn ht') born)⟩
    | _ => cases hk
  | _ => cases hk

/-! ## One action -/

section
variable (h : m.Account g x taken started) (ho : m.Ordered) (ha : m.act move = some m')
include h ho ha

theorem Machine.Account.deed {loud : Bool} (hact : move.actor? = some a) (ht : Turns m a own s s' m')
    (hw : Works m g x x' m') (hd : Deed g a own loud s x s' x') (hn : m.Nameable)
    (hfresh : ∀ seat view, s = .enrol seat g view → view.state = .queued ∧ view.context = none) :
    m'.Account g x' (taken ++ (s.posts s').toList) (started ++ (s.claims s').toList) := by
  have shift := shift_act ho ha
  have ho' := ho.act ha
  have hx' := hw.here
  have old (t : TaskId) (ht : t ∈ started ++ x.scheduler.queued) : m'.Posted t :=
    (h.posted t ht).kept shift
  have letter (seat : Option Seat) (view : TaskView) (e : s = .enrol seat g view) :
      view.id ∉ started ++ x.scheduler.queued := by
    intro hm
    exact (h.posted _ hm).arrived a own s ht.before (by rw [e]; rfl)
  have offer (k : TaskId) (hk : s.offers g = some k) :
      ∃ q, x.scheduler.queued = q ++ [k] ∧ taken = started ++ q :=
    h.pending k ⟨a, own, s, ht.before, hk⟩
  have tidy : x'.scheduler.Tidy (started ++ (s.claims s').toList) := by
    refine hd.tidy h.tidy (fun hown k active hk hq => ?_)
      (fun seat view e => ⟨letter seat view e, hfresh seat view e⟩)
      (fun k hk => (offer k hk).imp fun q hq => hq.1)
    have same := ho.berth (p := .seat a) (q := .queue g) ⟨own, s, active, ht.before, hk⟩
      ⟨x, hw.before, hq⟩
    cases same
  -- Most deeds are nothing to the queue.
  have plain (hs : s.offers g = none) (hs' : s'.offers g = none) (hp : s.posts s' = none)
      (hc : s.claims s' = none) (hq : x'.scheduler.queued = x.scheduler.queued) :
      m'.Account g x' (taken ++ (s.posts s').toList) (started ++ (s.claims s').toList) := by
    rw [hc] at tidy
    simp only [hp, hc, Option.toList_none, List.append_nil] at tidy ⊢
    constructor
    case tidy => exact tidy
    case posted =>
      rw [hq]
      exact old
    case settled =>
      intro none
      rw [hq]
      exact h.settled fun t hk => none t ((ht.offers hs hs').mpr hk)
    case pending =>
      intro t hk
      rw [hq]
      exact h.pending t ((ht.offers hs hs').mp hk)
  -- After the others nobody offers a task.
  have closed (hlock : x'.lock = none) (whole : taken ++ (s.posts s').toList =
      started ++ (s.claims s').toList ++ x'.scheduler.queued)
      (posted : ∀ t ∈ started ++ (s.claims s').toList ++ x'.scheduler.queued, m'.Posted t) :
      m'.Account g x' (taken ++ (s.posts s').toList) (started ++ (s.claims s').toList) :=
    ⟨tidy, posted, fun _ => whole, fun t hk => absurd hk (ho'.no_offers hx' hlock t)⟩
  cases hd.queues with
  | same hs hs' hp hc hq => exact plain hs hs' hp hc hq
  | take c k _ _ hlock hlock' hp hc hq =>
    have whole := h.settled (ho.no_offers hw.before hlock)
    refine closed hlock' (by simp [hp, hc, whole, hq]) fun t hm => old t ?_
    simpa [hc, hq] using hm
  | offer k hlock hlock' hk hk' hs' hp hc hq =>
    have whole := h.settled (ho.no_offers hw.before hlock)
    have mine : m'.Offers g k := ⟨a, own, s', ht.after, hs'⟩
    simp only [hp, hc, Option.toList_none, List.append_nil] at tidy ⊢
    constructor
    case tidy => exact tidy
    case posted =>
      intro t hm
      rw [hq, ← List.append_assoc] at hm
      rcases List.mem_append.mp hm with hm | hm
      · exact old t hm
      · rw [List.mem_singleton.mp hm]
        exact ho.posted shift ht hk hk'
    case settled => exact fun none => absurd mine (none k)
    case pending =>
      intro t hm
      have same := ho'.offers_unique hx' ht.after hlock' hm
      obtain rfl := Option.some.inj (hs'.symm.trans same)
      exact ⟨_, hq, whole⟩
  | accept k hlock hlock' hk hk' hp hc hq =>
    have whole := h.settled (ho.no_offers hw.before hlock)
    refine closed hlock' (by simp [hp, hc, whole, hq]) fun t hm => ?_
    simp only [hc, hq, Option.toList_none, List.append_nil, ← List.append_assoc] at hm
    rcases List.mem_append.mp hm with hm | hm
    · exact old t hm
    · rw [List.mem_singleton.mp hm]
      exact ho.posted shift ht hk hk'
  | withdraw k hs hlock' hp hc hq =>
    obtain ⟨q, before, whole⟩ := offer k hs
    have after : x'.scheduler.queued = q := by rw [hq, before, List.dropLast_concat]
    refine closed hlock' (by simp [hp, hc, whole, after]) fun t hm => old t ?_
    simp only [hc, after, Option.toList_none, List.append_nil] at hm
    rw [before, ← List.append_assoc]
    exact List.mem_append_left _ hm
  | @forsake stage seat view e e' _ hx =>
    obtain ⟨q, before, -⟩ := offer view.id (by simp [e, Stance.offers])
    obtain ⟨th, hth, rfl, hst⟩ := look_eq_some m a ht.before
    obtain ⟨next, hk⟩ := Control.submits?_submit (hst.trans e)
    obtain rfl := Action.step_of_actor hact
    obtain ⟨k, hth', answer⟩ := ho.submission hth hk hw.before ha
    have stance : k.stance = .body seat := by
      have after := ht.after
      rw [look_eq m' a hth', e'] at after
      exact congrArg Prod.snd (Option.some.inj after)
    cases answer with
    | pending hk' =>
      rw [Control.submits?_body stance] at hk'
      cases hk'
    | accepted _ accepts =>
      rw [hd.accepted? rfl ho ht, e, e'] at accepts
      cases accepts
    | refused _ _ taken =>
      -- A task that has been taken back is not in the queue.
      cases hx'.symm.trans taken
      have same := congrArg (fun y => y.queued.length) hx
      have long := congrArg List.length before
      simp [Scheduler.queued, Scheduler.withdraw] at same long
      omega
    | panicked _ _ unnameable => exact absurd hn unnameable

theorem Machine.Account.grant {c : ContextId} (hb : Births m a own s s' c (some g) .claim m')
    (hw : Works m g x x' m') (hg : Grant g c a own s x s' x') :
    m'.Account g x' (taken ++ (s.offers g).toList) started := by
  have ho' := ho.act ha
  have hlock' : x'.lock = none := by cases hg <;> rfl
  have queue : x'.scheduler.queued = x.scheduler.queued := by cases hg <;> rfl
  constructor
  case tidy => exact hg.tidy h.tidy
  case posted =>
    rw [queue]
    exact fun t hm => (h.posted t hm).kept (shift_act ho ha)
  case pending => exact fun t hk => absurd hk (ho'.no_offers hw.here hlock' t)
  case settled =>
    intro _
    rw [queue]
    cases hk : s.offers g with
    | some k =>
      obtain ⟨q, before, whole⟩ := h.pending k ⟨a, own, s, hb.before, hk⟩
      simp [before, whole]
    | none =>
      -- The starter has the lock, so nobody else offers a task.
      have hlock : x.lock = some a := by
        have holds : s.lock own = some g := by cases hg <;> rfl
        obtain ⟨y, hy, lock, -⟩ := ho.locks hb.before holds
        cases hw.before.symm.trans hy
        exact lock
      have none (t : TaskId) : ¬ m.Offers g t := by
        intro offered
        have same := ho.offers_unique hw.before hb.before hlock offered
        rw [hk] at same
        cases same
      simpa using h.settled none

theorem Machine.Account.aside (hb : ∀ b, Beside g (m.look b) (m'.look b))
    (hx : x'.scheduler = x.scheduler) : m'.Account g x' taken started where
  tidy := hx ▸ h.tidy
  posted := by
    rw [hx]
    exact fun t hm => (h.posted t hm).kept (shift_act ho ha)
  settled := by
    intro none
    rw [hx]
    exact h.settled fun t hk => none t ((Beside.offers hb).mpr hk)
  pending := by
    intro t hk
    rw [hx]
    exact h.pending t ((Beside.offers hb).mp hk)

end

/-- A cog that has just been founded has accepted nothing. -/
theorem Machine.Ordered.account_founded (ho : m.Ordered) (hx : m.cogs.get? g = some x)
    (hs : x.scheduler = {}) (hlock : x.lock = none) : m.Account g x [] [] where
  tidy := hs ▸ .start
  posted := by simp [hs, Scheduler.queued]
  settled := by simp [hs, Scheduler.queued]
  pending t hk := absurd hk (ho.no_offers hx hlock t)

theorem Machine.Accounts.act (h : m.Accounts g taken started) (ho : m.Ordered) (hn : m.Nameable)
    (ha : m.act move = some m') :
    m'.Accounts g (taken ++ ((⟨m, move, m'⟩ : Move S A V).accepted? g).toList)
      (started ++ (((⟨m, move, m'⟩ : Move S A V).claimed? g).map (·.2)).toList) := by
  have shift := shift_act ho ha
  have fresh {a : Agent} {own : Option CogId} {seat : Option Seat} {i : CogId} {view : TaskView}
      (hl : m'.look a = some (own, .enrol seat i view)) :
      view.state = .queued ∧ view.context = none :=
    (shift.enrol hl).elim (fun old => h.fresh old) (·.2.2.2)
  have works {x x' : Cog S A V} {taken' started' : List TaskId} (hw : Works m g x x' m')
      (hx : m'.Account g x' taken' started') : m'.Accounts g taken' started' := by
    have there := hw.here
    refine ⟨fresh, fun none => ?_, fun hy => ?_⟩
    · rw [there] at none
      cases none
    · cases there.symm.trans hy
      exact hx
  generalize hact : move.actor? = actor at shift
  cases shift.vantage ho g with
  | aside hb hx =>
    obtain ⟨silent, idle⟩ := Beside.silent (v := ⟨m, move, m'⟩) (g := g) hb
    rw [silent, idle]
    simp only [Option.map_none, Option.toList_none, List.append_nil]
    refine ⟨fresh, fun none => ?_, fun hy => ?_⟩
    · rcases hx with ⟨absent, -⟩ | ⟨x, x', -, hx', -⟩
      · exact h.absent absent
      · rw [hx'] at none
        cases none
    · rcases hx with ⟨absent, new⟩ | ⟨x, x', hx, hx', same, -⟩
      · obtain ⟨rfl, rfl⟩ := h.absent absent
        exact (ho.act ha).account_founded hy (new _ hy).1 (new _ hy).2
      · cases hx'.symm.trans hy
        exact (h.present hx).aside ho ha hb same
  | @deed a own loud s s' x x' ht hw hd =>
    rw [hd.accepted? hact ho ht, hd.claimed_task hact ht]
    exact works hw ((h.present hw.before).deed ho ha hact ht hw hd hn
      fun seat view e => h.fresh (e ▸ ht.before))
  | grant hb hw hg =>
    obtain ⟨accepts, idle⟩ := hg.silent hact hb
    rw [accepts, idle]
    simp only [Option.map_none, Option.toList_none, List.append_nil]
    exact works hw ((h.present hw.before).grant ho ha hb hw hg)

/-! ## Whole runs -/

theorem accounts_empty (r : Registry) (memory : A) :
    (Machine.empty r memory : Machine S A V).Accounts g [] [] where
  fresh h := by cases h
  absent _ := ⟨rfl, rfl⟩
  present h := by cases h

theorem History.accounts {moves : List (Move S A V)} {r : Registry} {memory : A}
    (h : History (.empty r memory) moves m) (hn : ∀ v ∈ moves, v.before.Nameable) :
    m.Accounts g (accepted g moves) (claimed g moves) := by
  induction h with
  | refl => exact accounts_empty r memory
  | @act moves m m' x h ha ih =>
    rw [accepted_snoc, claimed_snoc]
    have before := ih fun v hv => hn v (List.mem_append_left _ hv)
    have named : m.Nameable := hn ⟨m, x, m'⟩ (by simp)
    exact before.act h.reachable.ordered named ha

/-- The queue of a cog after the moves. -/
structure InOrder (moves : List (Move S A V)) (g : CogId) (x : Cog S A V) : Prop where
  /-- Tasks are claimed in the order in which they have been accepted. -/
  order : claimed g moves <+: accepted g moves
  once : (accepted g moves).Nodup
  /-- In the queue are those that have been accepted and not claimed yet. -/
  queue : x.lock = none → accepted g moves = claimed g moves ++ x.scheduler.queued
  /-- Tools see them as the tasks that have never started, in the same order. -/
  listed : x.scheduler.schedulable.map (·.id) = x.scheduler.queued
  untouched {t : TaskId} {r : TaskRecord} : (t, r) ∈ x.scheduler.records → r.view.state = .queued →
    r.view.context = none ∧ r.startedAt = none
  waiting {t : TaskId} : t ∈ x.scheduler.queued ↔
    (∃ r, (t, r) ∈ x.scheduler.records) ∧ t ∉ claimed g moves
  /-- A task that has begun does not come back to the queue, in whatever state it is. -/
  begun {t : TaskId} {r : TaskRecord} : (t, r) ∈ x.scheduler.records → r.view.state ≠ .queued →
    t ∈ claimed g moves ∧ t ∉ x.scheduler.queued

theorem schedulable_eq {y : Scheduler S A V} (h : ∀ e ∈ y.records, e.2.Plain e.1) :
    y.schedulable.map (·.id) = unstarted y.records := by
  unfold Scheduler.schedulable Scheduler.viewsWhere Scheduler.views Table.values unstarted Table.keys
  generalize y.records = records at h
  induction records with
  | nil => rfl
  | cons e records ih =>
    have rest := ih fun e he => h e (List.mem_cons_of_mem _ he)
    have id : e.2.view.id = e.1 := (h e List.mem_cons_self).id
    by_cases hq : e.2.view.state = .queued <;> simp_all

/-- In every state of every run whose threads can have the names they are given, the
queue of a cog holds the tasks that have been accepted and not claimed yet, in
the order of their acceptance; and tasks are claimed in this order. -/
theorem first_come_first_served {moves : List (Move S A V)} (r : Registry) (memory : A)
    (h : History (.empty r memory) moves m) (hn : ∀ v ∈ moves, v.before.Nameable)
    (hx : m.cogs.get? g = some x) : InOrder moves g x := by
  have ho : m.Ordered := h.reachable.ordered
  have account : m.Account g x (accepted g moves) (claimed g moves) := (h.accounts hn).present hx
  have tidy := account.tidy
  have disjoint {t : TaskId} (hc : t ∈ claimed g moves) (hq : t ∈ x.scheduler.queued) : False :=
    (List.nodup_append.mp tidy.nodup).2.2 t hc t hq rfl
  -- What has been accepted begins with what has been claimed, and goes on with tasks of the queue.
  obtain ⟨q, whole, part⟩ : ∃ q, accepted g moves = claimed g moves ++ q ∧
      q <+: x.scheduler.queued := by
    by_cases offered : ∃ t, m.Offers g t
    · obtain ⟨t, ht⟩ := offered
      obtain ⟨q, hq, whole⟩ := account.pending t ht
      exact ⟨q, whole, [t], hq.symm⟩
    · exact ⟨_, account.settled fun t ht => offered ⟨t, ht⟩, List.prefix_refl _⟩
  constructor
  case order => exact ⟨q, whole.symm⟩
  case once =>
    rw [whole]
    exact tidy.nodup.sublist ((List.Sublist.refl _).append part.sublist)
  case queue => exact fun hlock => account.settled (ho.no_offers hx hlock)
  case listed => rw [schedulable_eq tidy.plain, tidy.queued]
  case untouched => exact fun hr hs => (tidy.plain _ hr).untouched hs
  case waiting =>
    intro t
    constructor
    · intro hq
      obtain ⟨r, hr, -⟩ := mem_unstarted.mp (tidy.queued ▸ hq)
      exact ⟨⟨r, hr⟩, fun hc => disjoint hc hq⟩
    · rintro ⟨⟨r, hr⟩, hc⟩
      exact (List.mem_append.mp (tidy.known _ hr)).resolve_left hc
  case begun =>
    intro t r hr hs
    have absent : t ∉ x.scheduler.queued := by
      intro hq
      obtain ⟨r', hr', hs'⟩ := mem_unstarted.mp (tidy.queued ▸ hq)
      rw [Table.unique tidy.distinct hr hr'] at hs
      exact hs hs'
    exact ⟨(List.mem_append.mp (tidy.known _ hr)).resolve_right absent, absent⟩

/-- The first task awaits, the second has been refused since no thread could be had for
it, and the third is in the queue. -/
def refusedActions : List (Action Nat Unit Unit) :=
  [.found "cog" 0,
    .arrive (.submit ⟨1⟩ "first" (.await (.field "n > 0" fun n => .ok (0 < n)) fun _ => .exit (.ok ()))
      fun _ => .submit ⟨1⟩ "second" (.exit (.ok ())) fun _ =>
        .submit ⟨1⟩ "third" (.exit (.ok ())) fun _ => .exit (.ok ()))] ++
    List.replicate 6 (.step (.caller 1)) ++ List.replicate 10 (.step (.context ⟨1⟩)) ++
    List.replicate 12 (.step (.caller 1))

/-- The system gives no thread to the second context. -/
def refusing : Registry := { namePrefix := "cog", admits := fun c => c.val ≠ 2 }

theorem first_come_first_served_refused :
    ∃ x, (refusedActions.foldl perform (.empty refusing ())).cogs.get? ⟨1⟩ = some x ∧
      InOrder ((Machine.empty refusing ()).moves refusedActions) ⟨1⟩ x ∧
      accepted ⟨1⟩ ((Machine.empty refusing ()).moves refusedActions) = [⟨1⟩, ⟨3⟩] ∧
      claimed ⟨1⟩ ((Machine.empty refusing ()).moves refusedActions) = [⟨1⟩] ∧
      x.scheduler.queued = [⟨3⟩] := by
  have named : ∀ v ∈ (Machine.empty refusing ()).moves refusedActions, v.before.Nameable := by
    decide +kernel
  have accepted : accepted ⟨1⟩ ((Machine.empty refusing ()).moves refusedActions) = [⟨1⟩, ⟨3⟩] := by
    decide +kernel
  have claimed : claimed ⟨1⟩ ((Machine.empty refusing ()).moves refusedActions) = [⟨1⟩] := by
    decide +kernel
  have free : ((refusedActions.foldl perform (.empty refusing ())).cogs.get? ⟨1⟩).map (·.lock) =
      some none := by decide +kernel
  obtain ⟨x, hx, hlock⟩ := Option.map_eq_some_iff.mp free
  have inOrder := first_come_first_served refusing () (history_moves _ refusedActions) named hx
  have queue := inOrder.queue hlock
  rw [accepted, claimed] at queue
  exact ⟨x, hx, inOrder, accepted, claimed, (List.cons.inj queue).2.symm⟩

end ObjectGroups
