/-
Who takes part in a run of the buffer, and what each is about to do.

Contexts of the cog run its tasks, each of which is a job of the buffer or
stands in the queue; one caller submits them. `Plays` and `Directs` say what a
context and the caller can be about to do, and `Cast` that nobody does
anything else. Awaits end well here, since nobody interrupts a context and the
guards cannot fail.
-/
import ObjectGroups.Demo.Run
import ObjectGroups.Proofs.Callers
import ObjectGroups.Proofs.Stock

namespace ObjectGroups

variable {S A V : Type} {y y' : Scheduler S A V} {x x' : Cog S A V} {g : CogId} {a : Agent}
  {own : Option CogId} {s s' : Stance} {t : TaskId} {c : ContextId}

/-! ## What awaits leave alone -/

namespace Scheduler

/-- Whether the task has come in and ended. -/
def ended (y : Scheduler S A V) (t : TaskId) : Bool := (y.handles.get? t).any (·.finished)

/-- No task has come or ended. -/
structure Keeps (y y' : Scheduler S A V) : Prop where
  queue : ∀ e ∈ y'.queue, e ∈ y.queue
  known : Table.keys y'.handles = Table.keys y.handles
  ended : ∀ t, y'.ended t = true → y.ended t = true

theorem Keeps.of_eq (hq : y'.queue = y.queue) (hh : y'.handles = y.handles) : y.Keeps y' :=
  ⟨fun e he => hq ▸ he, by rw [hh], fun t ht => by rwa [Scheduler.ended, hh] at ht⟩

theorem Keeps.refl (y : Scheduler S A V) : y.Keeps y := .of_eq rfl rfl

theorem Keeps.trans {y'' : Scheduler S A V} (h : y.Keeps y') (h' : y'.Keeps y'') : y.Keeps y'' :=
  ⟨fun e he => h.queue e (h'.queue e he), h'.known.trans h.known, fun t ht => h.ended t (h'.ended t ht)⟩

theorem keeps_setState {st : TaskState} (hs : st ≠ .finished) (f : TaskRecord → TaskRecord) :
    y.Keeps (y.setState t st f) := by
  unfold setState
  split
  · refine ⟨fun _ => id, ?_, fun k hk => ?_⟩
    · simp only [Table.keys_modify]
    simp only [ended, Table.get?_modify] at hk ⊢
    split at hk
    · cases hd : y.handles.get? k with
      | none => simp [hd] at hk
      | some d => simp [hd, TaskHandle.finished, hs] at hk
    · exact hk
  · exact .refl y

theorem keeps_release (c : ContextId) : y.Keeps (y.release c) := .of_eq (queue_release ..) handles_release

theorem keeps_markRunning (c : ContextId) (now : Instant) : y.Keeps (y.markRunning t c now) :=
  keeps_setState (by decide) _

theorem keeps_suspend (c : ContextId) (label : String) : y.Keeps (y.suspend t c label) := by
  have released : y.Keeps { y.release c with activeTask := none } :=
    (keeps_release c).trans (.of_eq rfl rfl)
  unfold suspend markSuspended
  exact released.trans ((keeps_setState (by decide) _).trans (.of_eq rfl rfl))

theorem keeps_resume (c : ContextId) (now : Instant) : y.Keeps (y.resume t c now) := by
  have taken : y.Keeps { y with active := some c, activeTask := some t } := .of_eq rfl rfl
  exact taken.trans ((keeps_markRunning c now).trans (.of_eq rfl rfl))

/-- A task comes to its end, and no other. -/
theorem ends_complete_only (y : Scheduler S A V) (t : TaskId) (outcome : TaskOutcome) (now : Instant) :
    Table.keys (y.complete t outcome now).2.handles = Table.keys y.handles ∧
      ∀ k, (y.complete t outcome now).2.ended k = true → y.ended k = true ∨ k = t := by
  unfold complete finish
  dsimp only
  split
  · exact ⟨rfl, fun _ => .inl⟩
  · refine ⟨by simp only [Table.keys_modify], fun k hk => ?_⟩
    simp only [ended, Table.get?_modify] at hk ⊢
    split at hk
    · next e => exact .inr e
    · exact .inl hk

/-- A context between tasks takes one from the queue, or none. -/
theorem keeps_claim (y : Scheduler S A V) (c : ContextId) (shutdown : Bool) (now : Instant) :
    y.Keeps (y.claim c shutdown now).2 ∧ ∀ e, (y.claim c shutdown now).1 = some e → e ∈ y.queue := by
  unfold claim
  by_cases able : (y.active = some c && !shutdown) = true
  · cases hq : y.queue with
    | nil =>
      simp only [able, if_true, List.head?_nil]
      exact ⟨(keeps_release c).trans (.of_eq rfl rfl), fun e he => by cases he⟩
    | cons e rest =>
      simp only [able, if_true, List.head?_cons, List.tail_cons]
      have begun : y.Keeps { y with queue := rest, activeTask := some e.1 } :=
        ⟨fun e' he => hq ▸ List.mem_cons_of_mem _ he, rfl, fun _ => id⟩
      refine ⟨begun.trans (keeps_markRunning c now), fun e' he => ?_⟩
      rw [← Option.some.inj he]
      exact List.mem_cons_self
  · simp only [if_neg able]
    exact ⟨(keeps_release c).trans (.of_eq rfl rfl), fun e he => by cases he⟩

end Scheduler

/-- Neither the state changes nor a task comes or ends. -/
structure Cog.Keeps (x x' : Cog S A V) : Prop where
  state : x'.state = x.state
  tasks : x.scheduler.Keeps x'.scheduler

theorem Cog.Keeps.refl (x : Cog S A V) : x.Keeps x := ⟨rfl, .refl _⟩

theorem Grant.keeps (h : Grant g c a own s x s' x') : x.Keeps x' := by
  cases h <;> exact ⟨rfl, .of_eq rfl rfl⟩

/-- In an await that is neither aborted nor unwound, a deed leaves state and tasks alone. -/
theorem Deed.keeps_await {loud : Bool} (h : Deed g a own loud s x s' x') (hs : s.awaits = some t)
    (hs' : s' ≠ .body (some ⟨t, false⟩)) : x.Keeps x' := by
  cases h with
  | suspend label => exact ⟨rfl, (Scheduler.keeps_suspend _ label).trans (.of_eq rfl rfl)⟩
  | handOver label => exact ⟨rfl, Scheduler.keeps_suspend _ label⟩
  | resume now => exact ⟨rfl, Scheduler.keeps_resume _ now⟩
  | abort now hst =>
    refine absurd ?_ hs'
    rcases hst with rfl | ⟨rfl, -⟩ <;> rw [Option.some.inj hs]
  | unwindHand | unwind => exact absurd (by rw [Option.some.inj hs]) hs'
  | handFailed | markReady | reenter | wake | doze => exact ⟨rfl, .of_eq rfl rfl⟩
  | _ => cases hs

/-- Who is in an await is in the stance of one. -/
theorem Control.awaits_of_await {k : Control S A V} {aw : Awaiting S A V} (h : k.await? = some aw) :
    k.stance.awaits = some aw.task := by
  induction k with
  | notify i n after ih => exact ih h
  | awaiting aw' phase =>
    cases h
    cases phase <;> rfl
  | starting stage e => cases e with
    | handover aw' =>
      cases h
      rfl
    | _ => cases h
  | _ => cases h

theorem Stance.seat_of_awaits (h : s.awaits = some t) : ∃ active, s.seat? = some ⟨t, active⟩ := by
  cases s with
  | release | hand | wait | contend =>
    cases h
    exact ⟨_, rfl⟩
  | _ => cases h

namespace Demo

open Machine

/-! ## What a context can be about to do -/

/-- What a context of the cog can be about to do, if `J` tells where each task stands and the cog
holds the buffer `b`. -/
inductive Plays (J : TaskId → Job) (b : Buffer) : Control Holding Verdict Nat → Prop where
  | claim : Plays J b .claim
  | run (t : TaskId) : (J t).Fits b → Plays J b (.run (some ⟨t, true⟩) (J t).body)
  | awaits {k : Control Holding Verdict Nat} {aw : Awaiting Holding Verdict Nat} {j' : Job} :
      k.await? = some aw → (J aw.task).Awaits aw.guard j' → aw.next (.ok ()) = j'.body → Plays J b k
  | complete (t : TaskId) (outcome : TaskOutcome) : (J t).Spent → Plays J b (.complete t outcome)
  | leave : Plays J b .leave
  | notify (i : CogId) (n : Notice) {k : Control Holding Verdict Nat} : Plays J b k → Plays J b (.notify i n k)

namespace Plays

variable {J J' : TaskId → Job} {b b' : Buffer} {k : Control Holding Verdict Nat}

theorem of_behind (h : Plays J b k.behind) : Plays J b k := by
  induction k with
  | notify i n k ih => exact .notify i n (ih h)
  | _ => exact h

theorem rouse (h : Plays J b k) : Plays J b k.rouse := by
  cases h with
  | awaits hk hj hn => exact .awaits (by rwa [Control.await?_rouse]) hj hn
  | claim => exact .claim
  | run t fits => exact .run t fits
  | complete t outcome spent => exact .complete t outcome spent
  | leave => exact .leave
  | notify i n h => exact .notify i n h

/-- Only the place of its own task matters, and the buffer as long as this task is active. -/
theorem kept (h : Plays J b k) (place : ∀ t active, k.stance.seat? = some ⟨t, active⟩ → J' t = J t)
    (state : ∀ t, k.stance.seat? = some ⟨t, true⟩ → b' = b) : Plays J' b' k := by
  induction h with
  | claim => exact .claim
  | run t fits =>
    obtain rfl := state t rfl
    have same := place t true rfl
    rw [← same] at fits ⊢
    exact .run t fits
  | @awaits k aw j' hk hj hn =>
    obtain ⟨active, hs⟩ := Stance.seat_of_awaits (Control.awaits_of_await hk)
    exact .awaits hk (place _ active hs ▸ hj) hn
  | complete t outcome spent => exact .complete t outcome (place t true rfl ▸ spent)
  | leave => exact .leave
  | notify i n _ ih => exact .notify i n (ih place state)

/-- A task that has moved on runs on. -/
theorem moved (J : TaskId → Job) (t : TaskId) {j : Job} (fits : j.Fits b) :
    Plays (Function.update J t j) b (.run (some ⟨t, true⟩) j.body) := by
  have self : Function.update J t j t = j := Function.update_self ..
  have plays : Plays (Function.update J t j) b (.run (some ⟨t, true⟩) (Function.update J t j t).body) :=
    .run t (by rwa [self])
  rwa [self] at plays

end Plays

/-! ## What the caller can be about to do -/

/-- The part waits for tasks and takes note of its end, and does nothing else. -/
inductive Meek : Part → Prop where
  | exit (r : Exit TaskError Nat) : Meek (.exit r)
  | memory (change : Verdict → Verdict) {next : Verdict → Part} : (∀ v, Meek (next v)) →
      Meek (.memory change next)
  | awaitTask (i : CogId) (t : TaskId) (d : Span) {next : Bool → Part} : (∀ b, Meek (next b)) →
      Meek (.request (.awaitTask i t d) next)

theorem meek_finish (r : Exit Trouble Unit) : Meek (Part.finish r) := .memory _ fun _ => .exit _

theorem meek_waitAll (g : CogId) (timeout : Span) (ts : List TaskId) {next : Part} (h : Meek next) :
    Meek (Part.waitAll g timeout ts next) := by
  induction ts with
  | nil => exact h
  | cons t ts ih =>
    refine .awaitTask g t timeout fun finished => ?_
    cases finished with
    | true => exact ih
    | false => exact meek_finish _

/-- The part submits the tasks to the cog, and then is meek. -/
def Submits (g : CogId) (tasks : List (String × Part)) (p : Part) : Prop :=
  ∃ ts after, p = Part.submitAll g tasks ts after ∧ ∀ ts, Meek (after ts)

/-- What the caller can be about to do once `k` of the tasks have come in. -/
inductive Directs (g : CogId) (tasks : List (String × Part)) : Nat → Control Holding Verdict Nat → Prop where
  | run {k : Nat} {p : Part} : Submits g (tasks.drop k) p → Directs g tasks k (.run none p)
  | enrol {k : Nat} {name : String} {p : Part} {view : TaskView} {next : Exit RuntimeError TaskId → Part} :
      tasks[k]? = some (name, p) → (∀ t, Submits g (tasks.drop (k + 1)) (next (.ok t))) →
      Directs g tasks k (.enrol none g view p next)
  | start {k : Nat} {stage : Stage} {view : TaskView} {next : Exit RuntimeError TaskId → Part} :
      Submits g (tasks.drop k) (next (.ok view.id)) →
      Directs g tasks k (.starting stage (.submission none g view next))
  | linger {k : Nat} (i : CogId) (t : TaskId) (deadline : Option Instant) (sleep : Sleep)
      {next : Bool → Part} : tasks.drop k = [] → (∀ b, Meek (next b)) →
      Directs g tasks k (.linger none i t deadline sleep next)
  | notify (i : CogId) (n : Notice) {k : Nat} {control : Control Holding Verdict Nat} :
      Directs g tasks k control → Directs g tasks k (.notify i n control)

section
variable {tasks : List (String × Part)} {n : Nat} {p : Part} {k : Control Holding Verdict Nat}

theorem submits_nil : Submits g [] p ↔ Meek p := by
  refine ⟨?_, fun h => ⟨[], fun _ => p, rfl, fun _ => h⟩⟩
  rintro ⟨ts, after, rfl, h⟩
  exact h ts

theorem Submits.cons {name : String} {task : Part} (h : Submits g ((name, task) :: tasks) p) :
    ∃ next, p = .submit g name task next ∧ ∀ t, Submits g tasks (next (.ok t)) := by
  obtain ⟨ts, after, rfl, meek⟩ := h
  exact ⟨_, rfl, fun t => ⟨ts ++ [t], after, rfl, meek⟩⟩

theorem Directs.of_behind (h : Directs g tasks n k.behind) : Directs g tasks n k := by
  induction k with
  | notify i _ k ih => exact .notify i _ (ih h)
  | _ => exact h

theorem Directs.rouse (h : Directs g tasks n k) : Directs g tasks n k.rouse := by
  cases h with
  | run h => exact .run h
  | enrol hn h => exact .enrol hn h
  | start h => exact .start h
  | linger i t deadline sleep hn h => exact .linger i t deadline sleep.notify hn h
  | notify i n h => exact .notify i n h

end

/-! ## All together -/

variable {m m' : Theatre} {act : Action Holding Verdict Nat} {tasks : List (String × Part)}
  {jobs : List Job} {x x' : Cog Holding Verdict Nat} {b b' : Buffer} {J J' : TaskId → Job}

/-- Nobody does anything but to run the tasks of the cog and to submit them, and the cog `x` holds
the buffer `b`. -/
structure Cast (g : CogId) (tasks : List (String × Part)) (m : Theatre) (x : Cog Holding Verdict Nat)
    (b : Buffer) (J : TaskId → Job) : Prop where
  cog : m.cogs.get? g = some x
  state : x.state = .buffer b
  /-- Who has not begun does not rely on the state of the buffer. -/
  queue : ∀ e ∈ x.scheduler.queue, e.2 = (J e.1).body ∧ ∀ b, (J e.1).Fits b
  ended : ∀ t, x.scheduler.ended t = true → (J t).Spent
  context {c : ContextId} {t : Thread Holding Verdict Nat} : m.threads.get? (.context c) = some t →
    t.cog = some g ∧ Plays J b t.control
  caller {n : Nat} {t : Thread Holding Verdict Nat} : m.threads.get? (.caller n) = some t →
    n = 1 ∧ t.cog = none ∧ Directs g tasks x.scheduler.handles.length t.control
  left : m.threads.get? (.caller 1) = none → tasks.length ≤ x.scheduler.handles.length

/-- Where no thread takes a step, each is at most notified, unless a caller arrives. -/
theorem stirred_idle (ha : m.act act = some m') (idle : act.actor? = none) (come : ∀ p, act ≠ .arrive p)
    (a : Agent) : m.Stirred m' a := by
  cases act with
  | step a => cases idle
  | arrive p => exact absurd rfl (come p)
  | spurious a' =>
    cases ha
    refine .of_map (p := fun _ => a = a') ?_
    simp only [Table.get?_modify]
    by_cases h : a = a'
    · subst h
      simp [Thread.rouse]
    · simp [h]
  | count n =>
    simp only [Machine.act] at ha
    split at ha <;> cases ha
    exact .same rfl
  | _ =>
    cases ha
    exact .same rfl

/-- A caller is at most notified while others act, unless it arrives. -/
theorem stirred_caller (ho : m.Ordered) (ha : m.act act = some m') {n : Nat}
    (hne : act.actor? ≠ some (.caller n)) (come : ∀ p, act ≠ .arrive p) : m.Stirred m' (.caller n) := by
  cases hactor : act.actor? with
  | none => exact stirred_idle ha hactor come _
  | some a =>
    have other : Agent.caller n ≠ a := by
      rintro rfl
      exact hne hactor
    have shift := shift_act ho ha
    rw [hactor] at shift
    cases shift with
    | quiet ht | deed ht | allocate ht | letter ht => exact ht.others _ other
    | birth hb | launch hb => exact hb.others _ other (by simp)
    | gone _ _ _ others => exact others _ other

namespace Cast

section
variable (h : Cast g tasks m x b J)
include h

/-- A context that is about to be started is one of the cog. -/
theorem launches {a : Agent} {own : Option CogId} {s : Stance} {c : ContextId} (hl : m.look a = some (own, s))
    (hs : s.stage? = some (.launch c)) : s.lock own = some g ∧ s.grants = true := by
  obtain ⟨t, ht, hown, rfl⟩ := look_eq_some m a hl
  cases a with
  | context d =>
    obtain ⟨home, plays⟩ := h.context ht
    obtain rfl : own = some g := hown.symm.trans home
    clear ht
    generalize t.control = k at hs plays
    induction plays with
    | @awaits k aw j' hk =>
      have awaits := Control.awaits_of_await hk
      generalize k.stance = s at hs awaits
      cases s with
      | hand stage t => exact ⟨rfl, rfl⟩
      | submit | start => cases awaits
      | _ => cases hs
    | notify i n _ ih => exact ih hs
    | _ => cases hs
  | caller n =>
    obtain ⟨-, -, directs⟩ := h.caller ht
    generalize t.control = k at hs directs
    generalize x.scheduler.handles.length = entered at directs
    induction directs with
    | start => exact ⟨rfl, rfl⟩
    | notify i n _ ih => exact ih hs
    | _ => cases hs

variable (ho : m.Ordered) (ha : m.act act = some m')
include ho ha

/-- Contexts that do not act go on to play their parts, and new ones begin to. -/
theorem others {c : ContextId} (hne : act.actor? ≠ some (.context c))
    (place : ∀ s t active, m.look (.context c) = some (some g, s) → s.seat? = some ⟨t, active⟩ → J' t = J t)
    (state : b' = b ∨ ∃ d t, act.actor? = some (.context d) ∧ m.Runs g (.context d) t)
    {t' : Thread Holding Verdict Nat} (ht' : m'.threads.get? (.context c) = some t') :
    t'.cog = some g ∧ Plays J' b' t'.control := by
  have old (hm : m.Stirred m' (.context c)) : t'.cog = some g ∧ Plays J' b' t'.control := by
    obtain ⟨p, hp⟩ := hm
    cases ht : m.threads.get? (.context c) with
    | none => simp [ht, ht'] at hp
    | some t =>
      obtain ⟨home, plays⟩ := h.context ht
      have hl := look_eq m _ ht
      rw [home] at hl
      have kept : Plays J' b' t.control := plays.kept (fun u active hu => place _ u active hl hu) fun u hu => by
        rcases state with same | ⟨d, v, hd, runs⟩
        · exact same
        · -- Of two contexts only one has the slot.
          obtain ⟨e, -⟩ := (ho.exclusive h.cog).alone ⟨_, hl, hu⟩ runs
          exact absurd (e ▸ hd) hne
      rw [ht, ht'] at hp
      cases p with
      | false =>
        cases hp
        exact ⟨home, kept⟩
      | true =>
        cases hp
        exact ⟨home, kept.rouse⟩
  have shift := shift_act ho ha
  generalize act.actor? = actor at shift hne
  have ne {a : Agent} (e : some a = actor) : Agent.context c ≠ a := by
    rintro rfl
    exact hne e.symm
  cases shift with
  | quiet ht | deed ht | allocate ht | letter ht => exact old (ht.others _ (ne rfl))
  | @birth a own s s' d i y y' hb _ hg =>
    by_cases hcd : c = d
    · subst hcd
      obtain ⟨lock, -⟩ := h.launches hb.before hb.launches
      have home : some i = some g := by rw [← lock]; cases hg <;> rfl
      have born := hb.born
      rw [look_eq m' _ ht', Option.some.injEq, Prod.mk.injEq, home] at born
      refine ⟨born.1, ?_⟩
      rcases hb.new t' ht' with e | ⟨p, e⟩
      · rw [e]
        exact .claim
      · rw [e] at born
        cases born.2
    · exact old (hb.others _ (ne rfl) (by simpa using hcd))
  | launch hb =>
    obtain ⟨lock, -⟩ := h.launches hb.before hb.launches
    cases lock
  | gone _ _ _ others => exact old (others _ (ne rfl))
  | arrive _ others => exact old (others _ (by simp))
  | found _ _ others => exact old (others _)
  | furnish ht => exact old (.same ht)
  | rest others => exact old (others _)

/-- A caller that does not act goes on to direct. -/
theorem others_caller {n : Nat} (hne : act.actor? ≠ some (.caller n)) (come : ∀ p, act ≠ .arrive p)
    {t' : Thread Holding Verdict Nat} (ht' : m'.threads.get? (.caller n) = some t') :
    n = 1 ∧ t'.cog = none ∧ Directs g tasks x.scheduler.handles.length t'.control := by
  obtain ⟨p, hp⟩ := stirred_caller ho ha hne come
  cases ht : m.threads.get? (.caller n) with
  | none => simp [ht, ht'] at hp
  | some t =>
    obtain ⟨one, alone, directs⟩ := h.caller ht
    rw [ht, ht'] at hp
    cases p with
    | false =>
      cases hp
      exact ⟨one, alone, directs⟩
    | true =>
      cases hp
      exact ⟨one, alone, directs.rouse⟩

omit h in
theorem left_kept {n : Nat} (hne : act.actor? ≠ some (.caller n)) (come : ∀ p, act ≠ .arrive p)
    (gone : m'.threads.get? (.caller n) = none) : m.threads.get? (.caller n) = none := by
  obtain ⟨p, hp⟩ := stirred_caller ho ha hne come
  rw [gone] at hp
  simpa using hp.symm

/-- What a context does keeps the cast if no task comes in, and only its own task moves. -/
theorem next {c : ContextId} (hact : act = .step (.context c)) (hx' : m'.cogs.get? g = some x')
    (hs' : x'.state = .buffer b') (known : Table.keys x'.scheduler.handles = Table.keys x.scheduler.handles)
    (queue : ∀ e ∈ x'.scheduler.queue, e ∈ x.scheduler.queue)
    (ended : ∀ t, x'.scheduler.ended t = true → x.scheduler.ended t = true ∨ (J' t).Spent)
    (moves : ∀ t, J' t = J t ∨ (m.Berthed t (.seat (.context c)) ∧ ¬ (J t).Spent))
    (state : b' = b ∨ ∃ t, m.Runs g (.context c) t)
    (own : ∀ t', m'.threads.get? (.context c) = some t' → t'.cog = some g ∧ Plays J' b' t'.control) :
    Cast g tasks m' x' b' J' := by
  subst hact
  have length : x'.scheduler.handles.length = x.scheduler.handles.length := by
    simpa [Table.keys] using congrArg List.length known
  have place {t : TaskId} {p : Berth} (hp : m.Berthed t p) (hne : p ≠ .seat (.context c)) : J' t = J t := by
    rcases moves t with same | ⟨mine, -⟩
    · exact same
    · exact absurd (ho.berth hp mine) hne
  constructor
  case cog => exact hx'
  case state => exact hs'
  case queue =>
    intro e he
    rw [place (p := .queue g) ⟨x, h.cog, List.mem_map_of_mem (queue e he)⟩ (by simp)]
    exact h.queue e (queue e he)
  case ended =>
    intro t ht
    rcases ended t ht with before | spent
    · rcases moves t with same | ⟨-, unspent⟩
      · exact same ▸ h.ended t before
      · exact absurd (h.ended t before) unspent
    · exact spent
  case context =>
    intro d t' ht'
    by_cases hd : d = c
    · exact own t' (hd ▸ ht')
    · refine h.others ho ha ?_ (fun s t active hl hs => ?_) ?_ ht'
      · intro e
        cases e
        exact hd rfl
      · refine place (p := .seat (.context d)) ⟨_, s, active, hl, hs⟩ ?_
        simpa using hd
      · rcases state with same | ⟨t, runs⟩
        · exact .inl same
        · exact .inr ⟨c, t, rfl, runs⟩
  case caller =>
    intro n t' ht'
    rw [length]
    exact h.others_caller ho ha (by simp [Action.actor?]) (by simp) ht'
  case left =>
    intro gone
    rw [length]
    exact h.left (left_kept ho ha (by simp [Action.actor?]) (by simp) gone)

end

end Cast

end Demo

end ObjectGroups
