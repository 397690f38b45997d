/-
The step of a thread in an await.

`Strides` says, phase by phase, what the step comes to: the thread proceeds to
another phase (`Proceeds`), or its body goes on with an error or a panic, or the
task resumes. `Outcome` keeps of this how the await ends, and under what
circumstances the task can resume.
-/
import ObjectGroups.Proofs.Awaits
import ObjectGroups.Proofs.Timing

namespace ObjectGroups

variable {S A V : Type} {m m' : Machine S A V} {a b : Agent} {g : CogId} {c : ContextId}
  {own : Option CogId} {s s' : Stance} {x x' : Cog S A V}

/-! ## Phase by phase -/

/-- What a step of the thread `c` of the cog `g` comes to if it leads to another phase of the await. -/
inductive Proceeds (m : Machine S A V) (c : ContextId) (g : CogId) (x : Cog S A V)
    (aw : Awaiting S A V) (m' : Machine S A V) : Phase S → Phase S → Prop where
  | waits {w : Wait S} {move : WaitMove S} : w.result? = none →
      w.step m.sight x.state (m.parker (.own c)) = some move →
      m'.parker (.own c) = move.parker →
      m'.futures = (m.subscribe (.parker (.own c)) move.joins).futures → m'.now = m.now →
      m'.cogs = m.cogs → Proceeds m c g x aw m' (.wait w) (.wait move.wait)
  /-- The wait has ended with an answer, which is a hint only. -/
  | answered {w : Wait S} {b : Bool} {phase : Phase S} : w.result? = some (.ok b) →
      phase = .ready ∨ phase = .reenter none → m.interrupted c = false →
      Proceeds m c g x aw m' (.wait w) phase
  | waitFailed {w : Wait S} {r : Answer} {e : GuardError} : w.result? = some r →
      containedAnswer "wait" r = .error e → e ≠ .interrupted → m.interrupted c = false →
      Proceeds m c g x aw m' (.wait w) (.reenter (some e))
  | interrupted {w : Wait S} {r : Answer} : w.result? = some r →
      containedAnswer "wait" r = .error .interrupted ∨ m.interrupted c = true →
      Proceeds m c g x aw m' (.wait w) .abort
  | reenters : Proceeds m c g x aw m' (.reenter none) .subscribe
  | reentersFailed (e : GuardError) :
      Proceeds m c g x aw m' (.reenter (some e)) (.contend (some e))
  | subscribes {fs : List FutureId} {b : Bool} : aw.guard.sources m.sight = (fs, .ok b) →
      m'.futures = (m.subscribe (.scheduler g) fs).futures →
      Proceeds m c g x aw m' .subscribe (.contend none)
  | subscribeFailed {fs : List FutureId} {p : Payload} : aw.guard.sources m.sight = (fs, .error p) →
      Proceeds m c g x aw m' .subscribe (.contend (some (panicked "subscribe" p)))
  /-- Somebody has the slot. -/
  | taken (failure : Option GuardError) : x.scheduler.active ≠ none → m'.now = m.now →
      m'.cogs = m.cogs → m.interrupted c = false →
      Proceeds m c g x aw m' (.contend failure) (.doze failure)
  /-- The slot is free, and the guard does not hold. -/
  | refused : x.scheduler.active = none → aw.guard.poll m.sight x.state = .ok false →
      m'.now = m.now → m'.cogs = m.cogs → m.interrupted c = false →
      Proceeds m c g x aw m' (.contend none) (.doze none)
  | aimed {d : Option Instant} : aw.guard.deadline m.sight = .ok d →
      m'.cogs.get? g = some { x with lock := none } →
      Proceeds m c g x aw m' (.doze none) (.asleep none d false)
  | aimFailed {p : Payload} : aw.guard.deadline m.sight = .error p →
      m'.cogs.get? g = some { x with lock := none } →
      Proceeds m c g x aw m' (.doze none) (.asleep (some (panicked "wake_deadline" p)) none false)
  | sleeps (e : GuardError) : m'.cogs.get? g = some { x with lock := none } →
      Proceeds m c g x aw m' (.doze (some e)) (.asleep (some e) none false)
  | wakes (failure : Option GuardError) (deadline : Option Instant) (notified : Bool) :
      Proceeds m c g x aw m' (.asleep failure deadline notified) (.contend failure)

/-- What a step of the thread `c` of the cog `g` comes to at a phase of its await. -/
inductive Strides (m : Machine S A V) (c : ContextId) (g : CogId) (x : Cog S A V)
    (aw : Awaiting S A V) (m' : Machine S A V) : Phase S → Control S A V → Prop where
  /-- The slot has been given up, and a context is to be started for the queue. -/
  | hands : Strides m c g x aw m' .release (.starting .check (.handover aw))
  /-- The slot has been given up, and the thread is enlisted. -/
  | enlists {k : Control S A V} : k.behind = .awaiting aw (.wait (.start aw.guard)) →
      (∃ x', m'.cogs.get? g = some x' ∧ c ∈ x'.scheduler.waiters) → k.notices ≤ 1 →
      Strides m c g x aw m' .release k
  | marked {k : Control S A V} : k.behind = .awaiting aw (.reenter none) → k.notices ≤ 1 →
      Strides m c g x aw m' .ready k
  | proceeds {phase phase' : Phase S} : Proceeds m c g x aw m' phase phase' →
      Strides m c g x aw m' phase (.awaiting aw phase')
  | aborts {phase : Phase S} {k : Control S A V} :
      phase = .abort ∨ (m.interrupted c = true ∧ ∃ failure, phase = .contend failure) →
      k.behind = .run (some ⟨aw.task, false⟩) (aw.next (.error .interrupted)) →
      m'.cogs.get? g =
        some { x with scheduler := (x.scheduler.abort aw.task c m.now).2, lock := none } →
      Strides m c g x aw m' phase k
  /-- The guard has failed, now or before, and the task has the slot back. -/
  | fails {failure : Option GuardError} {e : GuardError} {k : Control S A V} :
      x.scheduler.active = none →
      failure = some e ∨ (failure = none ∧ aw.guard.evaluate m.sight x.state = .error e) →
      k.behind = .run (some ⟨aw.task, true⟩) (aw.next (.error (.guard e))) →
      m'.cogs.get? g =
        some { x with scheduler := x.scheduler.resume aw.task c m.now, lock := none } →
      m.interrupted c = false → Strides m c g x aw m' (.contend failure) k
  | unwinds {p : Payload} {k : Control S A V} : aw.guard.evaluate m.sight x.state = .panic p →
      k.behind = .run (some ⟨aw.task, false⟩) (aw.next (.panic p)) →
      m'.cogs.get? g = some { x with lock := none } → m.interrupted c = false →
      Strides m c g x aw m' (.contend none) k
  | resumes {k : Control S A V} : x.scheduler.active = none →
      aw.guard.poll m.sight x.state = .ok true →
      k.behind = .run (some ⟨aw.task, true⟩) (aw.next (.ok ())) →
      m'.cogs.get? g =
        some { x with scheduler := x.scheduler.resume aw.task c m.now, lock := none } →
      m.interrupted c = false → Strides m c g x aw m' (.contend none) k

namespace Machine

theorem cog_takeSlot (m₁ : Machine S A V) (c : ContextId) (aw : Awaiting S A V)
    (failure : Option GuardError) (hx : m₁.cogs.get? g = some x) :
    (m₁.takeSlot a c g x aw failure).cogs.get? g =
      some { x with scheduler := x.scheduler.resume aw.task c m₁.now, lock := none } := by
  simp [takeSlot, cog_onCog, hx]

theorem cog_abort (c : ContextId) (aw : Awaiting S A V) (hx : m.cogs.get? g = some x) :
    (m.abort a c g x aw).cogs.get? g =
      some { x with scheduler := (x.scheduler.abort aw.task c m.now).2, lock := none } := by
  simp [abort, cog_onCog, hx]

theorem abort_eq (x : Cog S A V) (aw : Awaiting S A V) :
    ∃ m₁ k, m.abort a c g x aw = m₁.setControl a k ∧ (∀ b, m.Stirred m₁ b) ∧
      k.behind = .run (some ⟨aw.task, false⟩) (aw.next (.error .interrupted)) := by
  unfold abort
  cases x.scheduler.abort aw.task c m.now with
  | mk view scheduler => cases view with
    | none => exact ⟨_, _, rfl, fun b => .same rfl, rfl⟩
    | some v => exact ⟨_, _, rfl, fun b => .notifyAll (.same rfl), rfl⟩

/-- What a step of the thread comes to. -/
theorem stepAwait_strides {aw : Awaiting S A V} {phase : Phase S} (hx : m.cogs.get? g = some x)
    (h : m.AwaitStep c g x aw phase m') :
    ∃ m₁ k, m' = m₁.setControl (.context c) k ∧ (∀ b, m.Stirred m₁ b) ∧ Strides m c g x aw m' phase k := by
  have proceeds {m₁ : Machine S A V} {phase' : Phase S} (ht : m₁.threads = m.threads)
      (leads : Proceeds m c g x aw (m₁.setControl (.context c) (.awaiting aw phase')) phase phase') :
      ∃ m₂ k, m₁.setControl (.context c) (.awaiting aw phase') = m₂.setControl (.context c) k ∧
        (∀ b, m.Stirred m₂ b) ∧
          Strides m c g x aw (m₁.setControl (.context c) (.awaiting aw phase')) phase k :=
    ⟨_, _, rfl, fun b => .same ht, .proceeds leads⟩
  have freed (k : Control S A V) :
      ((m.turned.setLock g none).setControl (.context c) k).cogs.get? g = some { x with lock := none } := by
    simp [turned, setLock, cog_onCog, hx]
  have aborts (ends : phase = .abort ∨ (m.interrupted c = true ∧ ∃ failure, phase = .contend failure)) :
      ∃ m₁ k, m.abort (.context c) c g x aw = m₁.setControl (.context c) k ∧ (∀ b, m.Stirred m₁ b) ∧
        Strides m c g x aw (m.abort (.context c) c g x aw) phase k := by
    obtain ⟨m₁, k, hm, hs, hk⟩ := m.abort_eq x aw
    exact ⟨m₁, k, hm, hs, .aborts ends hk (cog_abort c aw hx)⟩
  cases h with
  | handsOver =>
    refine ⟨_, _, rfl, fun b => .broadcast (.same rfl), .enlists (behind_announce ..) ?_ (notices_announce ..)⟩
    refine ⟨{ x with scheduler := (x.scheduler.suspend aw.task c aw.label).addWaiter c, lock := none },
      by simp [handedOver, setLock, onScheduler, cog_onCog, hx], ?_⟩
    exact (Scheduler.mem_addWaiter ..).mpr (.inl rfl)
  | handsOn => exact ⟨_, _, rfl, fun b => .same rfl, .hands⟩
  | @waits w move going moves =>
    refine proceeds rfl (.waits going moves ?_ rfl rfl rfl)
    show ((m.parkers.put (.own c) move.parker).get? (.own c)).getD {} = move.parker
    rw [Table.get?_put_self]
    rfl
  | interrupted answer why => exact proceeds rfl (.interrupted answer why)
  | waitFails answer failed other calm => exact proceeds rfl (.waitFailed answer failed other calm)
  | promised answer calm => exact proceeds rfl (.answered answer (.inl rfl) calm)
  | hinted answer calm => exact proceeds rfl (.answered answer (.inr rfl) calm)
  | marks => exact ⟨_, _, rfl, fun b => .same rfl, .marked (behind_announce ..) (notices_announce ..)⟩
  | reenters => exact proceeds rfl .reenters
  | reentersFailed => exact proceeds rfl (.reentersFailed _)
  | subscribes sources => exact proceeds rfl (.subscribes sources rfl)
  | subscribeFails sources => exact proceeds rfl (.subscribeFailed sources)
  | @aborts failure interrupted => exact aborts (.inr ⟨interrupted, failure, rfl⟩)
  | taken calm active => exact proceeds rfl (.taken _ active rfl rfl calm)
  | returns calm free =>
    exact ⟨_, _, rfl, fun b => .same rfl,
      .fails free (.inl rfl) (behind_announce ..) (cog_takeSlot m c aw _ hx) calm⟩
  | resumes calm free holds =>
    exact ⟨_, _, rfl, fun b => .same rfl, .resumes free (Guard.evaluate_ok.mp holds) (behind_announce ..)
      (cog_takeSlot m.turned c aw none hx) calm⟩
  | denied calm free fails => exact proceeds rfl (.refused free (Guard.evaluate_ok.mp fails) rfl rfl calm)
  | fails calm free failed =>
    exact ⟨_, _, rfl, fun b => .same rfl, .fails free (.inr ⟨rfl, failed⟩) (behind_announce ..)
      (cog_takeSlot m.turned c aw _ hx) calm⟩
  | unwinds calm _ panics => exact ⟨_, _, rfl, fun b => .same rfl, .unwinds panics rfl (freed _) calm⟩
  | aims deadline => exact proceeds rfl (.aimed deadline (freed _))
  | aimFails deadline => exact proceeds rfl (.aimFailed deadline (freed _))
  | sleeps => exact proceeds rfl (.sleeps _ (freed _))
  | wakes => exact proceeds rfl (.wakes ..)
  | abandons => exact aborts (.inl rfl)

theorem step_strides {t : Thread S A V} {aw : Awaiting S A V} {phase : Phase S}
    (ht : m.threads.get? (.context c) = some t) (hg : t.cog = some g)
    (hk : t.control = .awaiting aw phase) (hx : m.cogs.get? g = some x)
    (h : m.step (.context c) = some m') :
    ∃ k, m'.threads.get? (.context c) = some { t with control := k } ∧
      Strides m c g x aw m' phase k := by
  obtain ⟨m₁, k, rfl, hs, strides⟩ := stepAwait_strides hx (awaitStep_of ht hg hk hx h)
  exact ⟨k, thread_set k ht (hs _), strides⟩

end Machine

/-! ## The start of a context in its place -/

/-- How many stages of the start of a context come after this one. -/
def Stage.ahead : Stage → Nat
  | .check => 2
  | .register _ => 1
  | .launch _ => 0

/-- What a step of the start of a context comes to, while its own task awaits. -/
inductive Hands (m : Machine S A V) (c : ContextId) (g : CogId) (aw : Awaiting S A V)
    (m' : Machine S A V) : Stage → Control S A V → Prop where
  | goesOn {stage stage' : Stage} : stage'.ahead < stage.ahead →
      Hands m c g aw m' stage (.starting stage' (.handover aw))
  /-- The context has been started or has failed to, and the thread is enlisted. -/
  | enlists {stage : Stage} {k : Control S A V} : k.behind = .awaiting aw (.wait (.start aw.guard)) →
      (∃ x', m'.cogs.get? g = some x' ∧ c ∈ x'.scheduler.waiters) → k.notices ≤ 1 →
      Hands m c g aw m' stage k
  /-- The system panics over the name of the context. -/
  | unwinds {d : ContextId} {k : Control S A V} :
      Registry.nameable (((m.contexts.get? d).map (·.name)).getD "") = false →
      k.behind = .run (some ⟨aw.task, false⟩) (aw.next (.panic Registry.namePanic)) →
      Hands m c g aw m' (.launch d) k

namespace Machine

theorem hands_handedOver {m₁ : Machine S A V} {t : Thread S A V} {aw : Awaiting S A V} (stage : Stage)
    (ht : m.threads.get? (.context c) = some t) (hm : m.Stirred m₁ (.context c))
    (hx : m₁.cogs.get? g = some x) :
    ∃ k, (m₁.handedOver (.context c) c g aw).threads.get? (.context c) =
        some { t with control := k } ∧
      Hands m c g aw (m₁.handedOver (.context c) c g aw) stage k := by
  refine ⟨_, thread_set _ ht (hm.broadcast.trans (.same rfl)),
    .enlists (behind_announce ..) ?_ (notices_announce ..)⟩
  refine ⟨{ x with scheduler := x.scheduler.addWaiter c, lock := none },
    by simp [handedOver, setLock, onScheduler, cog_onCog, hx], ?_⟩
  exact (Scheduler.mem_addWaiter ..).mpr (.inl rfl)

theorem stepStart_hands (ho : m.Ordered) {t : Thread S A V} {aw : Awaiting S A V} {stage : Stage}
    (ht : m.threads.get? (.context c) = some t) (hg : t.cog = some g)
    (hk : t.control = .starting stage (.handover aw)) (hx : m.cogs.get? g = some x)
    (h : m.StartStep (.context c) (some g) (.handover aw) stage m') :
    ∃ k, m'.threads.get? (.context c) = some { t with control := k } ∧ Hands m c g aw m' stage k := by
  have struck (d : ContextId) : m.Stirred (m.strike d) (.context c) := (Stirred.same rfl).strike
  cases h with
  | closed => exact hands_handedOver _ ht (.same rfl) hx
  | numbers => exact ⟨_, thread_set _ ht (.same rfl), .goesOn Nat.one_lt_two⟩
  | enters => exact ⟨_, thread_set _ ht (.same rfl), .goesOn Nat.zero_lt_one⟩
  | panics unnameable => exact ⟨_, thread_set _ ht ((struck _).trans (.same rfl)), .unwinds unnameable rfl⟩
  | @refused d =>
    have there : (m.strike d).cogs.get? g = some x := by rw [cogs_strike, hx]
    exact hands_handedOver _ ht ((struck d).trans (.same rfl)) there
  | @granted d =>
    have hl : m.look (.context c) = some (some g, .hand (.launch d) aw.task) := by
      rw [look_eq m _ ht, hg, hk]
      rfl
    obtain ⟨-, absent, -⟩ := ho.newcomer hl rfl
    have hcd : Agent.context c ≠ .context d := fun e => by simp [← e, hl] at absent
    refine hands_handedOver _ ht ⟨false, ?_⟩ (cog_onCog_self _ _ _ hx)
    simp [onScheduler, onCog, Table.get?_put, hcd]

end Machine

/-! ## Any step in an await -/

/-- What a step of the thread `c` of the cog `g` in the await `aw` comes to, from one control to
the next. -/
inductive Treads (m : Machine S A V) (c : ContextId) (g : CogId) (x : Cog S A V)
    (aw : Awaiting S A V) (m' : Machine S A V) : Control S A V → Control S A V → Prop where
  | tells {k : Control S A V} (i : CogId) (n : Notice) : k.await? = some aw →
      m'.cogs = m.cogs → Treads m c g x aw m' (.notify i n k) k
  | hands {stage : Stage} {k : Control S A V} : Hands m c g aw m' stage k →
      Treads m c g x aw m' (.starting stage (.handover aw)) k
  | strides {phase : Phase S} {k : Control S A V} : Strides m c g x aw m' phase k →
      Treads m c g x aw m' (.awaiting aw phase) k

theorem Machine.step_treads (ho : m.Ordered) {t : Thread S A V} {aw : Awaiting S A V}
    (ht : m.threads.get? (.context c) = some t) (hg : t.cog = some g) (hx : m.cogs.get? g = some x)
    (hk : t.control.await? = some aw) (h : m.step (.context c) = some m') :
    ∃ k, m'.threads.get? (.context c) = some { t with control := k } ∧
      Treads m c g x aw m' t.control k := by
  have took := step_of ht h
  rw [hg] at took
  generalize hc : t.control = control at hk took ⊢
  cases took with
  | tells => exact ⟨_, thread_set _ ht (.same (threads_deliver ..)), .tells _ _ hk (by simp)⟩
  | @starts stage e _ took => cases e with
    | handover aw' =>
      cases hk
      obtain ⟨k, ht', hands⟩ := stepStart_hands ho ht hg hc hx took
      exact ⟨k, ht', .hands hands⟩
    | _ => simp [Control.await?, Control.behind] at hk
  | awaits _ _ _ took =>
    cases hk
    obtain ⟨k, ht', strides⟩ := step_strides ht hg hc hx h
    exact ⟨k, ht', .strides strides⟩
  | _ => simp [Control.await?, Control.behind] at hk

/-! ## How an await ends -/

section
open Machine

/-- The guard has been found to hold under the lock while the slot was free, and
the context has taken the slot in the same critical section. -/
structure Resumes (m : Machine S A V) (c : ContextId) (g : CogId) (aw : Awaiting S A V)
    (m' : Machine S A V) : Prop where
  asked : ∃ x, m.cogs.get? g = some x ∧ x.lock = some (.context c) ∧ x.scheduler.active = none ∧
    aw.guard.poll m.sight x.state = .ok true
  taken : ∃ x', m'.cogs.get? g = some x' ∧ x'.lock = none ∧ x'.scheduler.active = some c ∧
    x'.scheduler.activeTask = some aw.task
  /-- The state is the one that the guard has been asked about. -/
  kept : (m'.cogs.get? g).map (·.state) = (m.cogs.get? g).map (·.state)

/-- No panic of a guard is caught if its label panics as well, nor that over the name of a
context that is to be started. -/
inductive Unwinds (m : Machine S A V) (c : ContextId) (g : CogId) (aw : Awaiting S A V) : Prop where
  | guard {x : Cog S A V} {p : Payload} : m.cogs.get? g = some x →
      aw.guard.evaluate m.sight x.state = .panic p → Unwinds m c g aw
  | name {d : ContextId} : m.look (.context c) = some (some g, .hand (.launch d) aw.task) →
      Registry.nameable (((m.contexts.get? d).map (·.name)).getD "") = false → Unwinds m c g aw

/-- The cog has the task not, or not any more, among those that are suspended. -/
def Machine.Awake (m : Machine S A V) (g : CogId) (t : TaskId) : Prop :=
  ∀ x r, m.cogs.get? g = some x → x.scheduler.records.get? t = some r → r.view.state ≠ .suspended

/-- How the step of a thread in the await `aw` leaves it. -/
inductive Outcome (m : Machine S A V) (c : ContextId) (g : CogId) (aw : Awaiting S A V)
    (m' : Machine S A V) (k : Control S A V) : Prop where
  | awaits : k.await? = some aw → Outcome m c g aw m' k
  | aborted : k.behind = .run (some ⟨aw.task, false⟩) (aw.next (.error .interrupted)) →
      m'.Awake g aw.task → Outcome m c g aw m' k
  | failed (e : GuardError) :
      k.behind = .run (some ⟨aw.task, true⟩) (aw.next (.error (.guard e))) →
      m'.Awake g aw.task → Outcome m c g aw m' k
  | unwound (p : Payload) : k.behind = .run (some ⟨aw.task, false⟩) (aw.next (.panic p)) →
      Unwinds m c g aw → Outcome m c g aw m' k
  | resumes : k.behind = .run (some ⟨aw.task, true⟩) (aw.next (.ok ())) →
      m'.Awake g aw.task → Resumes m c g aw m' → Outcome m c g aw m' k

/-- A step at a phase of the await takes it on or ends it. -/
theorem Strides.outcome {aw : Awaiting S A V} {phase : Phase S} {k : Control S A V}
    (h : Strides m c g x aw m' phase k) (hx : m.cogs.get? g = some x)
    (hlock : phase.stance aw.task = .contend aw.task → x.lock = some (.context c)) :
    Outcome m c g aw m' k := by
  cases h with
  | hands => exact .awaits rfl
  | enlists hk => exact .awaits (Control.await?_of_behind hk)
  | marked hk => exact .awaits (Control.await?_of_behind hk)
  | aborts _ hk hx' =>
    refine .aborted hk fun y r hy hr => ?_
    cases hx'.symm.trans hy
    rw [Scheduler.record_abort, if_pos rfl] at hr
    cases hr
  | fails _ _ hk hx' =>
    refine .failed _ hk fun y r hy hr => ?_
    cases hx'.symm.trans hy
    rw [Scheduler.state_resume _ _ _ _ hr]
    nofun
  | unwinds hp hk => exact .unwound _ hk (.guard hx hp)
  | resumes free holds hk hx' =>
    refine .resumes hk (fun y r hy hr => ?_) ⟨⟨x, hx, hlock rfl, free, holds⟩, ⟨_, hx', rfl, ?_, ?_⟩, ?_⟩
    · cases hx'.symm.trans hy
      rw [Scheduler.state_resume _ _ _ _ hr]
      nofun
    · exact Scheduler.active_resume ..
    · exact Scheduler.activeTask_resume ..
    · rw [hx', hx]
      rfl
  | proceeds => exact .awaits rfl

namespace Machine

/-- What the step of a thread in an await comes to. -/
theorem step_outcome (ho : m.Ordered) {t : Thread S A V} {aw : Awaiting S A V}
    (ht : m.threads.get? (.context c) = some t) (hg : t.cog = some g)
    (hk : t.control.await? = some aw) (h : m.step (.context c) = some m') :
    ∃ k, m'.threads.get? (.context c) = some { t with control := k } ∧ Outcome m c g aw m' k := by
  have hl := look_eq m _ ht
  rw [hg] at hl
  obtain ⟨-, x, hx⟩ := ho.home hl
  obtain ⟨k, ht', treads⟩ := step_treads ho ht hg hx hk h
  refine ⟨k, ht', ?_⟩
  generalize hc : t.control = control at treads
  cases treads with
  | tells _ _ hk' => exact .awaits hk'
  | hands hands => cases hands with
    | goesOn => exact .awaits rfl
    | enlists hk => exact .awaits (Control.await?_of_behind hk)
    | unwinds hn hk => exact .unwound _ hk (.name (by rw [hl, hc]; rfl) hn)
  | strides strides => exact strides.outcome hx (ho.lock_of_contend ht hg hc hx)

end Machine

end

end ObjectGroups
