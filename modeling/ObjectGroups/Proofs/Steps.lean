/-
What a step of a thread comes to, case by case.

`Step` has one case for each branch of `step`: what the thread is about to do,
under which condition it takes the branch, and the machine that comes of it. A
body, the signals of a thread, the start of a context and an await have
relations of their own. `step_cases` finds the case of a step. Whatever is said
about all steps is read off the cases, so that nobody else opens `step` for it.
-/
import ObjectGroups.Machine.Step
import ObjectGroups.Proofs.Books

namespace ObjectGroups

variable {S A V : Type}

namespace Machine

/-! ## In a body -/

/-- What a step of the thread `a`, of the cog `own`, comes to in a body. -/
inductive BodyStep (m : Machine S A V) (a : Agent) (own : Option CogId) (seat : Option Seat) :
    Body S A V → Machine S A V → Prop where
  | quits {r : Exit TaskError V} : (∃ n, a = .caller n) →
      BodyStep m a own seat (.exit r) { m with threads := m.threads.remove a }
  | completes {c : ContextId} {g : CogId} {k : TaskId} {v : V} :
      a = .context c → own = some g → seat = some ⟨k, true⟩ →
      BodyStep m a own seat (.exit (.ok v))
        ((m.onCog g fun x => { x with ended := x.ended + 1 }).setControl a (.complete k .completed))
  /-- The body has ended with an error or a panic, which is reported. -/
  | fails {c : ContextId} {g : CogId} {k : TaskId} {r : Exit TaskError V} {report : Report} :
      a = .context c → own = some g → seat = some ⟨k, true⟩ → (∀ v, r ≠ .ok v) →
      BodyStep m a own seat (.exit r)
        (((m.report report).onCog g fun x => { x with ended := x.ended + 1 }).setControl a (.complete k .failed))
  | strands {c : ContextId} {g : CogId} {k : TaskId} {r : Exit TaskError V} :
      a = .context c → own = some g → seat = some ⟨k, false⟩ →
      BodyStep m a own seat (.exit r) (m.setControl a (.strand k))
  /-- The body of a context of its own has ended. -/
  | leaves {c : ContextId} {r : Exit TaskError V} : a = .context c → own = none ∨ seat = none →
      BodyStep m a own seat (.exit r) (m.setControl a .leave)
  | accesses {g : CogId} {x : Cog S A V} {k : TaskId} {change : S → S} {next : S → Body S A V}
      {refused : Body S A V} : own = some g → seat = some ⟨k, true⟩ → m.cogs.get? g = some x →
      BodyStep m a own seat (.access change next refused)
        ((m.onCog g fun y => { y with state := change y.state }).setControl a (.run seat (next x.state)))
  | refuses {change : S → S} {next : S → Body S A V} {refused : Body S A V} :
      (∀ g k, own = some g → seat = some ⟨k, true⟩ → m.cogs.get? g = none) →
      BodyStep m a own seat (.access change next refused) (m.setControl a (.run seat refused))
  | remembers {change : A → A} {next : A → Body S A V} :
      BodyStep m a own seat (.memory change next)
        ({ m with memory := change m.memory }.setControl a (.run seat (next m.memory)))
  | passes {ready : A → Bool} {next : Body S A V} : ready m.memory = true →
      BodyStep m a own seat (.block ready next) (m.setControl a (.run seat next))
  | awaits {k : TaskId} {guard : Guard S} {next : Exit TaskError Unit → Body S A V} :
      seat = some ⟨k, true⟩ →
      BodyStep m a own seat (.await guard next)
        (m.turned.setControl a (.awaiting { task := k, guard, label := awaitLabel m.sight guard, next } .release))
  | inactive {guard : Guard S} {next : Exit TaskError Unit → Body S A V} : (∀ k, seat ≠ some ⟨k, true⟩) →
      BodyStep m a own seat (.await guard next) (m.setControl a (.run seat (next (.error .notActive))))
  | closed {g : CogId} {name : String} {task : Body S A V} {next : Exit RuntimeError TaskId → Body S A V} :
      m.registry.shutdown = true →
      BodyStep m a own seat (.submit g name task next)
        ({ m with nextTask := m.nextTask.next }.setControl a (.run seat (next (.error .shutDown))))
  | submits {g : CogId} {name : String} {task : Body S A V} {next : Exit RuntimeError TaskId → Body S A V} :
      m.registry.shutdown = false →
      BodyStep m a own seat (.submit g name task next)
        ({ m with nextTask := m.nextTask.next }.setControl a
          (.enrol seat g { id := m.nextTask, name, cog := g, submittedAt := m.now } task next))
  | starts {label : String} {waker : Waker} {main : Body S A V}
      {next : Exit RuntimeError ContextId → Body S A V} :
      BodyStep m a own seat (.start label waker main next)
        (m.setControl a (.starting .check (.direct seat label waker main next)))
  /-- The body asks for something, and is told at once. -/
  | replies {r : Request S V} {next : r.Reply → Body S A V} {reply : r.Reply} :
      BodyStep m a own seat (.request r next) (m.setControl a (.run seat (next reply)))
  | advances {d : Span} {next : Unit → Body S A V} :
      BodyStep m a own seat (.request (.advance d) next)
        ({ m with now := m.now + d }.setControl a (.run seat (next ())))
  | makes {next : FutureId → Body S A V} :
      BodyStep m a own seat (.request .newFuture next)
        ({ m with nextFuture := m.nextFuture + 1 }.setControl a (.run seat (next ⟨m.nextFuture⟩)))
  | resolves {f : FutureId} {v : ObjectGroups.Settled V}
      {next : Option (ObjectGroups.Settled V) → Body S A V} :
      (m.future f).value = none →
      BodyStep m a own seat (.request (.resolve f v) next)
        ({ m with futures := m.futures.put f { value := some v } }.setControl a
          (.signal seat ((m.future f).waiters.map .wake) (next none)))
  | interrupts {c : ContextId} {next : Bool → Body S A V} : m.registry.live.contains c = true →
      BodyStep m a own seat (.request (.interrupt c) next)
        (m.setControl a (.signal seat (m.interruption c) (next true)))
  | cancels {c : ContextId} {next : Unit → Body S A V} :
      BodyStep m a own seat (.request (.cancel c) next)
        (m.setControl a (.signal seat (m.interruption c) (next ())))
  | raises {p : ParkerId} {next : Unit → Body S A V} : m.lends p = true →
      BodyStep m a own seat (.request (.interruptParker p) next)
        (m.setControl a (.signal seat [.interrupt p] (next ())))
  | wakes {w : Waker} {next : Unit → Body S A V} :
      BodyStep m a own seat (.request (.wake w) next) (m.setControl a (.signal seat [.wake w] (next ())))
  | closes {next : Unit → Body S A V} : m.registry.shutdown = false →
      BodyStep m a own seat (.request .shutdown next)
        ({ m with registry := { m.registry with shutdown := true } }.setControl a (.sweep seat (next ())))
  | evaluates {g : CogId} {x : Cog S A V} {guard : Guard S} {next : Answer → Body S A V} :
      m.cogs.get? g = some x →
      BodyStep m a own seat (.request (.evaluate g guard) next)
        (m.turned.setControl a (.run seat (next (guard.evaluate m.sight x.state))))
  | holds {g : CogId} {guard : Guard S} {p : ParkerId} {next : Answer → Body S A V} :
      BodyStep m a own seat (.request (.wait g guard p) next) (m.setControl a (.hold seat g p (.start guard) next))
  | parks {p : ParkerId} {deadline : Option Instant} {next : Except GuardError Unit → Body S A V} :
      BodyStep m a own seat (.request (.park p deadline) next)
        (m.setControl a (.park seat p deadline .awake next))
  | idles {d : Span} {next : Bool → Body S A V} :
      BodyStep m a own seat (.request (.awaitIdle d) next)
        (m.setControl a (.idle seat (m.now.after? d) .awake none next))
  | terminates {d : Span} {next : Bool → Body S A V} :
      BodyStep m a own seat (.request (.awaitTermination d) next)
        (m.setControl a (.idle seat (m.now.after? d) .awake (some d) next))
  | lingers {g : CogId} {k : TaskId} {d : Span} {next : Bool → Body S A V} :
      BodyStep m a own seat (.request (.awaitTask g k d) next)
        (m.setControl a (.linger seat g k (m.now.after? d) .awake next))

section
variable {m m' : Machine S A V} {a : Agent} {t : Thread S A V} {seat : Option Seat}

theorem stepExit_cases (r : Exit TaskError V) : m.BodyStep a t.cog seat (.exit r) (m.stepExit a t seat r) := by
  unfold stepExit
  cases a with
  | caller n => exact .quits ⟨n, rfl⟩
  | context c => cases hg : t.cog with
    | none => exact .leaves rfl (.inl rfl)
    | some g => cases seat with
      | none => exact .leaves rfl (.inr rfl)
      | some s =>
        obtain ⟨k, active⟩ := s
        cases active with
        | false => exact .strands rfl rfl rfl
        | true => cases r with
          | ok v => exact .completes rfl rfl rfl
          | error e => exact .fails rfl rfl rfl (by simp)
          | panic p => exact .fails rfl rfl rfl (by simp)

theorem stepRequest_cases (r : Request S V) (next : r.Reply → Body S A V) :
    m.BodyStep a t.cog seat (.request r next) (m.stepRequest a t seat r next) := by
  cases r with
  | advance d => exact .advances
  | newFuture => exact .makes
  | resolve f v =>
    simp only [stepRequest, Future.resolve]
    cases hv : (m.future f).value with
    | some v' => exact .replies
    | none => exact .resolves hv
  | interrupt c =>
    simp only [stepRequest]
    split
    · next live => exact .interrupts live
    · exact .replies
  | cancel c => exact .cancels
  | interruptParker p =>
    simp only [stepRequest]
    split
    · next lent => exact .raises lent
    · exact .replies
  | wake w => exact .wakes
  | shutdown =>
    simp only [stepRequest]
    split
    · exact .replies
    · next opened => exact .closes (by simpa using opened)
  | evaluate g guard =>
    simp only [stepRequest]
    split
    · next hx => exact .evaluates hx
    · exact .replies
  | wait g guard p => exact .holds
  | park p deadline => exact .parks
  | awaitIdle d => exact .idles
  | awaitTermination d => exact .terminates
  | awaitTask g k d => exact .lingers
  | _ => exact .replies

theorem stepBody_cases {b : Body S A V} (h : m.stepBody a t seat b = some m') :
    m.BodyStep a t.cog seat b m' := by
  cases b with
  | exit r =>
    cases h
    exact stepExit_cases r
  | access change next refused =>
    simp only [stepBody] at h
    split at h
    · next g s hg =>
      obtain ⟨k, active⟩ := s
      split at h
      · next x hx =>
        cases active with
        | false =>
          cases h
          exact .refuses (by simp)
        | true =>
          cases h
          exact .accesses hg rfl hx
      · next hx =>
        cases h
        refine .refuses fun g' k' hg' _ => ?_
        cases hg.symm.trans hg'
        exact hx
    · next apart =>
      cases h
      exact .refuses fun g k hg hs => absurd hs (apart g _ hg)
  | memory change next =>
    cases h
    exact .remembers
  | block ready next =>
    simp only [stepBody] at h
    split at h <;> cases h
    exact .passes ‹_›
  | await guard next =>
    simp only [stepBody] at h
    split at h
    · cases h
      exact .awaits rfl
    · next apart =>
      cases h
      exact .inactive apart
  | submit g name task next =>
    simp only [stepBody] at h
    split at h <;> cases h
    · exact .closed ‹_›
    · next opened => exact .submits (by simpa using opened)
  | start label waker main next =>
    cases h
    exact .starts
  | request r next =>
    cases h
    exact stepRequest_cases r next

end

/-! ## Signals -/

/-- What a step of a thread comes to that has these signals still to send. -/
inductive SignalStep (m : Machine S A V) (a : Agent) (seat : Option Seat) (next : Body S A V) :
    List Signal → Machine S A V → Prop where
  | through : SignalStep m a seat next [] (m.setControl a (.run seat next))
  | interrupts {p : ParkerId} {rest : List Signal} :
      SignalStep m a seat next (.interrupt p :: rest)
        ((m.interruptParker p).setControl a (.signal seat rest next))
  | unparks {p : ParkerId} {rest : List Signal} :
      SignalStep m a seat next (.wake (.parker p) :: rest) ((m.unpark p).setControl a (.signal seat rest next))
  | counts {n : Nat} {rest : List Signal} :
      SignalStep m a seat next (.wake (.counter n) :: rest)
        ({ m with counters := m.counters.modify n (· + 1) }.setControl a (.signal seat rest next))
  /-- The cog has gone. -/
  | misses {g : CogId} {rest : List Signal} : m.cogExists g = false →
      SignalStep m a seat next (.wake (.scheduler g) :: rest) (m.setControl a (.signal seat rest next))
  | rings {g : CogId} {rest : List Signal} : m.cogExists g = true → m.unlocked g = true →
      SignalStep m a seat next (.wake (.scheduler g) :: rest)
        ((m.notifyAll (.slot g)).setControl a (.signal seat rest next))

theorem stepSignal_cases {m m' : Machine S A V} {a : Agent} {seat : Option Seat} {next : Body S A V}
    {signals : List Signal} (h : m.stepSignal a seat next signals = some m') :
    m.SignalStep a seat next signals m' := by
  cases signals with
  | nil =>
    cases h
    exact .through
  | cons s rest => cases s with
    | interrupt p =>
      cases h
      exact .interrupts
    | wake w => cases w with
      | parker p =>
        cases h
        exact .unparks
      | counter n =>
        cases h
        exact .counts
      | scheduler g =>
        simp only [stepSignal] at h
        split at h
        · next gone =>
          cases h
          exact .misses (by simpa using gone)
        · next there =>
          split at h <;> cases h
          exact .rings (by simpa using there) ‹_›

/-! ## The start of a context -/

/-- What a step of the thread `a`, of the cog `own`, comes to at a stage of the start of a context. -/
inductive StartStep (m : Machine S A V) (a : Agent) (own : Option CogId) (e : Errand S A V) :
    Stage → Machine S A V → Prop where
  | closed : m.registry.shutdown = true → StartStep m a own e .check (m.startFailed a own .shutDown e)
  | numbers : m.registry.shutdown = false →
      StartStep m a own e .check
        ({ m with registry := { m.registry with nextContext := m.registry.nextContext.next } }.setControl a
          (.starting (.register m.registry.nextContext) e))
  | enters {c : ContextId} :
      StartStep m a own e (.register c)
        ({ m with
          contexts := m.contexts.put c
            { name := m.registry.contextName (m.newcomer own e).1 c
              waker := (m.newcomer own e).2.1
              cog := e.host own }
          parkers := m.parkers.put (.own c) {}
          registry := m.registry.enter c }.setControl a (.starting (.launch c) e))
  /-- The system panics over the name of the context. -/
  | panics {c : ContextId} : Registry.nameable (((m.contexts.get? c).map (·.name)).getD "") = false →
      StartStep m a own e (.launch c) ((m.strike c).startUnwound a own Registry.namePanic e)
  | refused {c : ContextId} : Registry.nameable (((m.contexts.get? c).map (·.name)).getD "") = true →
      m.registry.admits c = false →
      StartStep m a own e (.launch c) ((m.strike c).startFailed a own (.spawn m.registry.refusal) e)
  | granted {c : ContextId} : Registry.nameable (((m.contexts.get? c).map (·.name)).getD "") = true →
      m.registry.admits c = true →
      StartStep m a own e (.launch c)
        ({ m with
          threads := m.threads.put (.context c) (m.newcomer own e).2.2
          registry := m.registry.countStarted }.startSucceeded a own c e)

theorem stepStart_cases (m : Machine S A V) (a : Agent) (own : Option CogId) (stage : Stage) (e : Errand S A V) :
    m.StartStep a own e stage (m.stepStart a own stage e) := by
  cases stage with
  | check =>
    simp only [stepStart]
    split
    · next shut => exact .closed shut
    · next opened => exact .numbers (by simpa using opened)
  | register c => exact .enters
  | launch c =>
    simp only [stepStart]
    split
    · next unnameable => exact .panics (by simpa using unnameable)
    · next nameable =>
      have nameable : Registry.nameable (((m.contexts.get? c).map (·.name)).getD "") = true := by
        simpa using nameable
      split
      · next refused => exact .refused nameable (by simpa using refused)
      · next admitted => exact .granted nameable (by simpa using admitted)

/-! ## In an await -/

/-- What a step of the context `c`, of the cog `g`, comes to at a phase of its await. -/
inductive AwaitStep (m : Machine S A V) (c : ContextId) (g : CogId) (x : Cog S A V) (aw : Awaiting S A V) :
    Phase S → Machine S A V → Prop where
  | handsOver : x.lock = none → x.scheduler.queue = [] →
      AwaitStep m c g x aw .release
        ((m.onScheduler g (·.suspend aw.task c aw.label)).handedOver (.context c) c g aw)
  | handsOn : x.lock = none → x.scheduler.queue ≠ [] →
      AwaitStep m c g x aw .release
        (((m.onScheduler g (·.suspend aw.task c aw.label)).setLock g (some (.context c))).setControl (.context c)
          (.starting .check (.handover aw)))
  | waits {w : Wait S} {move : WaitMove S} : w.result? = none →
      w.step m.sight x.state (m.parker (.own c)) = some move →
      AwaitStep m c g x aw (.wait w)
        ((({ m with parkers := m.parkers.put (.own c) move.parker }.subscribe (.parker (.own c)) move.joins).turned)
          |>.setControl (.context c) (.awaiting aw (.wait move.wait)))
  | interrupted {w : Wait S} {r : Answer} : w.result? = some r →
      containedAnswer "wait" r = .error .interrupted ∨ m.interrupted c = true →
      AwaitStep m c g x aw (.wait w) (m.turned.setControl (.context c) (.awaiting aw .abort))
  | waitFails {w : Wait S} {r : Answer} {e : GuardError} : w.result? = some r →
      containedAnswer "wait" r = .error e → e ≠ .interrupted → m.interrupted c = false →
      AwaitStep m c g x aw (.wait w) (m.turned.setControl (.context c) (.awaiting aw (.reenter (some e))))
  /-- The wait has ended, and its guard says that it stays true. -/
  | promised {w : Wait S} : w.result? = some (.ok true) → m.interrupted c = false →
      aw.guard.stays m.sight = .ok true →
      AwaitStep m c g x aw (.wait w) (m.turned.setControl (.context c) (.awaiting aw .ready))
  | hinted {w : Wait S} {b : Bool} : w.result? = some (.ok b) → m.interrupted c = false →
      AwaitStep m c g x aw (.wait w) (m.turned.setControl (.context c) (.awaiting aw (.reenter none)))
  | marks : x.lock = none →
      AwaitStep m c g x aw .ready
        ((m.onScheduler g (·.markReady aw.task)).setControl (.context c)
          (announce g .ready (((m.onScheduler g (·.markReady aw.task)).cogs.get? g).bind
            fun y => y.scheduler.viewOf aw.task) (.awaiting aw (.reenter none))))
  | reenters : x.lock = none →
      AwaitStep m c g x aw (.reenter none)
        ((m.onCog g fun y => { y with scheduler := y.scheduler.removeWaiter c, lock := some (.context c) }).setControl
          (.context c) (.awaiting aw .subscribe))
  | reentersFailed {e : GuardError} : x.lock = none →
      AwaitStep m c g x aw (.reenter (some e))
        ((m.onCog g fun y => { y with scheduler := y.scheduler.removeWaiter c, lock := some (.context c) }).setControl
          (.context c) (.awaiting aw (.contend (some e))))
  | subscribes {fs : List FutureId} {b : Bool} : aw.guard.sources m.sight = (fs, .ok b) →
      AwaitStep m c g x aw .subscribe
        ((m.subscribe (.scheduler g) fs).turned.setControl (.context c) (.awaiting aw (.contend none)))
  | subscribeFails {fs : List FutureId} {p : Payload} : aw.guard.sources m.sight = (fs, .error p) →
      AwaitStep m c g x aw .subscribe
        ((m.subscribe (.scheduler g) fs).turned.setControl (.context c)
          (.awaiting aw (.contend (some (panicked "subscribe" p)))))
  | aborts {failure : Option GuardError} : m.interrupted c = true →
      AwaitStep m c g x aw (.contend failure) (m.abort (.context c) c g x aw)
  /-- Somebody has the slot. -/
  | taken {failure : Option GuardError} : m.interrupted c = false → x.scheduler.active ≠ none →
      AwaitStep m c g x aw (.contend failure) (m.setControl (.context c) (.awaiting aw (.doze failure)))
  /-- The guard has failed before. -/
  | returns {e : GuardError} : m.interrupted c = false → x.scheduler.active = none →
      AwaitStep m c g x aw (.contend (some e)) (m.takeSlot (.context c) c g x aw (some e))
  | resumes : m.interrupted c = false → x.scheduler.active = none →
      aw.guard.evaluate m.sight x.state = .ok true →
      AwaitStep m c g x aw (.contend none) (m.turned.takeSlot (.context c) c g x aw none)
  | denied : m.interrupted c = false → x.scheduler.active = none →
      aw.guard.evaluate m.sight x.state = .ok false →
      AwaitStep m c g x aw (.contend none) (m.turned.setControl (.context c) (.awaiting aw (.doze none)))
  | fails {e : GuardError} : m.interrupted c = false → x.scheduler.active = none →
      aw.guard.evaluate m.sight x.state = .error e →
      AwaitStep m c g x aw (.contend none) (m.turned.takeSlot (.context c) c g x aw (some e))
  | unwinds {p : Payload} : m.interrupted c = false → x.scheduler.active = none →
      aw.guard.evaluate m.sight x.state = .panic p →
      AwaitStep m c g x aw (.contend none) ((m.turned.setLock g none).goOn (.context c) aw false (.panic p))
  | aims {d : Option Instant} : aw.guard.deadline m.sight = .ok d →
      AwaitStep m c g x aw (.doze none)
        ((m.turned.setLock g none).setControl (.context c) (.awaiting aw (.asleep none d false)))
  | aimFails {p : Payload} : aw.guard.deadline m.sight = .error p →
      AwaitStep m c g x aw (.doze none)
        ((m.turned.setLock g none).setControl (.context c)
          (.awaiting aw (.asleep (some (panicked "wake_deadline" p)) none false)))
  | sleeps {e : GuardError} :
      AwaitStep m c g x aw (.doze (some e))
        ((m.turned.setLock g none).setControl (.context c) (.awaiting aw (.asleep (some e) none false)))
  | wakes {failure : Option GuardError} {deadline : Option Instant} {notified : Bool} : x.lock = none →
      notified = true ∨ Instant.due m.now deadline = true →
      AwaitStep m c g x aw (.asleep failure deadline notified)
        ((m.setLock g (some (.context c))).setControl (.context c) (.awaiting aw (.contend failure)))
  | abandons : x.lock = none → AwaitStep m c g x aw .abort (m.abort (.context c) c g x aw)

section
variable {m m' : Machine S A V} {c : ContextId} {g : CogId} {x : Cog S A V} {aw : Awaiting S A V}

theorem stepWait_cases {w : Wait S} (h : m.stepWait (.context c) c x aw w = some m') :
    m.AwaitStep c g x aw (.wait w) m' := by
  unfold stepWait at h
  split at h
  · next r hr =>
    cases h
    unfold waited
    split
    · next hw => exact .interrupted hr (.inl hw)
    · next e hne hw =>
      split
      · next hi => exact .interrupted hr (.inr hi)
      · next hi => exact .waitFails hr hw hne (Bool.eq_false_iff.mpr hi)
    · next b hw =>
      obtain rfl : r = .ok b := by cases r <;> cases hw; rfl
      split
      · next hi => exact .interrupted hr (.inr hi)
      · next hi =>
        have going : m.interrupted c = false := Bool.eq_false_iff.mpr hi
        split
        · next promise =>
          obtain ⟨hb, stays⟩ : b = true ∧ (aw.guard.stays m.sight).toOption = some true := by
            simpa using promise
          subst hb
          refine .promised hr going ?_
          cases hs : aw.guard.stays m.sight with
          | ok b =>
            rw [hs] at stays
            exact congrArg _ (Option.some.inj stays)
          | error p =>
            rw [hs] at stays
            cases stays
        · exact .hinted hr going
  · next hr =>
    split at h <;> cases h
    exact .waits hr ‹_›

theorem contend_cases (failure : Option GuardError) :
    m.AwaitStep c g x aw (.contend failure) (m.contend (.context c) c g x aw failure) := by
  unfold contend
  split
  · exact .aborts ‹_›
  · next hi =>
    have going : m.interrupted c = false := Bool.eq_false_iff.mpr hi
    split
    · next active => exact .taken going (by simpa [Option.isSome_iff_ne_none] using active)
    · next free =>
      have free : x.scheduler.active = none := by simpa using free
      cases failure with
      | some e => exact .returns going free
      | none =>
        dsimp only
        split
        · exact .resumes going free ‹_›
        · exact .denied going free ‹_›
        · exact .fails going free ‹_›
        · exact .unwinds going free ‹_›

theorem doze_cases (failure : Option GuardError) :
    m.AwaitStep c g x aw (.doze failure) (m.doze (.context c) g aw failure) := by
  unfold doze
  cases failure with
  | some e => exact .sleeps
  | none => cases hd : aw.guard.deadline m.sight with
    | ok d => exact .aims hd
    | error p => exact .aimFails hd

theorem stepAwait_cases {phase : Phase S} (h : m.stepAwait (.context c) c g x aw phase = some m') :
    m.AwaitStep c g x aw phase m' := by
  cases phase with
  | release =>
    simp only [stepAwait] at h
    split at h
    · cases h
    · next locked =>
      have free : x.lock = none := by simpa using locked
      split at h <;> cases h
      · next empty => exact .handsOver free (by simpa using empty)
      · next queued => exact .handsOn free (by simpa using queued)
  | wait w => exact stepWait_cases h
  | ready =>
    simp only [stepAwait] at h
    split at h <;> cases h
    next locked => exact .marks (by simpa using locked)
  | reenter failure =>
    simp only [stepAwait] at h
    split at h <;> cases h
    next locked =>
      have free : x.lock = none := by simpa using locked
      cases failure with
      | none => exact .reenters free
      | some e => exact .reentersFailed free
  | subscribe =>
    cases hs : aw.guard.sources m.sight with
    | mk fs r =>
      simp only [stepAwait, hs] at h
      cases h
      cases r with
      | ok b => exact .subscribes hs
      | error p => exact .subscribeFails hs
  | contend failure =>
    cases h
    exact contend_cases failure
  | doze failure =>
    cases h
    exact doze_cases failure
  | asleep failure deadline notified =>
    simp only [stepAwait] at h
    split at h <;> cases h
    next awake =>
      obtain ⟨free, due⟩ : x.lock = none ∧ (notified = true ∨ Instant.due m.now deadline = true) := by
        simpa using awake
      exact .wakes free due
  | abort =>
    simp only [stepAwait] at h
    split at h <;> cases h
    next locked => exact .abandons (by simpa using locked)

end

/-! ## In a wait with a deadline -/

section
variable {sleep : Sleep} {now : Instant} {holds answer : Bool} {deadline : Option Instant}

theorem boundedTurn_none (h : boundedTurn now holds deadline sleep = none) :
    sleep = .asleep false ∧ Instant.due now deadline = false := by
  unfold boundedTurn at h
  split at h
  · split at h
    · cases h
    · next due => exact ⟨rfl, by simpa using due⟩
  · cases h

theorem boundedTurn_sleeps (h : boundedTurn now holds deadline sleep = some .sleeps) : holds = false := by
  unfold boundedTurn at h
  split at h
  · split at h <;> cases h
  · split at h
    · cases h
    · next not => simpa using not

theorem boundedTurn_ended (h : boundedTurn now holds deadline sleep = some (.ended answer)) :
    answer = holds ∧ (answer = false → Instant.due now deadline = true) := by
  unfold boundedTurn at h
  split at h
  · split at h <;> cases h
    exact ⟨rfl, fun _ => by assumption⟩
  · split at h <;> cases h
    next holds => exact ⟨holds.symm, fun e => by cases e⟩

end

/-! ## Whatever a thread is about to do -/

/-- What a step of the thread `a`, of the cog `own`, comes to. -/
inductive Step (m : Machine S A V) (a : Agent) (own : Option CogId) : Control S A V → Machine S A V → Prop where
  | runs {seat : Option Seat} {b : Body S A V} {m' : Machine S A V} : m.BodyStep a own seat b m' →
      Step m a own (.run seat b) m'
  /-- The slot is free: a context is to be started for the task. -/
  | enlists {seat : Option Seat} {g : CogId} {view : TaskView} {task : Body S A V}
      {next : Exit RuntimeError TaskId → Body S A V} {x : Cog S A V} : m.cogs.get? g = some x → x.lock = none →
      x.scheduler.active = none →
      Step m a own (.enrol seat g view task next)
        (((m.onScheduler g (·.enqueue view task)).setLock g (some a)).setControl a
          (.starting .check (.submission seat g view next)))
  | joins {seat : Option Seat} {g : CogId} {view : TaskView} {task : Body S A V}
      {next : Exit RuntimeError TaskId → Body S A V} {x : Cog S A V} : m.cogs.get? g = some x → x.lock = none →
      x.scheduler.active ≠ none →
      Step m a own (.enrol seat g view task next)
        (((m.onScheduler g (·.enqueue view task)).broadcast g).setControl a
          (announce g .added (some view) (.run seat (next (.ok view.id)))))
  | starts {stage : Stage} {e : Errand S A V} {m' : Machine S A V} : m.StartStep a own e stage m' →
      Step m a own (.starting stage e) m'
  | awaits {aw : Awaiting S A V} {phase : Phase S} {c : ContextId} {g : CogId} {x : Cog S A V}
      {m' : Machine S A V} : a = .context c → own = some g → m.cogs.get? g = some x →
      m.AwaitStep c g x aw phase m' → Step m a own (.awaiting aw phase) m'
  | takes {c : ContextId} {g : CogId} {x : Cog S A V} {k : TaskId} {body : Body S A V}
      {rest : List (TaskId × Body S A V)} : a = .context c → own = some g → m.cogs.get? g = some x →
      x.lock = none → x.scheduler.active = some c → m.registry.shutdown = false →
      x.scheduler.queue = (k, body) :: rest →
      Step m a own .claim
        ((m.onScheduler g fun _ => ({ x.scheduler with queue := rest, activeTask := some k }).markRunning k c m.now)
          |>.setControl a (.run (some ⟨k, true⟩) body))
  | retires {c : ContextId} {g : CogId} {x : Cog S A V} : a = .context c → own = some g → m.cogs.get? g = some x →
      x.lock = none →
      (x.scheduler.active = some c → m.registry.shutdown = true ∨ x.scheduler.queue = []) →
      Step m a own .claim
        (((m.onScheduler g fun _ => (x.scheduler.release c).retire).broadcast g).setControl a .leave)
  | completes {g : CogId} {x : Cog S A V} {k : TaskId} {outcome : TaskOutcome} : own = some g →
      m.cogs.get? g = some x → x.lock = none →
      Step m a own (.complete k outcome)
        (((m.onScheduler g fun _ => (x.scheduler.complete k outcome m.now).2).broadcast g).announceEnd a g outcome
          (x.scheduler.complete k outcome m.now).1 .claim)
  /-- The task has not been ended yet. -/
  | strands {c : ContextId} {g : CogId} {x : Cog S A V} {k : TaskId} : a = .context c → own = some g →
      m.cogs.get? g = some x → x.lock = none → (x.scheduler.removeWaiter c).records.has k = true →
      Step m a own (.strand k)
        ((((m.onCog g fun y => { y with
            scheduler := ((x.scheduler.removeWaiter c).strand k c m.now).2
            ended := y.ended + 1 }).broadcast g).report (.leftOutside x.name c k)).announceEnd a g .failed
          ((x.scheduler.removeWaiter c).strand k c m.now).1 .leave)
  | fades {c : ContextId} {g : CogId} {x : Cog S A V} {k : TaskId} : a = .context c → own = some g →
      m.cogs.get? g = some x → x.lock = none → (x.scheduler.removeWaiter c).records.has k = false →
      Step m a own (.strand k) ((m.onScheduler g fun _ => x.scheduler.removeWaiter c).setControl a .leave)
  | leaves {c : ContextId} : a = .context c →
      Step m a own .leave ({ m with threads := m.threads.remove a }.strike c)
  | departs {n : Nat} : a = .caller n → Step m a own .leave { m with threads := m.threads.remove a }
  | tells {g : CogId} {n : Notice} {after : Control S A V} :
      Step m a own (.notify g n after) ((m.deliver g n).setControl a after)
  | sends {seat : Option Seat} {signals : List Signal} {next : Body S A V} {m' : Machine S A V} :
      m.SignalStep a seat next signals m' → Step m a own (.signal seat signals next) m'
  | sweeps {seat : Option Seat} {next : Body S A V} :
      Step m a own (.sweep seat next)
        (m.setControl a (.signal seat (m.registry.live.flatMap m.interruption) next))
  | idles {seat : Option Seat} {deadline : Option Instant} {sleep : Sleep} {report : Option Span}
      {next : Bool → Body S A V} : boundedTurn m.now m.registry.live.isEmpty deadline sleep = some .sleeps →
      Step m a own (.idle seat deadline sleep report next)
        (m.setControl a (.idle seat deadline (.asleep false) report next))
  | idled {seat : Option Seat} {deadline : Option Instant} {sleep : Sleep} {report : Option Span}
      {next : Bool → Body S A V} {answer : Bool} :
      boundedTurn m.now m.registry.live.isEmpty deadline sleep = some (.ended answer) →
      answer = true ∨ report = none →
      Step m a own (.idle seat deadline sleep report next) (m.setControl a (.run seat (next answer)))
  /-- The contexts that are live after all are reported. -/
  | gaveUp {seat : Option Seat} {deadline : Option Instant} {sleep : Sleep} {d : Span} {next : Bool → Body S A V} :
      boundedTurn m.now m.registry.live.isEmpty deadline sleep = some (.ended false) →
      Step m a own (.idle seat deadline sleep (some d) next)
        ((m.report (.stillLive m.registry.live.length d)).setControl a (.run seat (next false)))
  | lingers {seat : Option Seat} {g : CogId} {k : TaskId} {deadline : Option Instant} {sleep : Sleep}
      {next : Bool → Body S A V} :
      Step m a own (.linger seat g k deadline sleep next)
        (m.setControl a (.linger seat g k deadline (.asleep false) next))
  | lingered {seat : Option Seat} {g : CogId} {k : TaskId} {deadline : Option Instant} {sleep : Sleep}
      {next : Bool → Body S A V} {answer : Bool} :
      Step m a own (.linger seat g k deadline sleep next) (m.setControl a (.run seat (next answer)))
  | dozes {seat : Option Seat} {p : ParkerId} {deadline : Option Instant} {sleep : Sleep}
      {next : Except GuardError Unit → Body S A V} : m.lends p = true →
      (m.parker p).look m.now deadline sleep = some .sleeps →
      Step m a own (.park seat p deadline sleep next)
        (m.setControl a (.park seat p deadline (.asleep false) next))
  | lands {seat : Option Seat} {p : ParkerId} {deadline : Option Instant} {sleep : Sleep}
      {next : Except GuardError Unit → Body S A V} {r : Except GuardError Unit} {q : Parker} : m.lends p = true →
      (m.parker p).look m.now deadline sleep = some (.ended (r, q)) →
      Step m a own (.park seat p deadline sleep next)
        ({ m with parkers := m.parkers.put p q }.setControl a (.run seat (next r)))
  | answers {seat : Option Seat} {g : CogId} {p : ParkerId} {w : Wait S} {next : Answer → Body S A V} {r : Answer} :
      w.result? = some r → Step m a own (.hold seat g p w next) (m.setControl a (.run seat (next r)))
  | waits {seat : Option Seat} {g : CogId} {p : ParkerId} {w : Wait S} {next : Answer → Body S A V} {x : Cog S A V}
      {move : WaitMove S} : w.result? = none → m.cogs.get? g = some x → m.lends p = true →
      w.step m.sight x.state (m.parker p) = some move →
      Step m a own (.hold seat g p w next)
        (({ m with parkers := m.parkers.put p move.parker }.subscribe (.parker p) move.joins).turned.setControl a
          (.hold seat g p move.wait next))

variable {m m' : Machine S A V} {a : Agent} {g : CogId}

/-- The cog that the step of a thread works on. -/
theorem workplace {t : Thread S A V} {p : CogId × Cog S A V}
    (h : (t.cog.bind fun g => (m.cogs.get? g).map fun x => (g, x)) = some p) :
    t.cog = some p.1 ∧ m.cogs.get? p.1 = some p.2 := by
  obtain ⟨g, hg, hp⟩ := Option.bind_eq_some_iff.mp h
  obtain ⟨x, hx, rfl⟩ := Option.map_eq_some_iff.mp hp
  exact ⟨hg, hx⟩

section
variable {own : Option CogId} {x : Cog S A V}

theorem stepEnrol_cases {seat : Option Seat} {view : TaskView} {task : Body S A V}
    {next : Exit RuntimeError TaskId → Body S A V} (h : m.stepEnrol a seat g view task next = some m') :
    m.Step a own (.enrol seat g view task next) m' := by
  unfold stepEnrol at h
  split at h
  · cases h
  · next x hx =>
    split at h
    · cases h
    · next locked =>
      have free : x.lock = none := by simpa using locked
      split at h <;> cases h
      · next idle => exact .enlists hx free (by simpa using idle)
      · next busy => exact .joins hx free (by simpa using busy)

theorem stepClaim_cases {c : ContextId} (hg : own = some g) (hx : m.cogs.get? g = some x)
    (h : m.stepClaim (.context c) c g x = some m') : m.Step (.context c) own .claim m' := by
  unfold stepClaim at h
  split at h
  · cases h
  · next locked =>
    have free : x.lock = none := by simpa using locked
    rcases x.scheduler.claim_eq c m.registry.shutdown m.now with
      ⟨k, body, rest, active, opened, queue, claim⟩ | ⟨barred, claim⟩ <;> simp only [claim] at h <;> cases h
    · exact .takes rfl hg hx free active opened queue
    · exact .retires rfl hg hx free barred

theorem stepComplete_cases {k : TaskId} {outcome : TaskOutcome} (hg : own = some g) (hx : m.cogs.get? g = some x)
    (h : m.stepComplete a g x k outcome = some m') : m.Step a own (.complete k outcome) m' := by
  unfold stepComplete at h
  split at h <;> cases h
  next locked => exact .completes hg hx (by simpa using locked)

theorem stepStrand_cases {c : ContextId} {k : TaskId} (hg : own = some g) (hx : m.cogs.get? g = some x)
    (h : m.stepStrand (.context c) c g x k = some m') : m.Step (.context c) own (.strand k) m' := by
  unfold stepStrand at h
  split at h
  · cases h
  · next locked =>
    have free : x.lock = none := by simpa using locked
    dsimp only at h
    split at h <;> cases h
    · exact .strands rfl hg hx free ‹_›
    · exact .fades rfl hg hx free (Bool.eq_false_iff.mpr ‹_›)

end

/-- Each step of a thread is one of these. -/
theorem step_cases (h : m.step a = some m') :
    ∃ t, m.threads.get? a = some t ∧ m.Step a t.cog t.control m' := by
  cases ht : m.threads.get? a with
  | none => simp [step, ht] at h
  | some t =>
    refine ⟨t, rfl, ?_⟩
    simp only [step, ht] at h
    cases hk : t.control with
    | run seat b =>
      rw [hk] at h
      exact .runs (stepBody_cases h)
    | enrol seat g view task next =>
      rw [hk] at h
      exact stepEnrol_cases h
    | starting stage e =>
      rw [hk] at h
      cases h
      exact .starts (stepStart_cases ..)
    | leave =>
      rw [hk] at h
      dsimp only at h
      split at h <;> cases h
      · exact .leaves rfl
      · exact .departs rfl
    | notify g n after =>
      rw [hk] at h
      cases h
      exact .tells
    | signal seat signals next =>
      rw [hk] at h
      exact .sends (stepSignal_cases h)
    | sweep seat next =>
      rw [hk] at h
      cases h
      exact .sweeps
    | idle seat deadline sleep report next =>
      rw [hk] at h
      dsimp only at h
      split at h
      · cases h
      · next turn =>
        cases h
        exact .idles turn
      · next answer turn =>
        cases h
        cases report with
        | none => cases answer <;> exact .idled turn (.inr rfl)
        | some d => cases answer with
          | true => exact .idled turn (.inl rfl)
          | false => exact .gaveUp turn
    | linger seat g task deadline sleep next =>
      rw [hk] at h
      dsimp only at h
      split at h <;> cases h
      · exact .lingers
      · exact .lingered
    | park seat p deadline sleep next =>
      rw [hk] at h
      dsimp only at h
      split at h
      · cases h
      · next lent =>
        have lent : m.lends p = true := by simpa using lent
        split at h <;> cases h
        · exact .dozes lent ‹_›
        · exact .lands lent ‹_›
    | hold seat g p w next =>
      rw [hk] at h
      dsimp only at h
      split at h
      · cases h
        exact .answers ‹_›
      · next going =>
        split at h
        · cases h
        · next x hx =>
          split at h
          · cases h
          · next lent =>
            split at h <;> cases h
            exact .waits going hx (by simpa using lent) ‹_›
    | claim =>
      rw [hk] at h
      dsimp only at h
      split at h
      · next hw =>
        obtain ⟨hg, hx⟩ := workplace hw
        exact stepClaim_cases hg hx h
      · cases h
    | awaiting aw phase =>
      rw [hk] at h
      dsimp only at h
      split at h
      · next hw =>
        obtain ⟨hg, hx⟩ := workplace hw
        exact .awaits rfl hg hx (stepAwait_cases h)
      · cases h
    | complete k outcome =>
      rw [hk] at h
      dsimp only at h
      split at h
      · next hw =>
        obtain ⟨hg, hx⟩ := workplace hw
        exact stepComplete_cases hg hx h
      · cases h
    | strand k =>
      rw [hk] at h
      dsimp only at h
      split at h
      · next hw =>
        obtain ⟨hg, hx⟩ := workplace hw
        exact stepStrand_cases hg hx h
      · cases h

/-- What the step of a thread comes to that is known already. -/
theorem step_of {t : Thread S A V} (ht : m.threads.get? a = some t) (h : m.step a = some m') :
    m.Step a t.cog t.control m' := by
  obtain ⟨u, hu, took⟩ := step_cases h
  cases hu.symm.trans ht
  exact took

section
variable {t : Thread S A V} {c : ContextId} {x : Cog S A V} {aw : Awaiting S A V} {phase : Phase S}
  (ht : m.threads.get? (.context c) = some t) (hg : t.cog = some g) (hk : t.control = .awaiting aw phase)
  (hx : m.cogs.get? g = some x)
include ht hg hk hx

theorem step_awaiting : m.step (.context c) = m.stepAwait (.context c) c g x aw phase := by
  simp [step, ht, hk, hg, hx]

theorem awaitStep_of (h : m.step (.context c) = some m') : m.AwaitStep c g x aw phase m' :=
  stepAwait_cases (step_awaiting ht hg hk hx ▸ h)

end

end Machine

end ObjectGroups
