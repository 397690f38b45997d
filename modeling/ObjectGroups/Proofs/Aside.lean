/-
What an action does beside the cogs: to the clock, the futures, the parkers,
the contexts that are entered, the registry's being open, and the signals that
threads are sending.

`Shift` follows threads and cogs; `Aside` follows the rest. Most steps are
`Calm`: of all this they change at most parkers, and only by leaving permits.
A permit of a context is taken by its own thread alone, since a parker that
bodies can get hold of belongs to no context that hosts tasks.
-/
import ObjectGroups.Proofs.Looks
import ObjectGroups.Proofs.Strides

namespace ObjectGroups

variable {S A V : Type} {m m' m'' : Machine S A V} {a b : Agent} {g : CogId}

/-! ## Signals under way -/

/-- The signals that a thread is about to send. -/
def Control.signals : Control S A V → List Signal
  | .signal _ signals _ => signals
  | _ => []

@[simp] theorem Control.signals_rouse (k : Control S A V) : k.rouse.signals = k.signals := by
  cases k with
  | awaiting aw p => cases p <;> rfl
  | _ => rfl

namespace Machine

/-- The signals that the thread `a` is about to send. -/
def signals (m : Machine S A V) (a : Agent) : List Signal :=
  ((m.threads.get? a).map (·.control.signals)).getD []

/-- A thread is about to wake `w`. -/
def Ringing (m : Machine S A V) (w : Waker) : Prop := ∃ a, .wake w ∈ m.signals a

theorem signals_eq {t : Thread S A V} (ht : m.threads.get? a = some t) :
    m.signals a = t.control.signals := by
  simp [signals, ht]

theorem Stirred.signals (h : m.Stirred m' b) : m'.signals b = m.signals b := by
  obtain ⟨p, hp⟩ := h
  unfold Machine.signals
  rw [hp]
  cases m.threads.get? b with
  | none => rfl
  | some t => cases p <;> simp

/-- The thread has closed the registry, and is about to interrupt the contexts that are live. -/
def Sweeps (m : Machine S A V) (a : Agent) : Prop :=
  ∃ t seat next, m.threads.get? a = some t ∧ t.control = .sweep seat next

/-! ## Interrupts stay -/

theorem Wait.flag_step {w : Wait S} {move : WaitMove S} {v : Sight} {σ : S} {p : Parker}
    (h : w.step v σ p = some move) : move.parker.interrupted = p.interrupted := by
  obtain ⟨point, frames⟩ := w
  cases point with
  | park deadline sleep after =>
    simp only [Wait.step] at h
    split at h
    · cases h
    · cases h
      rfl
    · next hl =>
      cases h
      exact Parker.flag_look hl
  | enter g =>
    cases g with
    | timer d r => cases d <;> cases h <;> rfl
    | all gs => cases gs <;> cases h <;> rfl
    | _ => cases h; rfl
  | user g plan => cases plan <;> cases h <;> rfl
  | done r =>
    simp only [Wait.step] at h
    split at h
    · cases h
    · split at h
      · split at h <;> cases h <;> rfl
      · cases h
        rfl
  | _ => cases h; rfl

/-! ## Steps that leave the outside as it is -/

/-- The clock, the futures, the contexts, which of them are live, and whether more are let in. -/
def outside (m : Machine S A V) :
    Instant × Table FutureId (Future (ObjectGroups.Settled V)) × Table ContextId Context ×
      List ContextId × String × Bool :=
  (m.now, m.futures, m.contexts, m.registry.live, m.registry.namePrefix, m.registry.shutdown)

end Machine

open Machine

/-- Nothing changes outside but that parkers may get permits. -/
structure Calm (m m' : Machine S A V) : Prop where
  outside : m'.outside = m.outside
  permit : ∀ p, (m.parker p).permit = true → (m'.parker p).permit = true
  flag : ∀ p, (m'.parker p).interrupted = (m.parker p).interrupted

namespace Calm

theorem same (ho : m'.outside = m.outside) (hp : m'.parkers = m.parkers) : Calm m m' :=
  ⟨ho, fun p h => by unfold parker at h ⊢; rwa [hp], fun p => by unfold parker; rw [hp]⟩

theorem trans (h : Calm m m') (h' : Calm m' m'') : Calm m m'' :=
  ⟨h'.outside.trans h.outside, fun p hp => h'.permit p (h.permit p hp),
    fun p => (h'.flag p).trans (h.flag p)⟩

theorem setControl {k : Control S A V} (h : Calm m m') : Calm m (m'.setControl a k) :=
  h.trans (.same rfl rfl)

theorem onCog {f : Cog S A V → Cog S A V} (h : Calm m m') : Calm m (m'.onCog g f) :=
  h.trans (.same rfl rfl)

theorem report {r : Report} (h : Calm m m') : Calm m (m'.report r) := h.trans (.same rfl rfl)

theorem notifyAll {ch : Channel} (h : Calm m m') : Calm m (m'.notifyAll ch) :=
  h.trans (.same rfl rfl)

theorem unpark {p : ParkerId} (h : Calm m m') : Calm m (m'.unpark p) := by
  refine h.trans ⟨rfl, fun q hq => ?_, fun q => ?_⟩
  · rw [parker_unpark]
    split
    · rfl
    · exact hq
  · rw [parker_unpark]
    split <;> rfl

theorem unparks {ws : List ContextId} (h : Calm m m') :
    Calm m (ws.foldl (fun m c => m.unpark (.own c)) m') := by
  induction ws generalizing m' with
  | nil => exact h
  | cons c ws ih => exact ih h.unpark

theorem broadcast (h : Calm m m') : Calm m (m'.broadcast g) := by
  unfold Machine.broadcast
  split
  · exact h.notifyAll.unparks
  · exact h

theorem deliver {n : Notice} (h : Calm m m') : Calm m (m'.deliver g n) := by
  unfold Machine.deliver
  split
  · exact h.trans (.same rfl rfl)
  · exact h

theorem announceEnd {outcome : TaskOutcome} {view : Option TaskView} {after : Control S A V}
    (h : Calm m m') : Calm m (m'.announceEnd a g outcome view after) := by
  unfold Machine.announceEnd
  cases view with
  | none => exact h.setControl
  | some v => exact h.notifyAll.setControl

end Calm

/-! ## What else can happen -/

/-- What becomes of the futures. -/
inductive Resolves (m m' : Machine S A V) : Option Agent → Prop where
  | same {actor : Option Agent} : m'.futures = m.futures → Resolves m m' actor
  /-- A future gets its value, and the thread is about to wake who has waited for it. -/
  | resolve {a : Agent} (f : FutureId) (v : Settled V) : (m.future f).value = none →
      m'.futures = m.futures.put f { value := some v } →
      m'.signals a = (m.future f).waiters.map .wake → Resolves m m' (some a)
  | join {actor : Option Agent} (w : Waker) (fs : List FutureId) :
      m'.futures = (m.subscribe w fs).futures → Resolves m m' actor

/-- What becomes of the interrupt flags. -/
inductive Flags (m m' : Machine S A V) : Option Agent → Prop where
  | same {actor : Option Agent} : (∀ p, (m'.parker p).interrupted = (m.parker p).interrupted) →
      Flags m m' actor
  /-- The thread has sent an interrupt. -/
  | raise {a : Agent} {rest : List Signal} (p : ParkerId) : m.signals a = .interrupt p :: rest →
      (∀ q, (m'.parker q).interrupted = if q = p then true else (m.parker q).interrupted) →
      Flags m m' (some a)
  /-- A context is entered, and gets a new parker. -/
  | clear {a : Agent} {own : Option CogId} {s : Stance} (c : ContextId) :
      m.look a = some (own, s) → s.stage? = some (.register c) →
      (∀ q, (m'.parker q).interrupted = if q = .own c then false else (m.parker q).interrupted) →
      Flags m m' (some a)

/-- What becomes of the contexts that are entered. -/
inductive Entries (m m' : Machine S A V) : Option Agent → Prop where
  | same {actor : Option Agent} : m'.contexts = m.contexts →
      m'.registry.live = m.registry.live → Entries m m' actor
  | enter {a : Agent} {own : Option CogId} {s : Stance} (c : ContextId) (name : String) (waker : Waker) :
      m.look a = some (own, s) → s.stage? = some (.register c) →
      (∀ g x, s.lock own = some g → m.cogs.get? g = some x →
        name = m.registry.contextName x.name c) →
      m'.contexts = m.contexts.put c { name, waker, cog := s.lock own } →
      m'.registry.live = m.registry.live ++ [c] →
      (∀ g, s.lock own = some g → waker = .scheduler g) →
      m'.look a = some (own, s.restage (.launch c)) → Entries m m' (some a)
  /-- The context has ended or has not got its thread. -/
  | strike {a : Agent} (c : ContextId) : m'.contexts = m.contexts →
      m'.registry.live = m.registry.live.filter (· ≠ c) → m'.look (.context c) = none →
      ((a = .context c ∧ (m.look a).isSome) ∨
        ∃ own s, m.look a = some (own, s) ∧ s.newcomer? = some c) →
      (∀ own s, m'.look a = some (own, s) → s.newcomer? = none) → Entries m m' (some a)

/-- What becomes of the registry's being open. -/
inductive Closing (m m' : Machine S A V) : Option Agent → Prop where
  | same {actor : Option Agent} : m'.registry.shutdown = m.registry.shutdown → Closing m m' actor
  | close {a : Agent} : m'.registry.shutdown = true → m'.Sweeps a → Closing m m' (some a)

/-- The signal has been sent: who sleeps there is notified. -/
def Machine.Sent (m m' : Machine S A V) (a : Agent) : Signal → Prop
  | .interrupt p => ∀ b t, b ≠ a → m.threads.get? b = some t → t.sleepsOn b (.parker p) = true →
      m'.threads.get? b = some t.rouse
  | .wake (.parker p) => (m'.parker p).permit = true ∧
      ∀ b t, b ≠ a → m.threads.get? b = some t → t.sleepsOn b (.parker p) = true →
        m'.threads.get? b = some t.rouse
  | .wake (.scheduler g) => m.cogExists g = true → m.unlocked g = true ∧
      ∀ b t, b ≠ a → m.threads.get? b = some t → t.sleepsOn b (.slot g) = true →
        m'.threads.get? b = some t.rouse
  | _ => True

structure Aside (m m' : Machine S A V) (actor : Option Agent) : Prop where
  now : m.now ≤ m'.now
  futures : Resolves m m' actor
  entries : Entries m m' actor
  flags : Flags m m' actor
  closing : Closing m m' actor
  namePrefix : m'.registry.namePrefix = m.registry.namePrefix
  /-- The permit of a context that hosts tasks is taken by the context alone. -/
  permit : ∀ c, actor ≠ some (.context c) → (m.look (.context c)).isSome →
    m.lends (.own c) = false → (m.parker (.own c)).permit = true →
      (m'.parker (.own c)).permit = true
  /-- Signals are sent one by one. -/
  signals : ∀ a, actor = some a → m.signals a = [] ∨
    ∃ s rest, m.signals a = s :: rest ∧ m'.signals a = rest ∧ m.Sent m' a s

theorem Aside.calm {actor : Option Agent} (h : Calm m m')
    (hs : ∀ a, actor = some a → m.signals a = []) : Aside m m' actor := by
  have outside := h.outside
  simp only [Machine.outside, Prod.mk.injEq] at outside
  obtain ⟨now, futures, contexts, live, namePrefix, shutdown⟩ := outside
  exact
    { now := Int.le_of_eq now.symm
      futures := .same futures
      entries := .same contexts live
      flags := .same h.flag
      closing := .same shutdown
      namePrefix
      permit := fun c _ _ _ hp => h.permit _ hp
      signals := fun a ha => .inl (hs a ha) }

/-! ## One function at a time -/

namespace Machine

theorem calm_handedOver {m₁ : Machine S A V} {c : ContextId} {aw : Awaiting S A V}
    (h : Calm m m₁) : Calm m (m₁.handedOver a c g aw) :=
  .setControl (.onCog (.onCog h.broadcast))

theorem calm_startSucceeded {m₁ : Machine S A V} {own : Option CogId} {c : ContextId}
    {e : Errand S A V} (h : Calm m m₁) : Calm m (m₁.startSucceeded a own c e) := by
  cases e with
  | submission seat g view next => exact .setControl (.onCog (.broadcast (.onCog h)))
  | handover aw =>
    simp only [startSucceeded]
    split
    · exact calm_handedOver (.onCog h)
    · exact h
  | direct seat label waker main next => exact h.setControl

theorem calm_startFailed {m₁ : Machine S A V} {own : Option CogId} {err : RuntimeError}
    {e : Errand S A V} (h : Calm m m₁) : Calm m (m₁.startFailed a own err e) := by
  cases e with
  | submission seat g view next => exact .setControl (.onCog (.onCog h.report))
  | handover aw =>
    simp only [startFailed]
    split
    · exact calm_handedOver h.report
    · exact h
  | direct seat label waker main next => exact h.setControl

theorem calm_startUnwound {m₁ : Machine S A V} {own : Option CogId} {p : Payload}
    {e : Errand S A V} (h : Calm m m₁) : Calm m (m₁.startUnwound a own p e) := by
  cases e with
  | submission seat g view next => exact .setControl (.onCog h)
  | handover aw =>
    simp only [startUnwound]
    split
    · exact .setControl (.onCog h)
    · exact h
  | direct seat label waker main next => exact h.setControl

theorem calm_abort {c : ContextId} {x : Cog S A V} {aw : Awaiting S A V} :
    Calm m (m.abort a c g x aw) :=
  .announceEnd (.onCog (.same rfl rfl))

theorem aside_body {own : Option CogId} {seat : Option Seat} {b : Body S A V}
    (ht : (m.threads.get? a).isSome) (hs : m.signals a = []) (h : m.BodyStep a own seat b m') :
    Aside m m' (some a) := by
  have quiet (b : Agent) (hb : some a = some b) : m.signals b = [] := by
    cases hb
    exact hs
  obtain ⟨t, ht⟩ := Option.isSome_iff_exists.mp ht
  cases h with
  | @advances d =>
    exact
      { now := Int.le_add_of_nonneg_right (Int.natCast_nonneg d)
        futures := .same rfl
        entries := .same rfl rfl
        flags := .same fun p => rfl
        closing := .same rfl
        namePrefix := rfl
        permit := fun c _ _ _ hp => hp
        signals := fun b hb => .inl (quiet b hb) }
  | @resolves f v next hv =>
    exact
      { now := Int.le_refl _
        futures := .resolve f v hv rfl (signals_eq (thread_set _ ht (.same rfl)))
        entries := .same rfl rfl
        flags := .same fun p => rfl
        closing := .same rfl
        namePrefix := rfl
        permit := fun c _ _ _ hp => hp
        signals := fun b hb => .inl (quiet b hb) }
  | closes =>
    exact
      { now := Int.le_refl _
        futures := .same rfl
        entries := .same rfl rfl
        flags := .same fun p => rfl
        closing := .close rfl ⟨_, _, _, thread_set _ ht (.same rfl), rfl⟩
        namePrefix := rfl
        permit := fun c _ _ _ hp => hp
        signals := fun b hb => .inl (quiet b hb) }
  | _ => exact .calm (.same rfl rfl) quiet

theorem aside_signal {seat : Option Seat} {next : Body S A V} {signals : List Signal}
    {t : Thread S A V} (ht : m.threads.get? a = some t) (hk : t.control = .signal seat signals next)
    (h : m.SignalStep a seat next signals m') : Aside m m' (some a) := by
  have before : m.signals a = signals := by rw [signals_eq ht, hk]; rfl
  have sends {m₁ : Machine S A V} {s : Signal} {rest : List Signal} (hs : signals = s :: rest)
      (hc : m₁.outside = m.outside)
      (hp : ∀ p, (m.parker p).permit = true → (m₁.parker p).permit = true)
      (hf : Flags m m₁ (some a)) (hm : m.Stirred m₁ a)
      (sent : m.Sent (m₁.setControl a (.signal seat rest next)) a s) :
      Aside m (m₁.setControl a (.signal seat rest next)) (some a) := by
    have after : (m₁.setControl a (.signal seat rest next)).signals a = rest :=
      signals_eq (thread_set _ ht hm)
    simp only [Machine.outside, Prod.mk.injEq] at hc
    obtain ⟨now, futures, contexts, live, namePrefix, shutdown⟩ := hc
    exact
      { now := Int.le_of_eq now.symm
        futures := .same futures
        entries := .same contexts live
        flags := by
          cases hf with
          | same same => exact .same same
          | raise p signals raised => exact .raise p signals raised
          | clear c hl hs cleared => exact .clear c hl hs cleared
        closing := .same shutdown
        namePrefix
        permit := fun c _ _ _ => hp _
        signals := fun b hb => by
          cases hb
          exact .inr ⟨s, rest, before.trans hs, after, sent⟩ }
  have go {m₁ : Machine S A V} {s : Signal} {rest : List Signal} (hc : Calm m m₁)
      (hm : m.Stirred m₁ a) (hs : signals = s :: rest)
      (sent : m.Sent (m₁.setControl a (.signal seat rest next)) a s) :
      Aside m (m₁.setControl a (.signal seat rest next)) (some a) :=
    sends hs hc.outside hc.permit (.same hc.flag) hm sent
  cases h with
  | through =>
    refine .calm (.same rfl rfl) fun b hb => ?_
    cases hb
    exact before
  | @interrupts p rest =>
    refine sends rfl rfl (fun q hq => ?_) (.raise p before fun q => ?_) (.interruptParker (.same rfl))
      fun b t hb hbt hsl => ?_
    · rw [parker_interruptParker]
      split
      · exact hq
      · exact hq
    · rw [parker_interruptParker]
      split <;> rfl
    · rw [thread_setControl, if_neg hb, thread_interruptParker, hbt]
      simp [hsl]
  | @unparks p rest =>
    refine go (.unpark (.same rfl rfl)) (.unpark (.same rfl)) rfl ⟨?_, fun b t hb hbt hsl => ?_⟩
    · have permit := parker_unpark m p p
      rw [if_pos rfl] at permit
      show ((m.unpark p).parker p).permit = true
      rw [permit]
      rfl
    · rw [thread_setControl, if_neg hb, thread_unpark, hbt]
      simp [hsl]
  | counts => exact go (.same rfl rfl) (.same rfl) rfl trivial
  | misses gone =>
    refine go (.same rfl rfl) (.same rfl) rfl fun there => ?_
    rw [gone] at there
    cases there
  | rings there unlocked =>
    refine go (.notifyAll (.same rfl rfl)) (.notifyAll (.same rfl)) rfl
      fun _ => ⟨unlocked, fun b t hb hbt hsl => ?_⟩
    rw [thread_setControl, if_neg hb, thread_notifyAll, hbt]
    simp [hsl]

/-- After a failed start the thread goes on, and no context is about to be started. -/
theorem startFailed_goesOn (ho : m.Ordered) {own : Option CogId} {stage : Stage} (m₁ : Machine S A V)
    (err : RuntimeError) (e : Errand S A V) (hl : m.look a = some (own, e.stance stage)) :
    ∃ m₂ k, m₁.startFailed a own err e = m₂.setControl a k ∧ k.stance.newcomer? = none ∧
      ∀ b, m₁.Stirred m₂ b := by
  cases e with
  | submission seat g view next => exact ⟨_, _, rfl, rfl, fun b => .same rfl⟩
  | handover aw =>
    obtain ⟨g, c, -, rfl, rfl, -⟩ := ho.home_of_hosts hl rfl
    let m₂ := m₁.report (.queueNotStarted (((m₁.cogs.get? g).map (·.name)).getD "") err)
    have told (b : Agent) : m₁.Stirred (m₂.broadcast g) b := .broadcast (.same rfl)
    refine ⟨_, _, rfl, ?_, fun b => (told b).trans (.same rfl)⟩
    rw [stance_announce]
    rfl
  | direct seat label waker main next => exact ⟨_, _, rfl, rfl, fun b => .same rfl⟩

theorem startUnwound_goesOn (ho : m.Ordered) {own : Option CogId} {stage : Stage}
    (m₁ : Machine S A V) (p : Payload) (e : Errand S A V)
    (hl : m.look a = some (own, e.stance stage)) :
    ∃ m₂ k, m₁.startUnwound a own p e = m₂.setControl a k ∧ k.stance.newcomer? = none ∧
      ∀ b, m₁.Stirred m₂ b := by
  cases e with
  | submission seat g view next => exact ⟨_, _, rfl, rfl, fun b => .same rfl⟩
  | handover aw =>
    obtain ⟨g, c, -, rfl, rfl, -⟩ := ho.home_of_hosts hl rfl
    exact ⟨_, _, rfl, rfl, fun b => .same rfl⟩
  | direct seat label waker main next => exact ⟨_, _, rfl, rfl, fun b => .same rfl⟩

theorem outside_strike (m : Machine S A V) (c : ContextId) : (m.strike c).outside =
    (m.now, m.futures, m.contexts, m.registry.live.filter (· ≠ c), m.registry.namePrefix,
      m.registry.shutdown) := by
  obtain ⟨_, h⟩ := m.strike_eq c
  rw [h]
  rfl

theorem parkers_strike (m : Machine S A V) (c : ContextId) : (m.strike c).parkers = m.parkers := by
  obtain ⟨_, h⟩ := m.strike_eq c
  rw [h]

/-- A step that strikes an entry off, and is calm apart from that. -/
theorem aside_struck (m₁ : Machine S A V) {c : ContextId} (hm : m₁.outside = m.outside)
    (hp : m₁.parkers = m.parkers) (hs : m.signals a = []) (h : Calm (m₁.strike c) m')
    (gone : m'.look (.context c) = none)
    (whose : (a = .context c ∧ (m.look a).isSome) ∨
      ∃ own s, m.look a = some (own, s) ∧ s.newcomer? = some c)
    (goesOn : ∀ own s, m'.look a = some (own, s) → s.newcomer? = none) : Aside m m' (some a) := by
  have outside := h.outside
  rw [outside_strike] at outside
  simp only [Machine.outside, Prod.mk.injEq] at outside hm
  obtain ⟨now, futures, contexts, live, namePrefix, shutdown⟩ := outside
  obtain ⟨now₁, futures₁, contexts₁, live₁, namePrefix₁, shutdown₁⟩ := hm
  exact
    { now := Int.le_of_eq (now.trans now₁).symm
      futures := .same (futures.trans futures₁)
      entries := .strike c (contexts.trans contexts₁) (by rw [live, live₁]) gone whose goesOn
      flags := .same fun p => by
        rw [h.flag]
        unfold parker
        rw [parkers_strike, hp]
      closing := .same (shutdown.trans shutdown₁)
      namePrefix := namePrefix.trans namePrefix₁
      permit := fun d _ _ _ hd => by
        refine h.permit _ ?_
        unfold parker at hd ⊢
        rwa [parkers_strike, hp]
      signals := fun b hb => by
        cases hb
        exact .inl hs }

theorem aside_start (ho : m.Ordered) {own : Option CogId} {stage : Stage} {e : Errand S A V}
    (hl : m.look a = some (own, e.stance stage)) (hs : m.signals a = []) (h : m.StartStep a own e stage m') :
    Aside m m' (some a) := by
  have quiet (b : Agent) (hb : some a = some b) : m.signals b = [] := by
    cases hb
    exact hs
  have struck {c : ContextId} {m₂ : Machine S A V} {k : Control S A V}
      (number : (e.stance stage).newcomer? = some c) (hk : k.stance.newcomer? = none)
      (hm : ∀ b, (m.strike c).Stirred m₂ b) (h : Calm (m.strike c) (m₂.setControl a k)) :
      Aside m (m₂.setControl a k) (some a) := by
    obtain ⟨-, absent, -⟩ := ho.newcomer hl number
    have hca : Agent.context c ≠ a := fun h => by simp [← h, absent] at hl
    refine aside_struck m rfl rfl hs h ?_ (.inr ⟨_, _, hl, number⟩) fun own' s' h' => ?_
    · rw [look_setControl, if_neg hca, (hm _).look, look_strike, absent]
    · rw [look_setControl, if_pos rfl, (hm _).look, look_strike, hl] at h'
      cases h'
      exact hk
  cases h with
  | closed => exact .calm (calm_startFailed (.same rfl rfl)) quiet
  | numbers => exact .calm (.same rfl rfl) quiet
  | @enters c =>
    have number : (e.stance (.register c)).newcomer? = some c := by simp [Stance.newcomer?]
    obtain ⟨-, absent, -⟩ := ho.newcomer hl number
    have host : e.host own = (e.stance (.register c)).lock own := by cases e <;> rfl
    exact
      { now := Int.le_refl _
        futures := .same rfl
        entries := by
          refine .enter c (m.registry.contextName (m.newcomer own e).1 c) (m.newcomer own e).2.1 hl
            (by simp) (fun g x hg hx => ?_) (by rw [← host]; rfl) rfl (fun g hg => ?_) ?_
          · rw [← host] at hg
            cases e with
            | direct seat label waker main next => cases hg
            | _ =>
              cases hg
              simp [Machine.newcomer, Errand.host, hx]
          · rw [← host] at hg
            cases e with
            | direct seat label waker main next => cases hg
            | _ =>
              cases hg
              rfl
          · obtain ⟨t, ht, rfl, -⟩ := look_eq_some m a hl
            rw [Errand.restage_stance]
            exact look_eq _ a (t := { t with control := .starting (.launch c) e })
              (thread_set _ ht (.same rfl))
        flags := .clear c hl (by simp) fun q => by
          show (((m.parkers.put (.own c) {}).get? q).getD {}).interrupted = _
          rw [Table.get?_put]
          split <;> rfl
        closing := .same rfl
        namePrefix := rfl
        permit := fun d _ hd _ hp => by
          have hdc : ParkerId.own d ≠ .own c := by
            rintro ⟨⟩
            simp [absent] at hd
          show (((m.parkers.put (.own c) {}).get? (.own d)).getD {}).permit = true
          rw [Table.get?_put, if_neg hdc]
          exact hp
        signals := fun b hb => .inl (quiet b hb) }
  | @panics c =>
    obtain ⟨m₂, k, he, hk, hm⟩ := startUnwound_goesOn ho (m.strike c) Registry.namePanic e hl
    have calm : Calm (m.strike c) ((m.strike c).startUnwound a own Registry.namePanic e) :=
      calm_startUnwound (.same rfl rfl)
    rw [he] at calm ⊢
    exact struck (by simp [Stance.newcomer?]) hk hm calm
  | @refused c =>
    obtain ⟨m₂, k, he, hk, hm⟩ := startFailed_goesOn ho (m.strike c) (.spawn m.registry.refusal) e hl
    have calm : Calm (m.strike c) ((m.strike c).startFailed a own (.spawn m.registry.refusal) e) :=
      calm_startFailed (.same rfl rfl)
    rw [he] at calm ⊢
    exact struck (by simp [Stance.newcomer?]) hk hm calm
  | granted => exact .calm (calm_startSucceeded (.same rfl rfl)) quiet

/-- A step that takes a permit of a parker the thread may park on, and registers with futures. -/
theorem aside_visit {q : ParkerId} {p : Parker} (w : Waker) (fs : List FutureId)
    (hq : (∃ c, a = .context c ∧ q = .own c) ∨ m.lends q = true) (hs : m.signals a = [])
    (hp : m'.parkers = m.parkers.put q p) (hf : m'.futures = (m.subscribe w fs).futures)
    (hn : m'.now = m.now) (hc : m'.contexts = m.contexts) (hr : m'.registry = m.registry)
    (hi : p.interrupted = (m.parker q).interrupted) : Aside m m' (some a) where
  now := Int.le_of_eq hn.symm
  futures := .join w fs hf
  entries := .same hc (by rw [hr])
  flags := .same fun q' => by
    show ((m'.parkers.get? q').getD {}).interrupted = _
    rw [hp, Table.get?_put]
    split
    · next e => rw [e]; exact hi
    · rfl
  closing := .same (by rw [hr])
  namePrefix := by rw [hr]
  permit c hca _ hl hpc := by
    have hne : ParkerId.own c ≠ q := by
      rintro rfl
      rcases hq with ⟨d, rfl, hd⟩ | hq
      · cases hd
        exact hca rfl
      · rw [hl] at hq
        cases hq
    show ((m'.parkers.get? (.own c)).getD {}).permit = true
    rw [hp, Table.get?_put, if_neg hne]
    exact hpc
  signals b hb := by
    cases hb
    exact .inl hs

theorem aside_await {c : ContextId} {x : Cog S A V} {aw : Awaiting S A V} {phase : Phase S}
    (hs : m.signals (.context c) = []) (h : m.AwaitStep c g x aw phase m') :
    Aside m m' (some (.context c)) := by
  have quiet (b : Agent) (hb : some (.context c) = some b) : m.signals b = [] := by
    cases hb
    exact hs
  cases h with
  | handsOver => exact .calm (calm_handedOver (.same rfl rfl)) quiet
  | waits _ moves =>
    exact aside_visit (.parker (.own c)) _ (.inl ⟨c, rfl, rfl⟩) hs rfl rfl rfl rfl rfl (Wait.flag_step moves)
  | subscribes | subscribeFails =>
    exact
      { now := Int.le_refl _
        futures := .join _ _ rfl
        entries := .same rfl rfl
        flags := .same fun p => rfl
        closing := .same rfl
        namePrefix := rfl
        permit := fun d _ _ _ hp => hp
        signals := fun b hb => .inl (quiet b hb) }
  | aborts | abandons => exact .calm calm_abort quiet
  | _ => exact .calm (.same rfl rfl) quiet

theorem aside_step (ho : m.Ordered) (h : m.step a = some m') : Aside m m' (some a) := by
  obtain ⟨t, ht, took⟩ := step_cases h
  have hl := look_eq m a ht
  generalize hk : t.control = k at hl took
  have silent (none : k.signals = []) : m.signals a = [] := (signals_eq ht).trans (hk ▸ none)
  have go {m₁ : Machine S A V} (none : k.signals = []) (h : Calm m m₁) : Aside m m₁ (some a) := by
    refine .calm h fun b hb => ?_
    cases hb
    exact silent none
  cases took with
  | runs took => exact aside_body (by simp [ht]) (silent rfl) took
  | joins | retires => exact go rfl (.setControl (.broadcast (.same rfl rfl)))
  | starts took => exact aside_start ho hl (silent rfl) took
  | awaits ha _ _ took =>
    subst ha
    exact aside_await (silent rfl) took
  | completes => exact go rfl (.announceEnd (.broadcast (.same rfl rfl)))
  | strands => exact go rfl (.announceEnd (.report (.broadcast (.same rfl rfl))))
  | @leaves c ha =>
    subst ha
    have gone : Machine.look (strike { m with threads := m.threads.remove (.context c) } c) (.context c) =
        none := by
      rw [look_strike]
      simp [look]
    refine aside_struck { m with threads := m.threads.remove (.context c) } rfl rfl (silent rfl)
      (.same rfl rfl) gone (.inl ⟨rfl, by simp [hl]⟩) fun own s hs => ?_
    rw [gone] at hs
    cases hs
  | tells => exact go rfl (.setControl (.deliver (.same rfl rfl)))
  | sends took => exact aside_signal ht hk took
  | @lands seat p deadline sleep next r q lent landed =>
    exact aside_visit (.parker p) [] (.inr lent) (silent rfl) rfl rfl rfl rfl rfl (Parker.flag_look landed)
  | @waits seat g p w next x move _ _ lent moves =>
    exact aside_visit (.parker p) _ (.inr lent) (silent rfl) rfl rfl rfl rfl rfl (Wait.flag_step moves)
  | _ => exact go rfl (.same rfl rfl)

theorem aside_act (ho : m.Ordered) {act : Action S A V} (h : m.act act = some m') :
    Aside m m' act.actor? := by
  cases act with
  | step a => exact aside_step ho h
  | pass d =>
    cases h
    exact
      { now := Int.le_add_of_nonneg_right (Int.natCast_nonneg d)
        futures := .same rfl
        entries := .same rfl rfl
        flags := .same fun p => rfl
        closing := .same rfl
        namePrefix := rfl
        permit := fun c _ _ _ hp => hp
        signals := fun a ha => by cases ha }
  | count n =>
    simp only [act] at h
    split at h <;> cases h
    exact .calm (.same rfl rfl) fun a ha => by cases ha
  | _ =>
    cases h
    exact .calm (.same rfl rfl) fun a ha => by cases ha

end Machine

end ObjectGroups
