/-
Where threads park, and what an action does to parkers.

A body parks on a parker that it can get hold of, in so many words or as it
waits for a guard without a task; a task parks on that of its context while it
awaits (`Spot`). A park gets its permit from a wake-up that is sent, or from a
broadcast in the scheduler of a cog (`Move.hails?`), which reaches the contexts
that wait there. `Parks` has one case for each thing that a step can do to
parkers, so that later arguments about permits and sleepers need not open
`step` again.
-/
import ObjectGroups.Proofs.Presence
import ObjectGroups.Proofs.Registers

namespace ObjectGroups

variable {S A V : Type} {m m' m₁ : Machine S A V} {a b : Agent} {g : CogId} {c : ContextId}
  {own : Option CogId} {s s' : Stance} {k : Control S A V} {t : Thread S A V} {p q : ParkerId}
  {stage : Stage} {e : Errand S A V} {spot : Spot}

open Machine

/-! ## Where threads park -/

/-- A park: with which parker, until when, and how the thread sleeps. -/
structure Spot where
  parker : ParkerId
  deadline : Option Instant
  sleep : Sleep
deriving DecidableEq, Repr

/-- The park in which a wait with the parker `p` stands. -/
def Wait.spot? (p : ParkerId) (w : Wait S) : Option Spot :=
  match w.point with
  | .park deadline sleep _ => some ⟨p, deadline, sleep⟩
  | _ => none

/-- The wait has not taken a step yet. -/
def Wait.begins (w : Wait S) : Bool :=
  match w with
  | ⟨.enter _, []⟩ => true
  | _ => false

/-- The wait once its park has come to `r`. -/
def Wait.landed (r : Except GuardError Unit) (w : Wait S) : Wait S :=
  match w.point with
  | .park _ _ after => { w with point := WaitPoint.afterPark r after }
  | _ => w

/-- What a step of a wait with the parker `p` does to `x`, which the parker is. -/
inductive Wait.Visits (now : Instant) (p : ParkerId) (x : Parker) (w : Wait S) (move : WaitMove S) :
    Prop where
  | goesOn : w.spot? p = none → move.parker = x →
      (∀ spot, move.wait.spot? p = some spot → spot.sleep = .awake) → Visits now p x w move
  | sleeps (spot : Spot) : w.spot? p = some spot → spot.parker = p →
      x.look now spot.deadline spot.sleep = some .sleeps → move.parker = x →
      move.wait.spot? p = some { spot with sleep := .asleep false } → Visits now p x w move
  | lands (spot : Spot) (r : Except GuardError Unit) : w.spot? p = some spot → spot.parker = p →
      x.look now spot.deadline spot.sleep = some (.ended (r, move.parker)) →
      move.wait = w.landed r → move.wait.spot? p = none → Visits now p x w move

theorem Wait.visits {w : Wait S} {v : Sight} {σ : S} {x : Parker} {move : WaitMove S}
    (h : w.step v σ x = some move) (p : ParkerId) : Wait.Visits v.now p x w move := by
  cases step_paces h with
  | goes hy =>
    refine .goesOn ?_ rfl fun spot hs => ?_
    · cases hy with
      | answers hr => cases hr <;> rfl
      | _ => rfl
    · cases hy with
      | parksFuture | parksTimer | parksNever | parksAny | parksUser =>
        cases hs
        rfl
      | _ => cases hs
  | sleeps hlook => exact .sleeps _ rfl rfl hlook rfl rfl
  | @wakes d sleep after frames r x' hlook =>
    refine .lands _ r rfl rfl hlook rfl ?_
    cases after with
    | user g next => rfl
    | _ => cases r <;> rfl
  | descends | joins | subscribes | subscribeFailed | passes | ends =>
    exact .goesOn rfl rfl fun spot hs => by cases hs

theorem Wait.spot?_of_result {w : Wait S} {r : Answer} (h : w.result? = some r) (p : ParkerId) :
    w.spot? p = none := by
  obtain ⟨point, frames⟩ := w
  cases point with
  | done r => rfl
  | _ => cases h

namespace Control

/-- The park in which the thread `a` is. -/
def spot? (a : Agent) : Control S A V → Option Spot
  | .park _ p deadline sleep _ => some ⟨p, deadline, sleep⟩
  | .hold _ _ p w _ => w.spot? p
  | .awaiting _ (.wait w) => a.context?.bind fun c => w.spot? (.own c)
  | _ => none

/-- What the thread is about to do once its park has come to `r`. -/
def landed (r : Except GuardError Unit) : Control S A V → Control S A V
  | .park seat _ _ _ next => .run seat (next r)
  | .hold seat g p w next => .hold seat g p (w.landed r) next
  | .awaiting aw (.wait w) => .awaiting aw (.wait (w.landed r))
  | k => k

/-- The wait of the thread `a` for a guard, and its parker. -/
def wait? (a : Agent) : Control S A V → Option (ParkerId × Wait S)
  | .hold _ _ p w _ => some (p, w)
  | .awaiting _ (.wait w) => a.context?.map fun c => (.own c, w)
  | _ => none

/-- The same with the wait `w` in place of its own. -/
def waiting (w : Wait S) : Control S A V → Control S A V
  | .hold seat g p _ next => .hold seat g p w next
  | .awaiting aw (.wait _) => .awaiting aw (.wait w)
  | k => k

/-- Whatever the thread waits for, it is only about to begin. -/
def fresh : Control S A V → Bool
  | .park _ _ _ sleep _ => sleep = .awake
  | .hold _ _ _ w _ => w.begins
  | .awaiting _ (.wait w) => w.begins
  | _ => true

section
variable {w : Wait S} (h : k.wait? a = some (p, w)) (w' : Wait S)
include h

/-- A thread that waits for a guard parks where its wait does. -/
theorem spot?_wait : k.spot? a = w.spot? p ∧ (k.waiting w').spot? a = w'.spot? p ∧
    ∀ r, k.landed r = k.waiting (w.landed r) := by
  cases k with
  | hold seat g q w next =>
    cases h
    exact ⟨rfl, rfl, fun r => rfl⟩
  | awaiting aw phase => cases phase with
    | wait w =>
      cases a with
      | context c =>
        cases h
        exact ⟨rfl, rfl, fun r => rfl⟩
      | caller n => cases h
    | _ => cases h
  | _ => cases h

theorem wait?_waiting : (k.waiting w').wait? a = some (p, w') := by
  cases k with
  | hold seat g q w next =>
    cases h
    rfl
  | awaiting aw phase => cases phase with
    | wait w =>
      cases a with
      | context c =>
        cases h
        rfl
      | caller n => cases h
    | _ => cases h
  | _ => cases h

theorem behind_wait : k.behind = k := by
  cases k with
  | notify => cases h
  | _ => rfl

end

theorem behind_spot (h : k.spot? a = some spot) : k.behind = k := by
  cases k with
  | notify => cases h
  | _ => rfl

theorem behind_ne_notify {n : Notice} (k k' : Control S A V) : k.behind ≠ .notify g n k' := by
  induction k with
  | notify i n k ih => exact ih
  | _ => nofun

end Control

namespace Machine

/-- Whether the thread can get hold of what it waits with. -/
def admits (m : Machine S A V) : Control S A V → Bool
  | .park _ p _ _ _ => m.lends p
  | .hold _ g p _ _ => m.lends p && (m.cogs.get? g).isSome
  | _ => true

/-- The park in which the thread `a` is. -/
def spot? (m : Machine S A V) (a : Agent) : Option Spot :=
  (m.threads.get? a).bind fun t => if m.admits t.control then t.control.spot? a else none

theorem spot?_eq (h : m.spot? a = some spot) :
    ∃ t, m.threads.get? a = some t ∧ m.admits t.control = true ∧ t.control.spot? a = some spot := by
  obtain ⟨t, ht, hs⟩ := Option.bind_eq_some_iff.mp h
  split at hs
  · next admitted => exact ⟨t, ht, admitted, hs⟩
  · cases hs

theorem spot?_none (ht : m.threads.get? a = some t) (hk : t.control.spot? a = none) :
    m.spot? a = none := by
  simp [spot?, ht, hk]

end Machine

/-! ## Broadcasts and signals -/

/-- The cog in whose scheduler a thread of the cog `own` wakes all as it goes from one stance to the
other. -/
def Stance.hails (own : Option CogId) : Stance → Stance → Option CogId
  | .claim, .leave => own
  | .enrol _ g _, .body _ => some g
  | .submit (.launch _) _ g _, .body _ => some g
  | .release _, .wait _ => own
  | .hand _ _, .wait _ => own
  | .complete _ _, .claim => own
  | .strand _, .leave => own
  | _, _ => none

theorem Stance.hails_self (s : Stance) : s.hails own s = none := by
  cases s with
  | submit stage => cases stage <;> rfl
  | _ => rfl

/-- The context that a thread enters as it goes from one stance to the other. -/
def Stance.enters (s s' : Stance) : Option ContextId :=
  match s.stage? with
  | some (.register c) => if s'.stage? = some (.launch c) then some c else none
  | _ => none

theorem Stance.enters_none (h : s'.stage? = none) : s.enters s' = none := by
  unfold enters
  split
  · rw [h, if_neg (by simp)]
  · rfl

theorem Stance.enters_eq (h : s.enters s' = some c) : s.stage? = some (.register c) := by
  unfold enters at h
  split at h
  · next d hs =>
    split at h <;> cases h
    exact hs
  · cases h

theorem Stance.enters_self (s : Stance) : s.enters s = none := by
  unfold enters
  split
  · next c hs => rw [hs, if_neg (by simp)]
  · rfl

/-- In an await, a broadcast falls only where the slot is given up. -/
theorem Phase.silent {phase : Phase S} (own : Option CogId) (h : phase ≠ .release) (k : TaskId) (s' : Stance) :
    (phase.stance k).hails own s' = none ∧ (phase.stance k).enters s' = none := by
  cases phase with
  | release => exact absurd rfl h
  | _ => exact ⟨rfl, rfl⟩

/-- A step of a wait wakes nobody. -/
theorem Control.wait?_quiet {w : Wait S} (own : Option CogId) (h : k.wait? a = some (p, w)) (w' : Wait S) :
    k.signals = [] ∧ k.stance.hails own (k.waiting w').stance = none ∧
      k.stance.enters (k.waiting w').stance = none := by
  cases k with
  | hold => exact ⟨rfl, rfl, rfl⟩
  | awaiting aw phase => cases phase with
    | wait w => exact ⟨rfl, rfl, rfl⟩
    | _ => cases h
  | _ => cases h

theorem Errand.enters (e : Errand S A V) (c : ContextId) :
    (e.stance (.register c)).enters (e.stance (.launch c)) = some c := by
  cases e <;> simp [Stance.enters, Errand.stance, Stance.stage?]

namespace Move

/-- The cog in whose scheduler all are woken in this move. A submission that fails wakes nobody, and
neither does a body that has left without the slot if its task has ended already. -/
def hails? (v : Move S A V) : Option CogId :=
  v.turn.bind fun (_, own, s, s') => (s.hails own s').filter fun g => match s with
    | .submit (.launch c) _ _ _ => (v.after.look (.context c)).isSome
    | .strand k => (v.before.books g).records.has k
    | _ => true

theorem hails?_eq {v : Move S A V} (hv : v.turn = some (a, own, s, s')) (hs : s.hails own s' = some g)
    (hf : ∀ k, s = .strand k → (v.before.books g).records.has k = true)
    (hl : ∀ c seat h view, s ≠ .submit (.launch c) seat h view) : v.hails? = some g := by
  simp only [hails?, hv, Option.bind_some, hs]
  cases s with
  | strand k => simp [hf k rfl]
  | submit stage seat h view => cases stage with
    | launch c => exact absurd rfl (hl c seat h view)
    | _ => rfl
  | _ => rfl

/-- A body that has left without the slot wakes all if its task has not ended yet. -/
theorem hails?_strand {v : Move S A V} {k : TaskId}
    (hv : v.turn = some (a, some g, .strand k, .leave)) :
    v.hails? = if (v.before.books g).records.has k then some g else none := by
  simp only [hails?, hv, Option.bind_some, Stance.hails]
  rfl

/-- A submission wakes all if its context has got its thread. -/
theorem hails?_submit {v : Move S A V} {seat seat' : Option Seat} {view : TaskView}
    (hv : v.turn = some (a, own, .submit (.launch c) seat g view, .body seat')) :
    v.hails? = if (v.after.look (.context c)).isSome then some g else none := by
  simp only [hails?, hv, Option.bind_some, Stance.hails]
  rfl

/-- The signal that is sent in this move. -/
def sends? (v : Move S A V) : Option Signal :=
  v.act.actor?.bind fun a => (v.before.signals a).head?

/-- The context that is entered in this move. -/
def enters? (v : Move S A V) : Option ContextId := v.turn.bind fun (_, _, s, s') => s.enters s'

theorem enters?_eq {v : Move S A V} (hv : v.turn = some (a, own, s, s')) : v.enters? = s.enters s' := by
  simp [enters?, hv]

end Move

/-- The signal is for a parker. -/
def Signal.parker? : Signal → Option ParkerId
  | .interrupt p => some p
  | .wake (.parker p) => some p
  | .wake _ => none

namespace Machine

/-- Whoever else sleeps with the parker is notified. -/
def Rouses (m : Machine S A V) (a : Agent) (m' : Machine S A V) (p : ParkerId) : Prop :=
  ∀ b t, b ≠ a → m.threads.get? b = some t → t.sleepsOn b (.parker p) = true →
    m'.threads.get? b = some t.rouse

/-- What a step of the thread `a` does to parkers. -/
inductive Wields (m : Machine S A V) (a : Agent) (m' : Machine S A V) : Prop where
  | keeps : (∀ q, m'.parker q = m.parker q) →
      (∀ spot, m.spot? a = some spot →
        (m.parker spot.parker).look m.now spot.deadline spot.sleep = some .sleeps) →
      (∀ sent rest, m.signals a = sent :: rest → sent.parker? = none) →
      (⟨m, .step a, m'⟩ : Move S A V).hails? = none → (⟨m, .step a, m'⟩ : Move S A V).enters? = none →
      Wields m a m'
  /-- All who wait in the scheduler of a cog get a permit. -/
  | hails (g : CogId) : (⟨m, .step a, m'⟩ : Move S A V).hails? = some g →
      (∀ q, m'.parker q =
        if ∃ c ∈ (m.books g).waiters, q = .own c then (m.parker q).unpark else m.parker q) →
      (∀ c ∈ (m.books g).waiters, m.Rouses a m' (.own c)) → Wields m a m'
  | unparks (p : ParkerId) (rest : List Signal) : m.signals a = .wake (.parker p) :: rest →
      (∀ q, m'.parker q = if q = p then (m.parker q).unpark else m.parker q) → m.Rouses a m' p →
      Wields m a m'
  | interrupts (p : ParkerId) (rest : List Signal) : m.signals a = .interrupt p :: rest →
      (∀ q, m'.parker q = if q = p then (m.parker q).interrupt else m.parker q) → m.Rouses a m' p →
      Wields m a m'
  | lands (t : Thread S A V) (spot : Spot) (r : Except GuardError Unit) (p : Parker) :
      m.spot? a = some spot →
      (m.parker spot.parker).look m.now spot.deadline spot.sleep = some (.ended (r, p)) →
      (∀ q, m'.parker q = if q = spot.parker then p else m.parker q) →
      m.threads.get? a = some t →
      m'.threads.get? a = some { t with control := t.control.landed r } → Wields m a m'
  /-- A context is entered, and gets a new parker. -/
  | enters (c : ContextId) : (⟨m, .step a, m'⟩ : Move S A V).enters? = some c →
      (∀ q, m'.parker q = if q = .own c then {} else m.parker q) → Wields m a m'

/-- How a thread that has acted and is `t'` now has come to wait, if it waits. -/
inductive Ways (m : Machine S A V) (a : Agent) (m' : Machine S A V) (t' : Thread S A V) : Prop where
  | fresh : t'.control.behind.fresh = true → Ways m a m' t'
  | tells (t : Thread S A V) (g : CogId) (n : Notice) : m.threads.get? a = some t →
      t.control = .notify g n t'.control → Ways m a m' t'
  | dozes (spot : Spot) : m.spot? a = some spot →
      (m.parker spot.parker).look m.now spot.deadline spot.sleep = some .sleeps →
      t'.control.spot? a = some { spot with sleep := .asleep false } → t'.control.wait? a = none →
      Ways m a m' t'
  | waits (t : Thread S A V) (p : ParkerId) (w : Wait S) (σ : S) (move : WaitMove S) :
      m.threads.get? a = some t → m.admits t.control = true → t.control.wait? a = some (p, w) →
      w.step m.sight σ (m.parker p) = some move → t' = { t with control := t.control.waiting move.wait } →
      m'.futures = (m.subscribe (.parker p) move.joins).futures → m'.parker p = move.parker →
      m'.now = m.now → Ways m a m' t'

/-- What a step of the thread `a` does to parkers, and to its own wait. -/
structure Parks (m : Machine S A V) (a : Agent) (m' : Machine S A V) : Prop where
  wields : Wields m a m'
  ways : ∀ t, m'.threads.get? a = some t → Ways m a m' t

/-! ## One function at a time -/

theorem parker_congr (h : m'.parkers = m.parkers) (q : ParkerId) : m'.parker q = m.parker q := by
  unfold parker
  rw [h]

theorem turn_set (ht : m.threads.get? a = some t) (hm : m.Stirred m₁ a) :
    (⟨m, .step a, m₁.setControl a k⟩ : Move S A V).turn = some (a, t.cog, t.control.stance, k.stance) := by
  simp [Move.turn, Action.actor?, look_eq m a ht, look_eq _ a (thread_set k ht hm)]

theorem ways_set (ht : m.threads.get? a = some t) (hm : m.Stirred m₁ a) (hf : k.behind.fresh = true) :
    ∀ t', (m₁.setControl a k).threads.get? a = some t' → Ways m a (m₁.setControl a k) t' := by
  intro t' ht'
  cases (thread_set k ht hm).symm.trans ht'
  exact .fresh hf

section
variable (ht : m.threads.get? a = some t)
include ht

section
variable (hm : m.Stirred m₁ a)
include hm

theorem hails?_set (hs : t.control.stance.hails t.cog k.stance = none) :
    (⟨m, .step a, m₁.setControl a k⟩ : Move S A V).hails? = none := by
  simp [Move.hails?, turn_set ht hm, hs]

theorem enters?_set (hs : t.control.stance.enters k.stance = none) :
    (⟨m, .step a, m₁.setControl a k⟩ : Move S A V).enters? = none := by
  exact (Move.enters?_eq (turn_set ht hm)).trans hs

/-- The thread goes on, and parkers are as they were. -/
theorem Parks.mute (hp : m₁.parkers = m.parkers) (hs : t.control.spot? a = none)
    (hsig : t.control.signals = [])
    (hh : (⟨m, .step a, m₁.setControl a k⟩ : Move S A V).hails? = none)
    (he : t.control.stance.enters k.stance = none) (hf : k.behind.fresh = true) :
    Parks m a (m₁.setControl a k) where
  wields := by
    refine .keeps (parker_congr hp) (fun spot h => ?_) (fun sent rest h => ?_) hh (enters?_set ht hm he)
    · rw [spot?_none ht hs] at h
      cases h
    · rw [signals_eq ht, hsig] at h
      cases h
  ways := ways_set ht hm hf

theorem Parks.calm (hp : m₁.parkers = m.parkers) (hs : t.control.spot? a = none)
    (hsig : t.control.signals = []) (hh : t.control.stance.hails t.cog k.stance = none)
    (he : t.control.stance.enters k.stance = none) (hf : k.behind.fresh = true) :
    Parks m a (m₁.setControl a k) :=
  .mute ht hm hp hs hsig (hails?_set ht hm hh) he hf

end

/-- The thread ends, and parkers are as they were. -/
theorem Parks.gone (hg : m'.look a = none) (hp : m'.parkers = m.parkers)
    (hs : t.control.spot? a = none) (hsig : t.control.signals = []) : Parks m a m' where
  wields := by
    refine .keeps (parker_congr hp) (fun spot h => ?_) (fun sent rest h => ?_) ?_ ?_
    · rw [spot?_none ht hs] at h
      cases h
    · rw [signals_eq ht, hsig] at h
      cases h
    · simp [Move.hails?, Move.turn, Action.actor?, hg]
    · simp [Move.enters?, Move.turn, Action.actor?, hg]
  ways t' ht' := by
    rw [look_eq m' a ht'] at hg
    cases hg

/-- The thread wakes all who wait in the scheduler of a cog, and goes on. -/
theorem Parks.loud {m₀ : Machine S A V} {x y : Cog S A V} (hx : m.cogs.get? g = some x)
    (hy : m₀.cogs.get? g = some y) (hw : ∀ c, c ∈ y.scheduler.waiters ↔ c ∈ x.scheduler.waiters)
    (hp₀ : m₀.parkers = m.parkers) (hp : m₁.parkers = (m₀.broadcast g).parkers)
    (hm₀ : ∀ b, m.threads.get? b ≠ none → m.Stirred m₀ b) (hm : ∀ b, (m₀.broadcast g).Stirred m₁ b)
    (hh : (⟨m, .step a, m₁.setControl a k⟩ : Move S A V).hails? = some g)
    (hf : k.behind.fresh = true) : Parks m a (m₁.setControl a k) where
  wields := by
    refine .hails g hh (fun q => ?_) fun c hc b t' hb ht' hsl => ?_
    · have after : (m₁.setControl a k).parker q = (m₀.broadcast g).parker q := parker_congr hp q
      rw [after, parker_broadcast m₀ g hy, parker_congr hp₀, books_eq hx]
      simp only [hw]
    · rw [books_eq hx] at hc
      obtain ⟨roused, hr⟩ := hm₀ b (by simp [ht'])
      obtain ⟨again, ha⟩ := hm b
      have hears : t'.hears g y.scheduler.waiters b = true := by
        simp only [Thread.hears, Bool.or_eq_true, List.any_eq_true]
        exact .inr ⟨c, (hw c).mpr hc, hsl⟩
      rw [thread_setControl, if_neg hb, ha, thread_broadcast m₀ b g hy, hr, ht']
      cases roused <;> cases again <;> simp [hears]
  ways := ways_set ht (((hm₀ a (by simp [ht])).broadcast).trans (hm a)) hf

end

/-- The thread gives the slot up and wakes all who wait in the scheduler of its cog. -/
theorem parks_handedOver (m₁ : Machine S A V) (ht : m.threads.get? a = some t)
    (hm : ∀ b, m.threads.get? b ≠ none → m.Stirred m₁ b) {x y : Cog S A V} {aw : Awaiting S A V}
    (hx : m.cogs.get? g = some x) (hy : m₁.cogs.get? g = some y)
    (hw : ∀ c, c ∈ y.scheduler.waiters ↔ c ∈ x.scheduler.waiters) (hp : m₁.parkers = m.parkers)
    (hown : t.cog = some g)
    (hs : t.control.stance = .release aw.task ∨ ∃ stage, t.control.stance = .hand stage aw.task) :
    Parks m a (m₁.handedOver a c g aw) := by
  have told : m.Stirred (((m₁.broadcast g).onScheduler g (·.addWaiter c)).setLock g none) a :=
    (hm a (by simp [ht])).broadcast.trans (.same rfl)
  refine .loud ht hx hy hw hp rfl hm (fun b => .same rfl) ?_
    (by rw [behind_announce]; rfl)
  rcases hs with hs | ⟨stage, hs⟩ <;>
    exact Move.hails?_eq (turn_set ht told) (by rw [hs, hown, stance_announce]; rfl) (by simp [hs])
      (by simp [hs])

section
variable (ht : m.threads.get? a = some t) (hk : t.control = .starting stage e)
  (hm : m.Stirred m₁ a)
include ht hk hm

/-- A thread that starts a context does neither park nor send signals. -/
theorem starts_quietly (hp : m₁.parkers = m.parkers)
    (hh : (⟨m, .step a, m₁.setControl a k⟩ : Move S A V).hails? = none)
    (he : k.stance.stage? = none) (hf : k.behind.fresh = true) : Parks m a (m₁.setControl a k) :=
  .mute ht hm hp (by rw [hk]; rfl) (by rw [hk]; rfl) hh (Stance.enters_none he) hf

/-- A submission whose start comes to nothing wakes nobody: if it was about to get its context a
thread, the context has none. -/
theorem hails?_dropped {seat seat' : Option Seat} {view : TaskView}
    {next : Exit RuntimeError TaskId → Body S A V} (he : e = .submission seat g view next)
    (hs : k.stance = .body seat') (gone : ∀ c, stage = .launch c → m₁.look (.context c) = none) :
    (⟨m, .step a, m₁.setControl a k⟩ : Move S A V).hails? = none := by
  subst he
  have turn := turn_set (k := k) ht hm
  rw [hk, hs] at turn
  cases stage with
  | launch c =>
    have absent : (m₁.setControl a k).look (.context c) = none := by
      rw [look_setControl]
      split
      · next hca => rw [← hca, gone c rfl]; rfl
      · exact gone c rfl
    rw [Move.hails?_submit turn, absent]
    rfl
  | _ => exact hails?_set ht hm (by rw [hk, hs]; rfl)

end

section
variable (ht : m.threads.get? a = some t) (hk : t.control = .starting stage e)
  (hm : ∀ b, m.threads.get? b ≠ none → m.Stirred m₁ b) (ho : m.Ordered)
  (hl : m.look a = some (t.cog, e.stance stage))
include ht hk hm ho hl

/-- The start of a context has failed. -/
theorem parks_startFailed (hp : m₁.parkers = m.parkers) (hc : m₁.cogs = m.cogs)
    (gone : ∀ c, stage = .launch c → m₁.look (.context c) = none) (err : RuntimeError) :
    Parks m a (m₁.startFailed a t.cog err e) := by
  have own := hm a (by simp [ht])
  cases e with
  | submission seat g view next =>
    exact starts_quietly ht hk (own.trans (.same rfl)) hp
      (hails?_dropped ht hk (own.trans (.same rfl)) rfl rfl gone) rfl rfl
  | handover aw =>
    obtain ⟨g, c, x, hown, rfl, hx⟩ := ho.home_of_hosts hl rfl
    let m₂ := m₁.report (.queueNotStarted (((m₁.cogs.get? g).map (·.name)).getD "") err)
    have hy : m₂.cogs.get? g = some x := (congrArg (·.get? g) hc).trans hx
    simp only [startFailed, hown, Agent.context?]
    exact parks_handedOver m₂ ht (fun b hb => (hm b hb).trans (.same rfl)) hx hy (fun _ => .rfl) hp hown
      (.inr ⟨stage, by rw [hk]; rfl⟩)
  | direct seat label waker main next =>
    exact starts_quietly ht hk own hp (hails?_set ht own (by rw [hk]; rfl)) rfl rfl

/-- The system has panicked over the name of the context. -/
theorem parks_startUnwound (hp : m₁.parkers = m.parkers)
    (gone : ∀ c, stage = .launch c → m₁.look (.context c) = none) (panic : Payload) :
    Parks m a (m₁.startUnwound a t.cog panic e) := by
  have own := hm a (by simp [ht])
  cases e with
  | submission seat g view next =>
    exact starts_quietly ht hk (own.trans (.same rfl)) hp
      (hails?_dropped ht hk (own.trans (.same rfl)) rfl rfl gone) rfl rfl
  | handover aw =>
    obtain ⟨g, c, -, hown, rfl, -⟩ := ho.home_of_hosts hl rfl
    simp only [startUnwound, hown]
    exact starts_quietly ht hk (own.trans (.same rfl)) hp
      (hails?_set ht (own.trans (.same rfl)) (by rw [hk]; rfl)) rfl rfl
  | direct seat label waker main next =>
    exact starts_quietly ht hk own hp (hails?_set ht own (by rw [hk]; rfl)) rfl rfl

/-- The context has its thread. -/
theorem parks_startSucceeded (hp : m₁.parkers = m.parkers) (hc : m₁.cogs = m.cogs)
    (hs : stage = .launch c) (there : (m₁.look (.context c)).isSome) (hca : Agent.context c ≠ a) :
    Parks m a (m₁.startSucceeded a t.cog c e) := by
  subst hs
  have own := hm a (by simp [ht])
  cases e with
  | submission seat g view next =>
    obtain ⟨x, hx, -⟩ := ho.locks hl rfl
    let m₀ := m₁.onScheduler g (·.grant c)
    have reached (b : Agent) : m₁.Stirred ((m₀.broadcast g).setLock g none) b :=
      (Stirred.broadcast (show m₁.Stirred m₀ b from .same rfl)).trans (.same rfl)
    have told := own.trans (reached a)
    have hy : m₀.cogs.get? g = some { x with scheduler := x.scheduler.grant c } :=
      cog_onCog_self _ _ _ (by rw [hc, hx])
    have born (k : Control S A V) :
        (Machine.look (((m₀.broadcast g).setLock g none).setControl a k) (.context c)).isSome := by
      rwa [look_setControl, if_neg hca, (reached _).look]
    have turn (k : Control S A V) := turn_set (k := k) ht told
    rw [hk] at turn
    refine .loud ht hx hy (fun _ => .rfl) hp rfl (fun b hb => (hm b hb).trans (.same rfl))
      (fun b => .same rfl) ?_ (by rw [behind_announce]; rfl)
    exact (Move.hails?_submit (turn _)).trans (if_pos (born _))
  | handover aw =>
    obtain ⟨g, d, x, hown, rfl, hx⟩ := ho.home_of_hosts hl rfl
    have hy : (m₁.onScheduler g (·.grant c)).cogs.get? g =
        some { x with scheduler := x.scheduler.grant c } := cog_onCog_self _ _ _ (by rw [hc, hx])
    simp only [startSucceeded, hown, Agent.context?]
    exact parks_handedOver (m₁.onScheduler g (·.grant c)) ht
      (fun b hb => (hm b hb).trans (.same rfl)) hx hy (fun _ => .rfl) hp hown
      (.inr ⟨_, by rw [hk]; rfl⟩)
  | direct seat label waker main next =>
    exact starts_quietly ht hk own hp (hails?_set ht own (by rw [hk]; rfl)) rfl rfl

end

theorem parks_start (ho : m.Ordered) (ht : m.threads.get? a = some t) (hk : t.control = .starting stage e)
    (h : m.StartStep a t.cog e stage m') : Parks m a m' := by
  have hl : m.look a = some (t.cog, e.stance stage) := look_starting m a ht hk
  have absent {c : ContextId} (hs : stage = .launch c) : m.look (.context c) = none :=
    (ho.newcomer (c := c) hl (by simp [hs, Stance.newcomer?])).2.1
  have struck {c : ContextId} (b : Agent) (_ : m.threads.get? b ≠ none) : m.Stirred (m.strike c) b :=
    .strike (.same rfl)
  have gone {c : ContextId} (hs : stage = .launch c) (d : ContextId) (hd : stage = .launch d) :
      (m.strike c).look (.context d) = none := by
    cases hs.symm.trans hd
    rw [look_strike, absent hs]
  cases h with
  | closed => exact parks_startFailed ht hk (fun b _ => .same rfl) ho hl rfl rfl (by simp) .shutDown
  | numbers =>
    exact .calm ht (.same rfl) rfl (by rw [hk]; rfl) (by rw [hk]; rfl) (by rw [hk]; cases e <;> rfl)
      (by rw [hk]; cases e <;> rfl) rfl
  | @enters c =>
    refine ⟨.enters c ?_ fun q => ?_, ways_set ht (.same rfl) rfl⟩
    · refine (Move.enters?_eq (turn_set ht (.same rfl))).trans ?_
      rw [hk]
      exact e.enters c
    · show ((m.parkers.put (.own c) {}).get? q).getD {} = _
      rw [Table.get?_put]
      split <;> rfl
  | panics => exact parks_startUnwound ht hk struck ho hl (parkers_strike ..) (gone rfl) Registry.namePanic
  | refused =>
    exact parks_startFailed ht hk struck ho hl (parkers_strike ..) (cogs_strike ..) (gone rfl)
      (.spawn m.registry.refusal)
  | @granted c =>
    have hca : Agent.context c ≠ a := fun h => by simp [← h, absent rfl] at hl
    refine parks_startSucceeded ht hk (fun b hb => ⟨false, ?_⟩) ho hl rfl rfl rfl ?_ hca
    · have hbc : b ≠ .context c := by
        rintro rfl
        cases hb' : m.threads.get? (.context c) with
        | none => exact hb hb'
        | some t' => simp [look_eq m _ hb'] at absent
      show (m.threads.put (.context c) _).get? b = _
      rw [Table.get?_put, if_neg hbc]
      simp
    · simp [look]

/-- A step of a wait with a parker that the thread can get hold of. -/
theorem parks_visit {w : Wait S} {σ : S} {move : WaitMove S} (ht : m.threads.get? a = some t)
    (hm : m.Stirred m₁ a) (hp : m₁.parkers = m.parkers.put p move.parker)
    (hfut : m₁.futures = (m.subscribe (.parker p) move.joins).futures) (hnow : m₁.now = m.now)
    (h : w.step m.sight σ (m.parker p) = some move) (admitted : m.admits t.control = true)
    (hw : t.control.wait? a = some (p, w)) (hk : k = t.control.waiting move.wait) :
    Parks m a (m₁.setControl a k) := by
  obtain ⟨hs, hs', landed⟩ := Control.spot?_wait hw move.wait
  obtain ⟨hsig, hh, he⟩ := Control.wait?_quiet t.cog hw move.wait
  rw [← hk] at hs' hh he
  have visits := Wait.visits h p
  have here : m.spot? a = w.spot? p := by simp [Machine.spot?, ht, admitted, hs]
  have parkers (q : ParkerId) :
      (m₁.setControl a k).parker q = if q = p then move.parker else m.parker q := by
    show (m₁.parkers.get? q).getD {} = _
    rw [hp, Table.get?_put]
    split <;> rfl
  have same (e : move.parker = m.parker p) (q : ParkerId) : (m₁.setControl a k).parker q = m.parker q := by
    rw [parkers]
    split
    · next hq => rw [hq, e]
    · rfl
  have silent (sent : Signal) (rest : List Signal) (e : m.signals a = sent :: rest) :
      sent.parker? = none := by
    rw [signals_eq ht, hsig] at e
    cases e
  refine ⟨?_, fun t' ht' => ?_⟩
  · cases visits with
    | goesOn hspot hparker =>
      refine .keeps (same hparker) (fun spot e => ?_) silent (hails?_set ht hm hh) (enters?_set ht hm he)
      rw [here, hspot] at e
      cases e
    | sleeps spot hspot hq look hparker =>
      refine .keeps (same hparker) (fun spot' e => ?_) silent (hails?_set ht hm hh) (enters?_set ht hm he)
      rw [here, hspot] at e
      cases e
      rw [hq]
      exact look
    | lands spot r hspot hq look goesOn =>
      refine .lands t spot r move.parker (here.trans hspot) (hq ▸ look) (hq ▸ parkers) ht ?_
      rw [thread_set k ht hm, hk, goesOn, landed]
  · cases (thread_set k ht hm).symm.trans ht'
    exact .waits t p w σ move ht admitted hw h (by rw [hk]) hfut ((parkers p).trans (if_pos rfl)) hnow

theorem parks_signal {seat : Option Seat} {signals : List Signal} {next : Body S A V}
    (ht : m.threads.get? a = some t) (hk : t.control = .signal seat signals next)
    (h : m.SignalStep a seat next signals m') : Parks m a m' := by
  have before : m.signals a = signals := by rw [signals_eq ht, hk]; rfl
  have idle (spot : Spot) (h : m.spot? a = some spot) : False := by
    rw [spot?_none ht (by rw [hk]; rfl)] at h
    cases h
  have quiet {m₁ : Machine S A V} {k : Control S A V} (hm : m.Stirred m₁ a)
      (hp : m₁.parkers = m.parkers) (sent : ∀ first rest, signals = first :: rest → first.parker? = none)
      (hs : k.stance = .body seat) (hf : k.behind.fresh = true) : Parks m a (m₁.setControl a k) := by
    refine ⟨.keeps (parker_congr hp) (fun spot h => (idle spot h).elim)
      (fun first rest e => sent first rest (before.symm.trans e)) (hails?_set ht hm ?_)
      (enters?_set ht hm ?_), ways_set ht hm hf⟩
    · rw [hk, hs]
      rfl
    · rw [hk, hs]
      rfl
  cases h with
  | @interrupts p rest =>
    refine ⟨.interrupts p rest before (fun q => parker_interruptParker m p q) fun b t' hb ht' hsl => ?_,
      ways_set ht (.interruptParker (.same rfl)) rfl⟩
    rw [thread_setControl, if_neg hb, thread_interruptParker, ht']
    simp [hsl]
  | @unparks p rest =>
    refine ⟨.unparks p rest before (fun q => parker_unpark m p q) fun b t' hb ht' hsl => ?_,
      ways_set ht (.unpark (.same rfl)) rfl⟩
    rw [thread_setControl, if_neg hb, thread_unpark, ht']
    simp [hsl]
  | through => exact quiet (.same rfl) rfl (by simp) rfl rfl
  | counts | misses => exact quiet (.same rfl) rfl (by rintro _ _ ⟨⟩; rfl) rfl rfl
  | rings => exact quiet (.notifyAll (.same rfl)) rfl (by rintro _ _ ⟨⟩; rfl) rfl rfl

theorem parks_await {x : Cog S A V} {aw : Awaiting S A V} {phase : Phase S}
    (ht : m.threads.get? (.context c) = some t) (hg : t.cog = some g) (hx : m.cogs.get? g = some x)
    (hk : t.control = .awaiting aw phase) (h : m.AwaitStep c g x aw phase m') : Parks m (.context c) m' := by
  have go {m₁ : Machine S A V} {k : Control S A V} (hp : phase ≠ .release)
      (hs : t.control.spot? (.context c) = none) (hm : m.Stirred m₁ (.context c))
      (hparkers : m₁.parkers = m.parkers) (hf : k.behind.fresh = true) :
      Parks m (.context c) (m₁.setControl (.context c) k) := by
    obtain ⟨hh, he⟩ := Phase.silent t.cog hp aw.task k.stance
    exact .calm ht hm hparkers hs (by rw [hk]; rfl) (by rw [hk]; exact hh) (by rw [hk]; exact he) hf
  cases h with
  | handsOver =>
    refine parks_handedOver (m.onScheduler g (·.suspend aw.task c aw.label)) ht (fun b _ => .same rfl) hx
      (cog_onCog_self _ _ _ hx) (fun d => ?_) rfl hg (.inl (by rw [hk]; rfl))
    simp
  | handsOn =>
    exact .calm ht (.same rfl) rfl (by rw [hk]; rfl) (by rw [hk]; rfl) (by rw [hk]; rfl) (by rw [hk]; rfl) rfl
  | waits _ moves =>
    exact parks_visit ht (.same rfl) rfl rfl rfl moves (by rw [hk]; rfl) (by rw [hk]; rfl) (by rw [hk]; rfl)
  | interrupted answer | waitFails answer | promised answer | hinted answer =>
    exact go (by simp) (by rw [hk]; exact Wait.spot?_of_result answer _) (.same rfl) rfl rfl
  | aborts | abandons =>
    simp only [Machine.abort, announceEnd]
    refine go (by simp) (by rw [hk]; rfl) ?_ ?_ (by rw [behind_announce]; rfl)
    · split
      · exact .notifyAll (.same rfl)
      · exact .same rfl
    · split <;> rfl
  | marks | returns | resumes | fails =>
    exact go (by simp) (by rw [hk]; rfl) (.same rfl) rfl (by rw [behind_announce]; rfl)
  | _ => exact go (by simp) (by rw [hk]; rfl) (.same rfl) rfl rfl

section
variable {deadline : Option Instant} {sleep : Sleep} {seat : Option Seat}
  {next : Except GuardError Unit → Body S A V} (ht : m.threads.get? a = some t)
  (hk : t.control = .park seat p deadline sleep next) (lent : m.lends p = true)
include ht hk lent

theorem spot?_park : m.spot? a = some ⟨p, deadline, sleep⟩ := by
  simpa [spot?, ht, hk, admits, Control.spot?] using lent

theorem parks_dozes (look : (m.parker p).look m.now deadline sleep = some .sleeps) :
    Parks m a (m.setControl a (.park seat p deadline (.asleep false) next)) := by
  have here := spot?_park ht hk lent
  refine ⟨.keeps (fun _ => rfl) (fun spot e => ?_) (fun sent rest e => ?_) (hails?_set ht (.same rfl) ?_)
    (enters?_set ht (.same rfl) ?_), fun t' ht' => ?_⟩
  · cases here.symm.trans e
    exact look
  · rw [signals_eq ht, hk] at e
    cases e
  · rw [hk]
    rfl
  · rw [hk]
    rfl
  · cases (thread_set _ ht (.same rfl)).symm.trans ht'
    exact .dozes _ here look rfl rfl

theorem parks_lands {r : Except GuardError Unit} {q : Parker}
    (look : (m.parker p).look m.now deadline sleep = some (.ended (r, q))) :
    Parks m a ({ m with parkers := m.parkers.put p q }.setControl a (.run seat (next r))) := by
  refine ⟨.lands t _ r q (spot?_park ht hk lent) look (fun i => ?_) ht ?_, ways_set ht (.same rfl) rfl⟩
  · show ((m.parkers.put p q).get? i).getD {} = _
    rw [Table.get?_put]
    split <;> rfl
  · rw [hk]
    exact thread_set _ ht (.same rfl)

end

/-- A thread that has something to tell goes on as it was to. -/
theorem parks_notify {n : Notice} {after : Control S A V} (ht : m.threads.get? a = some t)
    (hk : t.control = .notify g n after) : Parks m a ((m.deliver g n).setControl a after) := by
  have told : m.Stirred (m.deliver g n) a := .same (threads_deliver ..)
  have parkers : (m.deliver g n).parkers = m.parkers := by
    unfold deliver
    split <;> rfl
  refine ⟨.keeps (parker_congr parkers) (fun spot e => ?_) (fun sent rest e => ?_)
    (hails?_set ht told ?_) (enters?_set ht told ?_), fun t' ht' => ?_⟩
  · rw [spot?_none ht (by rw [hk]; rfl)] at e
    cases e
  · rw [signals_eq ht, hk] at e
    cases e
  · rw [hk]
    exact Stance.hails_self _
  · rw [hk]
    exact Stance.enters_self _
  · cases (thread_set _ ht told).symm.trans ht'
    exact .tells t g n ht hk

/-- The thread wakes all who wait in the scheduler of a cog, and tells that a task has ended. -/
theorem parks_announceEnd (m₀ : Machine S A V) {x y : Cog S A V} {outcome : TaskOutcome}
    {view : Option TaskView} (ht : m.threads.get? a = some t) (hx : m.cogs.get? g = some x)
    (hy : m₀.cogs.get? g = some y) (hw : ∀ c, c ∈ y.scheduler.waiters ↔ c ∈ x.scheduler.waiters)
    (hp₀ : m₀.parkers = m.parkers) (hp : m₁.parkers = (m₀.broadcast g).parkers)
    (hm₀ : m₀.threads = m.threads) (hm : m₁.threads = (m₀.broadcast g).threads)
    (hs : t.control.stance.hails t.cog k.stance = some g)
    (hu : ∀ k, t.control.stance = .strand k → (m.books g).records.has k = true)
    (hl : ∀ c seat h view, t.control.stance ≠ .submit (.launch c) seat h view)
    (hf : k.behind.fresh = true) : Parks m a (m₁.announceEnd a g outcome view k) := by
  have own : m.Stirred m₀ a := .same hm₀
  have go (m₂ : Machine S A V) (hp : m₂.parkers = (m₀.broadcast g).parkers)
      (hm : ∀ b, (m₀.broadcast g).Stirred m₂ b) :
      Parks m a (m₂.setControl a (announce g (.finished outcome) view k)) := by
    refine .loud ht hx hy hw hp₀ hp (fun b _ => .same hm₀) hm ?_ (by rwa [behind_announce])
    exact Move.hails?_eq (turn_set ht (own.broadcast.trans (hm a))) (by rwa [stance_announce]) hu hl
  cases view with
  | none => exact go m₁ hp fun b => .same hm
  | some v => exact go (m₁.notifyAll (.task g v.id)) hp fun b => .notifyAll (.same hm)

theorem parks_step (ho : m.Ordered) (he : m.Enlisted) (h : m.step a = some m') : Parks m a m' := by
  obtain ⟨t, ht, took⟩ := step_cases h
  generalize hk : t.control = control at took
  have go {m₁ : Machine S A V} {k : Control S A V} (hs : control.spot? a = none)
      (hsig : control.signals = []) (hm : m₁.threads = m.threads) (hp : m₁.parkers = m.parkers)
      (hh : control.stance.hails t.cog k.stance = none) (he : control.stance.enters k.stance = none)
      (hf : k.behind.fresh = true) : Parks m a (m₁.setControl a k) := by
    subst hk
    exact .calm ht (.same hm) hp hs hsig hh he hf
  -- Whoever waits in the scheduler is in an await, and has no task to give up.
  have kept {c : ContextId} {g : CogId} {x : Cog S A V} {k : TaskId} (ha : a = .context c)
      (hs : control = .strand k) (hx : m.cogs.get? g = some x) (d : ContextId) :
      d ∈ (x.scheduler.removeWaiter c).waiters ↔ d ∈ x.scheduler.waiters := by
    have apart : c ∉ x.scheduler.waiters := by
      intro waits
      obtain ⟨t', aw, phase, ht', -, behind, -⟩ := he _ x c hx waits
      cases (ha ▸ ht).symm.trans ht'
      rw [hk, hs] at behind
      cases behind
    rw [Scheduler.mem_removeWaiter]
    exact ⟨fun h => h.2, fun h => ⟨fun e => apart (e ▸ h), h⟩⟩
  cases took with
  | runs took => cases took with
    | quits => exact .gone ht (by simp [look]) rfl (by rw [hk]; rfl) (by rw [hk]; rfl)
    | _ => exact go rfl rfl rfl rfl rfl rfl rfl
  | @joins seat g view task next x hx =>
    have told : m.Stirred ((m.onScheduler g (·.enqueue view task)).broadcast g) a := .broadcast (.same rfl)
    refine .loud ht hx (cog_onCog_self _ _ _ hx) (fun _ => .rfl) rfl rfl (fun b _ => .same rfl)
      (fun b => .same rfl) ?_ (by rw [behind_announce]; rfl)
    refine Move.hails?_eq (turn_set ht told) ?_ (by simp [hk, Control.stance]) (by simp [hk, Control.stance])
    rw [hk, stance_announce]
    rfl
  | starts took => exact parks_start ho ht hk took
  | awaits ha hg hx took =>
    subst ha
    exact parks_await ht hg hx hk took
  | @retires c g x ha hg hx =>
    have told : m.Stirred ((m.onScheduler g fun _ => (x.scheduler.release c).retire).broadcast g) a :=
      .broadcast (.same rfl)
    refine .loud ht hx (cog_onCog_self _ _ _ hx) (fun d => ?_) rfl rfl (fun b _ => .same rfl)
      (fun b => .same rfl) ?_ rfl
    · simp [Scheduler.retire]
    · refine Move.hails?_eq (turn_set ht told) ?_ (by simp [hk, Control.stance]) (by simp [hk, Control.stance])
      rw [hk, hg]
      rfl
  | completes hg hx =>
    refine parks_announceEnd _ ht hx (cog_onCog_self _ _ _ hx) (fun d => ?_) rfl rfl rfl rfl
      (by rw [hk]; exact hg) (by simp [hk, Control.stance]) (by simp [hk, Control.stance]) rfl
    simp
  | @strands c g x k ha hg hx _ unfinished =>
    let m₀ := m.onCog g fun y => { y with
      scheduler := ((x.scheduler.removeWaiter c).strand k c m.now).2, ended := y.ended + 1 }
    refine parks_announceEnd m₀ ht hx (cog_onCog_self _ _ _ hx) (fun d => ?_) rfl rfl rfl rfl
      (by rw [hk]; exact hg) (fun k' e => ?_) (by simp [hk, Control.stance]) rfl
    · simpa using kept ha rfl hx d
    · rw [hk] at e
      cases e
      rw [books_eq hx]
      exact unfinished
  | @fades c g x k ha hg hx _ finished =>
    refine .mute ht (.same rfl) rfl (by rw [hk]; rfl) (by rw [hk]; rfl) ?_ (by rw [hk]; rfl) rfl
    have turn := turn_set (k := .leave) ht
      (show m.Stirred (m.onScheduler g fun _ => x.scheduler.removeWaiter c) a from .same rfl)
    rw [hk, hg] at turn
    refine (Move.hails?_strand turn).trans (if_neg ?_)
    rw [books_eq hx]
    exact Bool.eq_false_iff.mp finished
  | leaves ha =>
    subst ha
    refine .gone ht ?_ (parkers_strike ..) (by rw [hk]; rfl) (by rw [hk]; rfl)
    rw [look_strike]
    simp [look]
  | departs => exact .gone ht (by simp [look]) rfl (by rw [hk]; rfl) (by rw [hk]; rfl)
  | tells => exact parks_notify ht hk
  | sends took => exact parks_signal ht hk took
  | dozes lent look => exact parks_dozes ht hk lent look
  | lands lent look => exact parks_lands ht hk lent look
  | @answers seat g p w next r answer =>
    exact go (Wait.spot?_of_result answer p) rfl rfl rfl rfl rfl rfl
  | waits _ hx lent moves =>
    have admitted : m.admits t.control = true := by simpa [hk, admits, hx] using lent
    exact parks_visit ht (.same rfl) rfl rfl rfl moves admitted (by rw [hk]; rfl) (by rw [hk]; rfl)
  | _ => exact go rfl rfl rfl rfl rfl rfl rfl

/-! ## Waits begin at their beginning -/

/-- Who has something to tell first has not begun to wait. -/
def Plain (m : Machine S A V) : Prop :=
  ∀ a t, m.threads.get? a = some t → t.control.behind = t.control ∨ t.control.behind.fresh = true

end Machine

namespace Control

theorem fresh_of_behind (h : k.behind.fresh = true) : k.fresh = true := by
  cases k with
  | notify => rfl
  | _ => exact h

theorem fresh_spot (h : k.fresh = true) (hs : k.spot? a = some spot) : spot.sleep = .awake := by
  have begins {w : Wait S} {p : ParkerId} (hw : w.begins = true) (hs : w.spot? p = some spot) :
      spot.sleep = .awake := by
    obtain ⟨point, frames⟩ := w
    cases point with
    | park => cases frames <;> cases hw
    | _ => cases hs
  cases k with
  | park seat q deadline sleep next =>
    cases hs
    simpa [fresh] using h
  | hold seat g q w next => exact begins (p := q) h hs
  | awaiting aw phase => cases phase with
    | wait w =>
      obtain ⟨c, -, hs⟩ := Option.bind_eq_some_iff.mp hs
      exact begins h hs
    | _ => cases hs
  | _ => cases hs

theorem fresh_wait {w : Wait S} (h : k.fresh = true) (hw : k.wait? a = some (p, w)) :
    w.begins = true := by
  cases k with
  | hold seat g q w' next =>
    cases hw
    exact h
  | awaiting aw phase => cases phase with
    | wait w' =>
      obtain ⟨c, -, e⟩ := Option.map_eq_some_iff.mp hw
      cases e
      exact h
    | _ => cases hw
  | _ => cases hw

theorem New.fresh (h : k.New) : k.behind.fresh = true := by
  rcases h with rfl | ⟨body, rfl⟩ <;> rfl

end Control

namespace Machine

theorem Plain.told (h : m.Plain) {n : Notice} (ht : m.threads.get? a = some t)
    (hk : t.control = .notify g n k) : k.behind.fresh = true := by
  have plain := h a t ht
  rw [hk] at plain
  exact plain.resolve_left (k.behind_ne_notify k)

theorem Plain.act {move : Action S A V} (h : m.Plain) (ho : m.Ordered) (he : m.Enlisted)
    (ha : m.act move = some m') : m'.Plain := by
  intro b t' ht'
  by_cases hact : move.actor? = some b
  · obtain rfl := Action.step_of_actor hact
    cases (parks_step ho he ha).ways t' ht' with
    | fresh hf => exact .inr hf
    | tells t g n ht hk => exact .inr (h.told ht hk)
    | dozes spot _ _ hs => exact .inl (Control.behind_spot hs)
    | waits t p w σ move ht _ hw _ e =>
      subst e
      exact .inl (Control.behind_wait (Control.wait?_waiting hw move.wait))
  · rcases (shift_act ho ha).apart hact with ⟨roused, hr⟩ | new
    · rw [ht'] at hr
      obtain ⟨t, ht, rfl⟩ := Option.map_eq_some_iff.mp hr.symm
      have plain := h b t ht
      cases roused with
      | false => exact plain
      | true =>
        cases hk : t.control with
        | notify g n k =>
          rw [hk] at plain
          simpa [hk, Control.rouse] using plain
        | awaiting aw phase => cases phase <;> exact .inl (by simp [hk, Control.rouse, Control.behind])
        | _ => exact .inl (by simp [hk, Control.rouse, Control.behind])
    · exact .inr (new t' ht').fresh

theorem Reachable.plain {r : Registry} {memory : A} (h : Reachable (.empty r memory) m) : m.Plain := by
  induction h with
  | refl =>
    intro a t ht
    cases ht
  | act h ha ih => exact ih.act h.ordered h.enlisted ha

end Machine

end ObjectGroups
