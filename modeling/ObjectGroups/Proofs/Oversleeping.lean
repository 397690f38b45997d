/-
A waiter that lies down while the clock goes on.

A waiter asks its guard, then for the deadline, and sleeps until then. The two
questions are put one after the other, in front of the slot and in the wait of
an `any` alike, and the clock does not wait: a timer that runs out in between
was not due for the first and is over for the second. The waiter then sleeps
without a deadline, although its guard may hold. It can happen in no other way.
-/
import ObjectGroups.Proofs.Paces
import ObjectGroups.Proofs.Readings
import ObjectGroups.Proofs.Rest
import ObjectGroups.Proofs.Resumption

namespace ObjectGroups

open Machine

variable {S A V : Type} {m m' n : Machine S A V} {a : Agent} {c : ContextId} {g : CogId}
  {x : Cog S A V} {t : Thread S A V} {aw : Awaiting S A V} {q : Guard S} {s : S} {w : Wait S}
  {phase : Phase S}

/-- The wait outside the lock that the thread is in, and the cog on whose state it is. -/
def Thread.wait? (t : Thread S A V) : Option (CogId × Wait S) :=
  match t.control with
  | .awaiting _ (.wait w) => t.cog.map fun g => (g, w)
  | .hold _ g _ w _ => some (g, w)
  | _ => none

namespace Machine

def waitOf (m : Machine S A V) (a : Agent) : Option (CogId × Wait S) :=
  (m.threads.get? a).bind Thread.wait?

/-- A waiter asks the guard `q` on the state `s` in the next step from `m`, and it is false; in the
next step from `m'` the waiter asks for the deadline, is given none, and lies down. -/
inductive DozesOff (m m' : Machine S A V) : Guard S → S → Prop where
  /-- The slot is free. -/
  | slot {n n' : Machine S A V} {c : ContextId} {g : CogId} {x x' : Cog S A V}
      {t t' : Thread S A V} {aw : Awaiting S A V} : m.Stands c g x t aw (.contend none) →
      x.scheduler.active = none → m.act (.step (.context c)) = some n →
      Stays (fun k => ∃ x t, k.Stands c g x t aw (.doze none)) n m' →
      m'.act (.step (.context c)) = some n' → n'.Stands c g x' t' aw (.asleep none none false) →
      DozesOff m m' aw.guard x.state
  | wait {n n' : Machine S A V} {a : Agent} {g : CogId} {x : Cog S A V} {gs : List (Guard S)}
      {external : Bool} {frames : List (Bool × List (Guard S))} :
      m.waitOf a = some (g, ⟨.anyPoll gs external, frames⟩) → m.cogs.get? g = some x →
      m.act (.step a) = some n →
      Stays (fun k => k.waitOf a = some (g, ⟨.anyAim gs external, frames⟩)) n m' →
      m'.act (.step a) = some n' →
      n'.waitOf a = some (g, ⟨.park none .awake (.any gs), frames⟩) →
      DozesOff m m' (.any gs) x.state

/-! ## The step of a wait -/

/-- A wait that has not ended takes a step of its own. -/
theorem waitOf_step (hw : m.waitOf a = some (g, w)) (hr : w.result? = none)
    (h : m.act (.step a) = some m') :
    ∃ x p move, m.cogs.get? g = some x ∧ w.Paces m.sight x.state p move ∧
      m'.waitOf a = some (g, move.wait) := by
  obtain ⟨t, ht, hw⟩ := Option.bind_eq_some_iff.mp hw
  have after {m₁ : Machine S A V} {k : Control S A V} (hm : m₁.threads = m.threads) :
      (m₁.setControl a k).waitOf a = { t with control := k }.wait? := by
    rw [waitOf, thread_set k ht (.same hm), Option.bind_some]
  have took := step_of ht h
  obtain ⟨cog, control⟩ := t
  dsimp only at took
  cases took with
  | answers ended =>
    cases hw
    cases ended.symm.trans hr
  | waits _ hx _ hm =>
    cases hw
    exact ⟨_, _, _, hx, Wait.step_paces hm, after rfl⟩
  | awaits ha hg hx took =>
    subst ha hg
    cases took with
    | waits _ hm =>
      cases hw
      exact ⟨_, _, _, hx, Wait.step_paces hm, after rfl⟩
    | interrupted ended | waitFails ended | promised ended | hinted ended =>
      cases hw
      cases ended.symm.trans hr
    | _ => cases hw
  | _ => cases hw

/-- The first question has been answered with no. -/
theorem any_refused {gs : List (Guard S)} {external : Bool} {frames : List (Bool × List (Guard S))}
    (hw : m.waitOf a = some (g, ⟨.anyPoll gs external, frames⟩)) (hx : m.cogs.get? g = some x)
    (h : m.act (.step a) = some m') (hw' : m'.waitOf a = some (g, ⟨.anyAim gs external, frames⟩)) :
    (Guard.any gs).poll m.sight x.state = .ok false := by
  obtain ⟨y, p, move, hy, paces, after⟩ := waitOf_step hw rfl h
  cases hx.symm.trans hy
  cases paces with
  | goes goes =>
    cases after.symm.trans hw'
    cases goes with
    | refused hp => exact Guard.evaluate_ok.mp hp

/-- The second question has been answered with no instant. -/
theorem any_aimless {gs : List (Guard S)} {external : Bool} {frames : List (Bool × List (Guard S))}
    (hw : m.waitOf a = some (g, ⟨.anyAim gs external, frames⟩)) (h : m.act (.step a) = some m')
    (hw' : m'.waitOf a = some (g, ⟨.park none .awake (.any gs), frames⟩)) :
    (Guard.any gs).deadline m.sight = .ok none := by
  obtain ⟨y, p, move, hy, paces, after⟩ := waitOf_step hw rfl h
  cases paces with
  | goes goes =>
    cases after.symm.trans hw'
    cases goes with
    | parksAny hd => exact hd

/-! ## In front of the slot -/

theorem Stands.refused {x' : Cog S A V} {t' : Thread S A V} (hs : m.Stands c g x t aw (.contend none))
    (free : x.scheduler.active = none) (h : m.act (.step (.context c)) = some m')
    (hs' : m'.Stands c g x' t' aw (.doze none)) : aw.guard.poll m.sight x.state = .ok false := by
  obtain ⟨k, ht', strides⟩ := step_strides hs.thread hs.home hs.control hs.cog h
  cases hs'.thread.symm.trans ht'
  have hk : k = .awaiting aw (.doze none) := hs'.control
  subst hk
  cases strides with
  | proceeds h => cases h with
    | taken _ active => exact absurd free active
    | refused _ hp => exact hp
  | aborts _ hk => cases hk
  | fails _ _ hk => cases hk
  | unwinds _ hk => cases hk
  | resumes _ _ hk => cases hk

theorem Stands.aimless {x' : Cog S A V} {t' : Thread S A V} (hs : m.Stands c g x t aw (.doze none))
    (h : m.act (.step (.context c)) = some m')
    (hs' : m'.Stands c g x' t' aw (.asleep none none false)) : aw.guard.deadline m.sight = .ok none := by
  obtain ⟨k, ht', strides⟩ := step_strides hs.thread hs.home hs.control hs.cog h
  cases hs'.thread.symm.trans ht'
  have hk : k = .awaiting aw (.asleep none none false) := hs'.control
  subst hk
  cases strides with
  | proceeds h => cases h with
    | aimed hd => exact hd
  | aborts _ hk => cases hk

/-! ## The clock goes on -/

theorem Reachable.now_le (ho : m.Ordered) (h : Reachable m n) : m.now ≤ n.now := by
  induction h with
  | refl => exact Int.le_refl _
  | act hn ha ih => exact Int.le_trans ih (aside_act (ho.reachable hn) ha).now

theorem Stays.begins {P : Machine S A V → Prop} (h : Stays P m n) : P m := by
  induction h with
  | refl h => exact h
  | act _ _ _ ih => exact ih

/-- What a waiter that lies down without a deadline has been told, and when. -/
theorem DozesOff.told (ho : m.Ordered) (h : DozesOff m m' q s) :
    q.poll m.sight s = .ok false ∧ q.deadline m'.sight = .ok none ∧ m.now ≤ m'.now := by
  have later {P : Machine S A V → Prop} {n : Machine S A V} {act : Action S A V}
      (ha : m.act act = some n) (hn : Stays P n m') : m.now ≤ m'.now :=
    Int.le_trans (aside_act ho ha).now (hn.reachable.now_le (ho.act ha))
  cases h with
  | slot hs free ha hn ha' hs' =>
    obtain ⟨y, t, begins⟩ := hn.begins
    obtain ⟨y', t', ends⟩ := hn.holds
    exact ⟨hs.refused free ha begins, ends.aimless ha' hs', later ha hn⟩
  | wait hw hx ha hn ha' hw' =>
    exact ⟨any_refused hw hx ha hn.begins, any_aimless hn.holds ha' hw', later ha hn⟩

/-! ## Every timer can be slept through -/

theorem Stands.waitOf (hs : m.Stands c g x t aw (.wait w)) : m.waitOf (.context c) = some (g, w) := by
  simp [Machine.waitOf, hs.thread, Thread.wait?, hs.control, hs.home]

/-- A thread in an await takes the step of its wait. -/
theorem Stands.paces (hs : m.Stands c g x t aw (.wait w)) (hr : w.result? = none) {move : WaitMove S}
    (hm : w.step m.sight x.state (m.parker (.own c)) = some move) :
    ∃ n, m.act (.step (.context c)) = some n ∧
      n.Stands c g x { t with control := .awaiting aw (.wait move.wait) } aw (.wait move.wait) := by
  have steps : m.act (.step (.context c)) = m.stepWait (.context c) c x aw w :=
    step_awaiting hs.thread hs.home hs.control hs.cog
  simp only [stepWait, hr, hm] at steps
  exact ⟨_, steps, thread_set _ hs.thread (.same rfl), hs.home, hs.cog, rfl⟩

/-- The slot is free, and the guard does not hold. -/
theorem Stands.looks (hs : m.Stands c g x t aw (.contend none)) (free : x.scheduler.active = none)
    (calm : m.interrupted c = false) (refused : aw.guard.poll m.sight x.state = .ok false) :
    ∃ n, m.act (.step (.context c)) = some n ∧
      n.Stands c g x { t with control := .awaiting aw (.doze none) } aw (.doze none) := by
  have steps : m.act (.step (.context c)) = some (m.contend (.context c) c g x aw none) :=
    step_awaiting hs.thread hs.home hs.control hs.cog
  simp only [contend, calm, Bool.false_eq_true, if_false, free, Option.isSome_none,
    Guard.evaluate_ok.mpr refused] at steps
  exact ⟨_, steps, thread_set _ hs.thread (.same rfl), hs.home, hs.cog, rfl⟩

/-- Time passes, and nothing else happens. -/
theorem Stands.pass (hs : m.Stands c g x t aw phase) (d : Span) :
    (m.perform (.pass d)).Stands c g x t aw phase :=
  ⟨hs.thread, hs.home, hs.cog, hs.control⟩

/-- A waiter of a false guard dozes off if time passes until the guard names no deadline. -/
theorem Stands.dozesOff (hs : m.Stands c g x t aw (.contend none)) (free : x.scheduler.active = none)
    (calm : m.interrupted c = false) (refused : aw.guard.poll m.sight x.state = .ok false) {d : Span}
    (aimless : aw.guard.deadline ((m.perform (.step (.context c))).perform (.pass d)).sight = .ok none) :
    DozesOff m ((m.perform (.step (.context c))).perform (.pass d)) aw.guard x.state := by
  obtain ⟨n, ha, hn⟩ := hs.looks free calm refused
  have first : m.perform (.step (.context c)) = n := by rw [perform, ha, Option.getD_some]
  rw [first] at aimless ⊢
  have passes : n.act (.pass d) = some (n.perform (.pass d)) := rfl
  have later := hn.pass d
  have lies := step_awaiting later.thread later.home later.control later.cog
  obtain ⟨k, ht', strides⟩ := step_strides later.thread later.home later.control later.cog lies
  cases strides with
  | proceeds h => cases h with
    | aimed hd hx =>
      cases hd.symm.trans aimless
      exact .slot hs free ha (.act (.refl ⟨x, _, hn⟩) passes ⟨x, _, later⟩) lies ⟨ht', hs.home, hx, rfl⟩
    | aimFailed hd => cases hd.symm.trans aimless
  | aborts hp => simp at hp

/-- So does the waiter of an `any` that has a future to wait for. -/
theorem Stands.dozesOff_any {gs : List (Guard S)} {frames : List (Bool × List (Guard S))}
    (hs : m.Stands c g x t aw (.wait ⟨.anyPoll gs true, frames⟩))
    (refused : (Guard.any gs).poll m.sight x.state = .ok false) {d : Span}
    (aimless : (Guard.any gs).deadline ((m.perform (.step (.context c))).perform (.pass d)).sight = .ok none) :
    DozesOff m ((m.perform (.step (.context c))).perform (.pass d)) (.any gs) x.state := by
  have asks : Wait.step m.sight x.state (m.parker (.own c)) ⟨.anyPoll gs true, frames⟩ =
      some { parker := m.parker (.own c), wait := ⟨.anyAim gs true, frames⟩ } := by
    simp only [Wait.step, Guard.evaluate_ok.mpr refused]
  obtain ⟨n, ha, hn⟩ := hs.paces rfl asks
  have first : m.perform (.step (.context c)) = n := by rw [perform, ha, Option.getD_some]
  rw [first] at aimless ⊢
  have passes : n.act (.pass d) = some (n.perform (.pass d)) := rfl
  have later := hn.pass d
  have aims (p : Parker) : Wait.step (n.perform (.pass d)).sight x.state p ⟨.anyAim gs true, frames⟩ =
      some { parker := p, wait := ⟨.park none .awake (.any gs), frames⟩ } := by
    simp only [Wait.step, WaitPoint.aim, aimless, if_true]
  obtain ⟨n', ha', hn'⟩ := later.paces rfl (aims _)
  exact .wait hs.waitOf hs.cog ha (.act (.refl hn.waitOf) passes later.waitOf) ha' hn'.waitOf

end Machine

theorem Except.of_toOption {ε α : Type} {r : Except ε α} {v : α} (h : r.toOption = some v) : r = .ok v := by
  cases r with
  | ok v' =>
    cases h
    rfl
  | error e => cases h

/-- The await in whose wait the thread is about to ask an `any` that has a future to wait for, and
the parts of the `any`. -/
def Control.asks? : Control S A V → Option (Awaiting S A V × List (Guard S))
  | .awaiting aw (.wait ⟨.anyPoll gs true, _⟩) => some (aw, gs)
  | _ => none

theorem Control.of_asks {k : Control S A V} {gs : List (Guard S)} (h : k.asks? = some (aw, gs)) :
    ∃ frames, k = .awaiting aw (.wait ⟨.anyPoll gs true, frames⟩) := by
  unfold asks? at h
  split at h
  · cases h
    exact ⟨_, rfl⟩
  · cases h

open Machine

/-- A guard of the library that has been false when it was asked, and names no deadline when it is asked
for one afterwards, changes no more, and does not hold unless one of its timers has run out in
between. So it is with one look at the clock for each timer, and in every run for whoever is about to
sleep without a deadline, in front of a free slot or in the wait of an `any`. -/
theorem sleeps_unheeded {q : Guard S} (library : q.library = true) :
    (∀ {resolved : FutureId → Bool} {s : S} {t u w w' : Instant}, q.Asked resolved s t (.ok false) u →
      u ≤ w → q.Aimed w none w' → q.Unheeded resolved s t w') ∧
    (∀ (r : Registry) (memory : A) {m m' : Machine S A V} {s : S}, Reachable (.empty r memory) m →
      DozesOff m m' q s → q.Unheeded m.sight.resolved s m.now m'.now) := by
  refine ⟨fun asked hle aimed => asked.unheeded library hle aimed, fun r memory {m m' s} h dozes => ?_⟩
  obtain ⟨refused, aimless, hle⟩ := dozes.told ((ordered_empty r memory).reachable h)
  have asked : q.Asked m.sight.resolved s m.now (.ok false) m.now := refused ▸ Guard.asked_poll library
  exact asked.unheeded library hle (Guard.aimed_deadline library aimless)

/-- It holds from 5 on, or once the future is resolved. -/
def fiveOrFuture : Guard Nat := .any [.timer (some 5) 5, .future ⟨1⟩]

/-- The only task awaits it, and its wait is about to ask. -/
def fiveActions : List (Action Nat Unit Unit) :=
  [.found "cog" 0,
    .arrive (.submit ⟨1⟩ "first" (.await fiveOrFuture fun _ => .exit (.ok ())) fun _ => .exit (.ok ()))] ++
    List.replicate 7 (.step (.caller 1)) ++ List.replicate 5 (.step (.context ⟨1⟩))

def pausing : Machine Nat Unit Unit :=
  fiveActions.foldl perform (.empty { namePrefix := "cog", admits := fun _ => true } ())

/-- It has asked, and time has passed. -/
def aiming : Machine Nat Unit Unit := (pausing.perform (.step (.context ⟨1⟩))).perform (.pass 5)

theorem sleeps_unheeded_five : fiveOrFuture.Unheeded (fun _ => false) 0 0 5 ∧
    ∃ gs, DozesOff pausing aiming (.any gs) 0 ∧
      (Guard.any gs).poll { aiming.sight with resolved := pausing.sight.resolved } 0 = .ok true ∧
      (Guard.any gs).Expires pausing.now aiming.now := by
  have asked : fiveOrFuture.Asked (fun _ => false) 0 0 (.ok false) 0 :=
    .anyNext (.timer 5 5 (Int.le_refl 0)) (.anyNext (.future ⟨1⟩ 0) (.anyNil 0))
  have aimed : fiveOrFuture.Aimed 0 none 5 :=
    .anyNext (.timer 5 5 (by decide)) (.anyNext (.future ⟨1⟩ 5) (.anyNil 5))
  refine ⟨(sleeps_unheeded (A := Unit) (V := Unit) rfl).1 asked (Int.le_refl 0) aimed, ?_⟩
  have polls : ((pausing.threads.get? (.context ⟨1⟩)).bind (·.control.asks?)).map (fun e =>
      ((Guard.any e.2).poll pausing.sight 0,
        (Guard.any e.2).poll { aiming.sight with resolved := pausing.sight.resolved } 0)) =
      some (.ok false, .ok true) := by decide +kernel
  have aims : ((pausing.threads.get? (.context ⟨1⟩)).bind (·.control.asks?)).map (fun e =>
      ((Guard.any e.2).library, ((Guard.any e.2).deadline aiming.sight).toOption)) =
      some (true, some none) := by decide +kernel
  have works : (pausing.threads.get? (.context ⟨1⟩)).map (·.cog) = some (some ⟨1⟩) := by decide +kernel
  have state : (pausing.cogs.get? ⟨1⟩).map (·.state) = some 0 := by decide +kernel
  obtain ⟨⟨aw, gs⟩, hk, polls⟩ := Option.map_eq_some_iff.mp polls
  obtain ⟨x, hx, state⟩ := Option.map_eq_some_iff.mp state
  rw [hk] at aims
  obtain ⟨t, ht, hk⟩ := Option.bind_eq_some_iff.mp hk
  obtain ⟨frames, hk⟩ := Control.of_asks hk
  rw [ht] at works
  simp only [Prod.mk.injEq, Option.map_some, Option.some.injEq] at polls aims works
  obtain ⟨refused, holds⟩ := polls
  obtain ⟨library, aimless⟩ := aims
  have stands : pausing.Stands ⟨1⟩ ⟨1⟩ x t aw (.wait ⟨.anyPoll gs true, frames⟩) := ⟨ht, works, hx, hk⟩
  have dozes : DozesOff pausing aiming (.any gs) x.state :=
    stands.dozesOff_any (state ▸ refused) (Except.of_toOption aimless)
  rw [state] at dozes
  refine ⟨gs, dozes, holds, ?_⟩
  have unheeded : (Guard.any gs).Unheeded pausing.sight.resolved 0 pausing.now aiming.now :=
    (sleeps_unheeded library).2 _ () (reachable_foldl fiveActions _) dozes
  exact unheeded.expired (v := { aiming.sight with resolved := pausing.sight.resolved }) (fun f => rfl)
    (Int.le_refl _) (by rw [holds]; simp)

/-! ## Somebody sleeps although his guard holds -/

/-- It holds from 5 on. -/
def fromFive : Guard Nat := .any [.field "never" fun _ => .ok false, .timer (some 5) 5]

/-- One task awaits it, and is notified when another one has ended; the first is about to look. -/
def lookingActions : List (Action Nat Unit Unit) :=
  [.found "cog" 0,
    .arrive (.submit ⟨1⟩ "first" (.await fromFive fun _ => .exit (.ok ())) fun _ => .exit (.ok ()))] ++
    List.replicate 7 (.step (.caller 1)) ++ List.replicate 8 (.step (.context ⟨1⟩)) ++
    [.arrive (.submit ⟨1⟩ "second" (.exit (.ok ())) fun _ => .exit (.ok ()))] ++
    List.replicate 7 (.step (.caller 2)) ++ List.replicate 6 (.step (.context ⟨2⟩)) ++
    List.replicate 5 (.step (.context ⟨1⟩))

def looking : Machine Nat Unit Unit :=
  lookingActions.foldl perform (.empty { namePrefix := "cog", admits := fun _ => true } ())

/-- It has looked, and time has passed. -/
def drowsy : Machine Nat Unit Unit := (looking.perform (.step (.context ⟨1⟩))).perform (.pass 5)

/-- It has lain down. -/
def overslept : Machine Nat Unit Unit := drowsy.perform (.step (.context ⟨1⟩))

/-- The guard holds, the slot is free and nobody moves. -/
theorem slept_through : ∃ q s, q.library = true ∧ DozesOff looking drowsy q s ∧
    q.poll drowsy.sight s = .ok true ∧ q.poll overslept.sight s = .ok true ∧ overslept.Still ∧
    (overslept.cogs.get? ⟨1⟩).map (fun x => (x.state, x.scheduler.active)) = some (s, none) := by
  have polls : ((looking.threads.get? (.context ⟨1⟩)).bind (·.control.looks?)).map (fun aw =>
      (aw.guard.poll looking.sight 0, aw.guard.poll drowsy.sight 0, aw.guard.poll overslept.sight 0)) =
      some (.ok false, .ok true, .ok true) := by decide +kernel
  have aims : ((looking.threads.get? (.context ⟨1⟩)).bind (·.control.looks?)).map (fun aw =>
      (aw.guard.library, (aw.guard.deadline drowsy.sight).toOption)) = some (true, some none) := by
    decide +kernel
  have works : (looking.threads.get? (.context ⟨1⟩)).map (·.cog) = some (some ⟨1⟩) := by decide +kernel
  have free : (looking.cogs.get? ⟨1⟩).map (fun x => (x.state, x.scheduler.active)) = some (0, none) := by
    decide +kernel
  have calm : looking.interrupted ⟨1⟩ = false := by decide +kernel
  obtain ⟨aw, looks, polls⟩ := Option.map_eq_some_iff.mp polls
  obtain ⟨x, hx, free⟩ := Option.map_eq_some_iff.mp free
  obtain ⟨t, stands⟩ := Stands.of_looks looks works hx
  rw [looks] at aims
  simp only [Prod.mk.injEq, Option.map_some, Option.some.injEq] at polls aims free
  obtain ⟨refused, holds, goesOn⟩ := polls
  obtain ⟨library, aimless⟩ := aims
  obtain ⟨state, free⟩ := free
  have dozes : DozesOff looking drowsy aw.guard x.state :=
    stands.dozesOff free calm (state ▸ refused) (Except.of_toOption aimless)
  rw [state] at dozes
  exact ⟨aw.guard, 0, library, dozes, holds, goesOn, by decide +kernel, by decide +kernel⟩

end ObjectGroups
