/-
A timer counts its span to the nanosecond.

A guard that is made at an instant to hold once a span has passed has the
instant in which the span ends for its deadline, and no deadline if there is no
such instant. Either way it tells at each instant whether that much time has
passed: an instant that does not exist lies behind all that do. A wait for such
a guard is looking at the clock and parking, over and over, or parking alone
without a deadline (`WaitPoint.timer?`). Whatever wakes the thread, the wait
ends with `true` only when the deadline has passed, and else with an interrupt.
-/
import ObjectGroups.Proofs.Resolutions

namespace ObjectGroups

variable {S A V : Type} {m n : Machine S A V} {a : Agent} {p : ParkerId} {now u : Int} {d : Span}
  {deadline : Option Instant} {x : WaitPoint S} {frames : List (Bool × List (Guard S))} {spot : Spot}

open Machine

/-! ## The end of a span -/

namespace Instant

theorem exists?_iff (t : Int) :
    exists? t = true ↔ -Word.half * 1000000000 ≤ t ∧ t < Word.half * 1000000000 := by
  unfold exists? Word.signed
  rw [decide_eq_true_iff]
  simp only [Word.half]
  omega

/-- A span is over when the instant in which it ends is there and has come. -/
theorem due_after? : due u (after? now d) = true ↔ exists? (now + d) = true ∧ now + d ≤ u := by
  unfold after?
  split
  · next there => simp [due, there]
  · next missing => simp [due, missing]

/-- The end of a span that does not exist is later than all that does. -/
theorem lt_of_missing (there : exists? now = true) (missing : exists? (now + d) = false)
    (hu : exists? u = true) : u < now + d := by
  have beyond := mt (exists?_iff (now + d)).mpr (by simp [missing])
  obtain ⟨low, -⟩ := (exists?_iff now).mp there
  obtain ⟨-, high⟩ := (exists?_iff u).mp hu
  omega

end Instant

/-- What a guard tells that is made at `now` to hold once the span `d` has passed. -/
structure Guard.Elapses (S : Type) (now : Instant) (d : Span) : Prop where
  /-- At each instant that there is it tells whether as many nanoseconds have passed. -/
  polls (v : Sight) (σ : S) : v.now.exists? = true →
    (after now d).poll v σ = .ok (decide (d ≤ v.now - now))
  /-- It never holds if the span ends in no instant. -/
  never (v : Sight) (σ : S) : Instant.exists? (now + d) = false → (after now d).poll v σ = .ok false
  /-- Once it holds, it holds at all later times. -/
  lasts (v v' : Sight) (σ σ' : S) : (after now d).poll v σ = .ok true → v.now ≤ v'.now →
    (after now d).poll v' σ' = .ok true
  stays (v : Sight) : (after now d : Guard S).stays v = .ok true
  /-- The clock alone may make it hold just as long as the instant in which the span ends is there and
  lies ahead. -/
  deadline (v : Sight) : (after now d : Guard S).deadline v =
    .ok (if Instant.exists? (now + d) = true ∧ v.now < now + d then some (now + d) else none)

theorem Guard.elapses (there : Instant.exists? now = true) : Guard.Elapses S now d where
  polls v σ hv := by
    refine congrArg Exit.ok (Bool.eq_iff_iff.mpr ?_)
    rw [Instant.due_after?, decide_eq_true_iff, ← Int.add_le_iff_le_sub, Int.add_comm d now]
    refine and_iff_right_of_imp fun passed => ?_
    by_contra missing
    exact Int.not_lt.mpr passed (Instant.lt_of_missing there (by simpa using missing) hv)
  never v σ missing := by simp [after, poll, Instant.after?, missing, Instant.due]
  lasts v v' σ σ' holds later := by
    have due : Instant.due v.now (Instant.after? now d) = true := by simpa [after, poll] using holds
    obtain ⟨there, passed⟩ := Instant.due_after?.mp due
    simp only [after, poll, Instant.due_after?.mpr ⟨there, Int.le_trans passed later⟩]
  stays _ := by simp [after, Guard.stays]
  deadline v := by
    simp only [after, Guard.deadline, Instant.after?]
    cases Instant.exists? (now + d) with
    | false => simp [Instant.due]
    | true =>
      by_cases passed : now + d ≤ v.now
      · simp [Instant.due, passed, Int.not_lt.mpr passed]
      · simp [Instant.due, passed, Int.not_le.mp passed]

/-! ## Waiting for a timer -/

/-- The deadline of the timer that is waited for at this point. -/
def WaitPoint.timer? : WaitPoint S → Option (Option Instant)
  | .enter (.timer deadline _) => some deadline
  | .timer t => some (some t)
  | .never => some none
  | .park deadline _ (.timer t) => if deadline = some t then some deadline else none
  | .park none _ .never => some none
  | _ => none

/-- Who parks while it waits for a timer does so until the deadline. It looks at the clock then, or parks
again if there is no such instant. -/
theorem WaitPoint.timer?_park {until_ : Option Instant} {sleep : Sleep} {after : AfterPark S} :
    (WaitPoint.park until_ sleep after).timer? = some deadline ↔
      until_ = deadline ∧ ((∃ t, deadline = some t ∧ after = .timer t) ∨ deadline = none ∧ after = .never) := by
  cases after with
  | timer t =>
    rw [timer?, Option.ite_none_right_eq_some]
    constructor
    · rintro ⟨rfl, h⟩
      cases h
      exact ⟨rfl, .inl ⟨t, rfl, rfl⟩⟩
    · rintro ⟨rfl, ⟨u, rfl, h⟩ | ⟨-, h⟩⟩ <;> cases h
      exact ⟨rfl, rfl⟩
  | never => cases until_ <;> cases deadline <;> simp [timer?]
  | _ => cases until_ <;> simp [timer?]

theorem WaitPoint.timer?_spot (hx : x.timer? = some deadline)
    (hs : (⟨x, frames⟩ : Wait S).spot? p = some spot) :
    spot.parker = p ∧ spot.deadline = deadline := by
  cases x with
  | park until_ sleep after =>
    cases hs
    exact ⟨rfl, (timer?_park.mp hx).1⟩
  | _ => cases hs

theorem Wait.timer?_notify (x : WaitPoint S) (frames : List (Bool × List (Guard S))) :
    ∃ y, Wait.notify ⟨x, frames⟩ = ⟨y, frames⟩ ∧ y.timer? = x.timer? := by
  cases x with
  | park d sleep after => exact ⟨_, rfl, by cases d <;> cases after <;> rfl⟩
  | _ => exact ⟨_, rfl, rfl⟩

/-- A wait for a timer goes on with it, or has its answer. -/
theorem Wait.timer?_step {v : Sight} {σ : S} {q : Parker} {next : WaitMove S}
    (h : step v σ q ⟨x, frames⟩ = some next) (hx : x.timer? = some deadline) :
    ∃ y, next.wait = ⟨y, frames⟩ ∧ (y.timer? = some deadline ∨
      (y = .done (.ok true) ∧ Instant.due v.now deadline = true) ∨
      (y = .done (.error .interrupted) ∧ q.interrupted = true)) := by
  cases step_paces h with
  | goes hy =>
    refine ⟨_, rfl, ?_⟩
    cases hy with
    | answers hr => cases hr with
      | due passed =>
        cases hx
        exact .inr (.inl ⟨rfl, decide_eq_true passed⟩)
      | _ => cases hx
    | timer | never | parksNever => exact .inl hx
    | parksTimer t =>
      cases hx
      exact .inl (if_pos rfl)
    | _ => cases hx
  | sleeps => exact ⟨_, rfl, .inl (WaitPoint.timer?_park.mpr (WaitPoint.timer?_park.mp hx))⟩
  | @wakes until_ sleep after frames r q' look =>
    refine ⟨_, rfl, ?_⟩
    obtain ⟨-, hafter⟩ := WaitPoint.timer?_park.mp hx
    cases r with
    | ok _ =>
      left
      rcases hafter with ⟨t, rfl, rfl⟩ | ⟨rfl, rfl⟩ <;> rfl
    | error e =>
      obtain ⟨rfl, flag⟩ := Parker.look_error look
      right
      right
      rcases hafter with ⟨t, -, rfl⟩ | ⟨-, rfl⟩ <;> exact ⟨rfl, flag⟩
  | _ => cases hx

/-- How a thread fares that waits with the parker `p` for a guard which was made at `now` to hold once
the span `d` has passed, in a run that has led to `m`. -/
structure Outwaits (start : Machine S A V) (moves : List (Move S A V)) (m : Machine S A V) (a : Agent)
    (p : ParkerId) (now : Instant) (d : Span) : Prop where
  /-- Whatever happens to its parker and to the clock, a wait that is under way goes on until it has come
  to an answer: `true` when the span has passed and ends in an instant that is there, or an interrupt
  of a parker that has been interrupted. -/
  answers {n : Machine S A V} {earlier since : List (Move S A V)} {x : WaitPoint S}
    {frames : List (Bool × List (Guard S))} : moves = earlier ++ since → History start earlier n →
      History n since m → n.wait? a = some (p, ⟨x, frames⟩) → x.timer? = some (now.after? d) →
        (∃ y, m.wait? a = some (p, ⟨y, frames⟩) ∧ y.timer? = some (now.after? d)) ∨
          ∃ v ∈ since, ∃ r, v.act = .step a ∧ v.after.wait? a = some (p, ⟨.done r, frames⟩) ∧
            ((r = .ok true ∧ Instant.exists? (now + d) = true ∧ d ≤ v.before.now - now) ∨
              (r = .error .interrupted ∧ (v.before.parker p).interrupted = true ∧
                ∃ u ∈ moves, u.raises p = true))
  /-- A thread that is blocked in its wait has neither a permit nor an interrupt, and the span has not
  passed or ends in no instant. -/
  blocked {x : WaitPoint S} {frames : List (Bool × List (Guard S))} {spot : Spot} :
    m.wait? a = some (p, ⟨x, frames⟩) → x.timer? = some (now.after? d) → m.spot? a = some spot →
      m.step a = none →
        m.parker p = {} ∧ (Instant.exists? (now + d) = true → m.now - now < d)

section
variable {reg : Registry} {memory : A} {moves : List (Move S A V)}

theorem History.outwaits (h : History (.empty reg memory) moves m) (a : Agent) (p : ParkerId)
    (now : Instant) (d : Span) : Outwaits (.empty reg memory) moves m a p now d where
  answers := by
    rintro n earlier since x frames rfl before after hn hx
    refine (before.goes_on (C := fun k => Instant.due k.now (now.after? d) = true) after
      (by simp [WaitPoint.timer?]) (Wait.timer?_notify · frames) Wait.timer?_step hn hx).imp_right ?_
    rintro ⟨v, hv, r, hact, hw, ⟨hr, passed⟩ | interrupt⟩
    · obtain ⟨there, passed⟩ := Instant.due_after?.mp passed
      exact ⟨v, hv, r, hact, hw, .inl ⟨hr, there, Int.le_sub_left_of_add_le passed⟩⟩
    · exact ⟨v, hv, r, hact, hw, .inr interrupt⟩
  blocked := by
    intro x frames spot hw hx hs hb
    obtain ⟨t, ht, hwt⟩ := wait?_eq hw
    obtain ⟨t', ht', -, hst⟩ := spot?_eq hs
    cases ht.symm.trans ht'
    obtain ⟨rfl, hd⟩ := WaitPoint.timer?_spot hx ((Control.spot?_wait hwt ⟨x, frames⟩).1.symm.trans hst)
    obtain ⟨-, bare, ahead⟩ := h.reachable.bare.blocked h.reachable.ordered hs hb
    refine ⟨bare, fun there => ?_⟩
    by_contra passed
    have due := Instant.due_after?.mpr ⟨there, Int.add_le_of_le_sub_left (Int.not_lt.mp passed)⟩
    rw [← hd, ahead] at due
    cases due

/-- A guard on a span is exact, whether or not there is an instant in which the span ends, and so is a
wait for it. -/
theorem timer_exact (h : History (.empty reg memory) moves m) (there : Instant.exists? now = true)
    (a : Agent) (p : ParkerId) (d : Span) :
    Guard.Elapses S now d ∧ Outwaits (.empty reg memory) moves m a p now d :=
  ⟨Guard.elapses there, h.outwaits a p now d⟩

end

/-- The last instant there is. -/
def lastInstant : Instant := Word.half * 1000000000 - 1

/-- Three nanoseconds before the last instant one caller waits for three to pass and one for four. They
are woken for nothing before it comes and after it. -/
def edgeActions : List (Action Unit Unit Unit) :=
  [.found "cog" (), .pass (lastInstant - 3).toNat,
    .arrive (.request (.wait ⟨1⟩ (.after (lastInstant - 3) 3) (.loose 0)) fun _ => .exit (.ok ())),
    .arrive (.request (.wait ⟨1⟩ (.after (lastInstant - 3) 4) (.loose 1)) fun _ => .exit (.ok ())),
    .arrive (.request (.wake (.parker (.loose 0))) fun _ =>
      .request (.wake (.parker (.loose 1))) fun _ => .exit (.ok ()))] ++
    [1, 2, 1, 2, 1, 2, 1, 2, 3, 3, 3, 3, 3, 1, 1, 1, 2, 2, 2].map (fun n => .step (.caller n)) ++
    [.pass 3, .spurious (.caller 2)] ++ [1, 1, 2].map fun n => .step (.caller n)

def edge : Machine Unit Unit Unit :=
  edgeActions.foldl perform (.empty { namePrefix := "cog", admits := fun _ => true } ())

def edgeMoves : List (Move Unit Unit Unit) :=
  (Machine.empty { namePrefix := "cog", admits := fun _ => true } ()).moves edgeActions

theorem timer_exact_edge :
    (Guard.Elapses Unit (lastInstant - 3) 4 ∧
      Outwaits (.empty { namePrefix := "cog", admits := fun _ => true } ()) edgeMoves edge (.caller 2)
        (.loose 1) (lastInstant - 3) 4) ∧
    edge.now = lastInstant ∧ (lastInstant - 3).exists? = true ∧
    (lastInstant - 3).after? 3 = some lastInstant ∧ (lastInstant - 3).after? 4 = none ∧
    ((edge.wait? (.caller 1)).bind (·.2.result?)).any (· matches .ok true) = true ∧
    (edge.wait? (.caller 2)).bind (·.2.point.timer?) = some none ∧
    edge.spot? (.caller 2) = some ⟨.loose 1, none, .asleep false⟩ ∧
    (edge.step (.caller 2)).isNone = true :=
  ⟨timer_exact (history_moves _ edgeActions) (by decide +kernel) _ _ _, by decide +kernel,
    by decide +kernel, by decide +kernel, by decide +kernel, by decide +kernel, by decide +kernel,
    by decide +kernel, by decide +kernel⟩

end ObjectGroups
