/-
A machine at rest: every thread is blocked, or in code of its user.

Who holds the lock of a scheduler or has a wake-up to send can go on, so at
rest all locks are free and nobody is about to wake anybody. A slot that is
free is on its way to nobody.
-/
import ObjectGroups.Proofs.Bystander

namespace ObjectGroups

variable {S A V : Type} {m m' : Machine S A V} {a b : Agent} {g : CogId} {c : ContextId}
  {own : Option CogId} {s : Stance} {x : Cog S A V} {aw : Awaiting S A V} {phase : Phase S}
  {t : Thread S A V}

namespace Machine

/-- The thread is blocked, or in code of its user between two calls. -/
def AtRest (m : Machine S A V) (a : Agent) : Prop :=
  m.step a = none ∨ ∃ t seat b, m.threads.get? a = some t ∧ t.control = .run seat b

/-- Every thread is at rest. -/
def Still (m : Machine S A V) : Prop := ∀ a, m.AtRest a

/-- Whether the thread is at rest. -/
def rests (m : Machine S A V) (a : Agent) : Bool :=
  (m.step a).isNone || (m.threads.get? a).any fun t => match t.control with
    | .run _ _ => true
    | _ => false

theorem atRest_iff : m.AtRest a ↔ m.rests a = true := by
  unfold AtRest rests
  cases ht : m.threads.get? a with
  | none => simp [step, ht]
  | some t => cases hk : t.control <;> simp [hk]

instance : Decidable (m.AtRest a) := decidable_of_iff _ atRest_iff.symm

theorem still_iff : m.Still ↔ ∀ e ∈ m.threads, m.AtRest e.1 := by
  refine ⟨fun h e _ => h e.1, fun h a => ?_⟩
  cases ht : m.threads.get? a with
  | none => exact .inl (by simp [step, ht])
  | some t => exact h (a, t) (Table.mem_of_get? ht)

instance : Decidable m.Still := decidable_of_iff _ still_iff.symm

theorem AtRest.blocked (h : m.AtRest a) (ht : m.threads.get? a = some t)
    (hk : ∀ seat b, t.control ≠ .run seat b) : m.step a = none := by
  rcases h with blocked | ⟨t', seat, b, ht', hk'⟩
  · exact blocked
  · cases ht.symm.trans ht'
    exact absurd hk' (hk seat b)

/-- A thread that is in an await is blocked. -/
theorem AtRest.blocked_await (h : m.AtRest a) (ht : m.threads.get? a = some t)
    (hk : t.control.await? = some aw) : m.step a = none := by
  refine h.blocked ht fun seat b e => ?_
  rw [e] at hk
  cases hk

/-- Who holds a lock can go on. -/
theorem Ordered.step_of_locks (ho : m.Ordered) (hl : m.look a = some (own, s))
    (hs : s.lock own = some g) : m.step a ≠ none := by
  obtain ⟨t, ht, hg, rfl⟩ := look_eq_some m _ hl
  intro blocked
  cases hk : t.control with
  | notify i n after => simp [step, ht, hk] at blocked
  | starting stage e => simp [step, ht, hk] at blocked
  | awaiting aw phase =>
    rw [hk] at hs
    obtain rfl : own = some g := by
      cases phase <;> first | exact hs | cases hs
    obtain ⟨⟨c, rfl⟩, x, hx⟩ := ho.home hl
    rw [step_awaiting ht hg hk hx] at blocked
    cases phase <;> first | cases blocked | cases hs
  | _ =>
    rw [hk] at hs
    cases hs

namespace Still

variable (h : m.Still) (ho : m.Ordered)
include h ho

theorem lock_none (hx : m.cogs.get? g = some x) : x.lock = none := by
  cases hlock : x.lock with
  | none => rfl
  | some a =>
    obtain ⟨own, s, hl, hs⟩ := ho.locker hx hlock
    obtain ⟨t, ht, -, rfl⟩ := look_eq_some m _ hl
    refine absurd ((h a).blocked ht fun seat b e => ?_) (ho.step_of_locks hl hs)
    rw [e] at hs
    cases hs

/-- Nobody has a signal to send. -/
theorem signals_nil (a : Agent) : m.signals a = [] := by
  cases ht : m.threads.get? a with
  | none => simp [signals, ht]
  | some t =>
    rw [signals_eq ht]
    cases hk : t.control with
    | signal seat signals next =>
      have blocked := (h a).blocked ht (by simp [hk])
      cases signals with
      | nil => rfl
      | cons s rest =>
        simp only [step, ht, hk, stepSignal] at blocked
        cases s with
        | interrupt p => cases blocked
        | wake w => cases w with
          | parker p => cases blocked
          | counter n => cases blocked
          | scheduler g =>
            dsimp only at blocked
            split at blocked
            · cases blocked
            · next hosted =>
              cases hx : m.cogs.get? g with
              | none => simp [cogExists, hx] at hosted
              | some x => simp [unlocked, hx, h.lock_none ho hx] at blocked
    | _ => rfl

theorem not_ringing (w : Waker) : ¬ m.Ringing w := by
  rintro ⟨a, ha⟩
  rw [h.signals_nil ho] at ha
  cases ha

theorem not_busy (hx : m.cogs.get? g = some x) (free : x.scheduler.active = none) :
    ¬ m.Busy g := by
  rintro (⟨y, hy, active⟩ | ⟨a, stage, k, hl⟩)
  · cases hx.symm.trans hy
    exact active free
  · obtain ⟨y, hy, lock, -⟩ := ho.locks hl rfl
    rw [h.lock_none ho hy] at lock
    cases lock

/-- At rest a thread is in a body, where it may be about to submit to a cog that is not
there, or in an await without the lock. -/
theorem resting (hl : m.look a = some (own, s)) : (∃ seat, s = .body seat) ∨
    (∃ seat i view, s = .enrol seat i view ∧ m.cogs.get? i = none) ∨ ∃ k, s = .wait k := by
  obtain ⟨t, ht, hg, rfl⟩ := look_eq_some m a hl
  have blocked (hk : ∀ seat b, t.control ≠ .run seat b) : m.step a = none := (h a).blocked ht hk
  -- A thread that works for a cog finds the lock free.
  have works (hosts : t.control.stance.hosts = true) : ∃ c g x, a = .context c ∧ t.cog = some g ∧
      m.cogs.get? g = some x ∧ x.lock = none := by
    obtain ⟨g, c, x, rfl, rfl, hx⟩ := ho.home_of_hosts hl hosts
    exact ⟨c, g, x, rfl, hg, hx, h.lock_none ho hx⟩
  cases hk : t.control with
  | enrol seat i view =>
    refine .inr (.inl ⟨seat, i, view, rfl, ?_⟩)
    have stuck := blocked (by simp [hk])
    cases hx : m.cogs.get? i with
    | none => rfl
    | some x =>
      have free := h.lock_none ho hx
      simp only [step, ht, hk, stepEnrol, hx, free] at stuck
      split at stuck
      · contradiction
      · split at stuck <;> cases stuck
  | awaiting aw phase =>
    cases phase with
    | release =>
      obtain ⟨c, g, x, rfl, hg, hx, free⟩ := works (by rw [hk]; rfl)
      have stuck := blocked (by simp [hk])
      rw [step_awaiting ht hg hk hx] at stuck
      simp only [stepAwait, free] at stuck
      split at stuck
      · contradiction
      · split at stuck <;> cases stuck
    | subscribe | contend | doze =>
      obtain ⟨c, g, x, rfl, hg, hx, free⟩ := works (by rw [hk]; rfl)
      have stuck := blocked (by simp [hk])
      rw [step_awaiting ht hg hk hx] at stuck
      cases stuck
    | _ => exact .inr (.inr ⟨aw.task, rfl⟩)
  | claim =>
    obtain ⟨c, g, x, rfl, hg, hx, free⟩ := works (by rw [hk]; rfl)
    have stuck := blocked (by simp [hk])
    simp only [step, ht, hk, hg, Option.bind_some, hx, Option.map_some, stepClaim, free] at stuck
    split at stuck
    · contradiction
    · split at stuck <;> cases stuck
  | complete k outcome =>
    obtain ⟨c, g, x, rfl, hg, hx, free⟩ := works (by rw [hk]; rfl)
    have stuck := blocked (by simp [hk])
    simp [step, ht, hk, hg, hx, stepComplete, free] at stuck
  | strand k =>
    obtain ⟨c, g, x, rfl, hg, hx, free⟩ := works (by rw [hk]; rfl)
    have stuck := blocked (by simp [hk])
    simp only [step, ht, hk, hg, Option.bind_some, hx, Option.map_some, stepStrand, free] at stuck
    split at stuck
    · contradiction
    · split at stuck <;> cases stuck
  | leave =>
    have stuck := blocked (by simp [hk])
    cases a <;> simp [step, ht, hk] at stuck
  | notify i n after =>
    have stuck := blocked (by simp [hk])
    simp [step, ht, hk] at stuck
  | starting stage e =>
    have stuck := blocked (by simp [hk])
    simp [step, ht, hk] at stuck
  | _ => exact .inl ⟨_, rfl⟩

/-- Who is in an await sleeps outside the lock in its wait, or in the scheduler. -/
theorem asleep (ht : m.threads.get? (.context c) = some t) (hg : t.cog = some g)
    (hx : m.cogs.get? g = some x) (hk : t.control.await? = some aw) :
    (∃ w, t.control = .awaiting aw (.wait w) ∧ w.result? = none ∧
      w.step m.sight x.state (m.parker (.own c)) = none) ∨
    ∃ failure deadline, t.control = .awaiting aw (.asleep failure deadline false) ∧
      Instant.due m.now deadline = false := by
  have blocked := (h _).blocked_await ht hk
  have lock := h.lock_none ho hx
  cases hc : t.control with
  | notify i n after => simp [step, ht, hc] at blocked
  | starting stage e => simp [step, ht, hc] at blocked
  | awaiting aw' phase =>
    rw [hc] at hk
    cases hk
    rw [step_awaiting ht hg hc hx] at blocked
    cases phase with
    | wait w =>
      refine .inl ⟨w, rfl, ?_⟩
      simp only [stepAwait, stepWait] at blocked
      split at blocked
      · cases blocked
      · next hr =>
        split at blocked
        · next hs => exact ⟨hr, hs⟩
        · cases blocked
    | asleep failure deadline notified =>
      cases notified with
      | true => simp [stepAwait, lock] at blocked
      | false => exact .inr ⟨failure, deadline, rfl, by simpa [stepAwait, lock] using blocked⟩
    | release =>
      simp only [stepAwait, lock] at blocked
      split at blocked
      · contradiction
      · split at blocked <;> cases blocked
    | ready => simp [stepAwait, lock] at blocked
    | reenter failure => simp [stepAwait, lock] at blocked
    | abort => simp [stepAwait, lock] at blocked
    | _ => cases blocked
  | _ =>
    rw [hc] at hk
    cases hk

end Still

end Machine

end ObjectGroups
