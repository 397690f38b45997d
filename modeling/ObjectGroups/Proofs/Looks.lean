/-
Looking at a parker.

A park ends in one of three ways (`Parker.look_ended`), sends the thread to
sleep, or leaves it asleep. What is known of an interrupt or of a permit follows
from these, and no later proof opens the turn again.
-/
import ObjectGroups.Parker

namespace ObjectGroups

namespace Parker

variable {x x' : Parker} {now : Instant} {deadline : Option Instant} {sleep : Sleep}
  {r : Except GuardError Unit} {e : GuardError}

theorem look_check (hs : sleep ≠ .asleep false) : x.look now deadline sleep = some x.check := by
  cases sleep with
  | awake => rfl
  | asleep notified => cases notified with
    | true => rfl
    | false => exact absurd rfl hs

theorem look_none (h : x.look now deadline sleep = none) :
    sleep = .asleep false ∧ Instant.due now deadline = false := by
  by_cases hs : sleep = .asleep false
  · subst hs
    simpa [look] using h
  · rw [look_check hs] at h
    cases h

/-- A thread goes to sleep only when it has found neither an interrupt nor a permit. -/
theorem bare_of_sleeps (h : x.look now deadline sleep = some .sleeps) :
    x.interrupted = false ∧ x.permit = false := by
  by_cases hs : sleep = .asleep false
  · subst hs
    simp only [look] at h
    split at h <;> cases h
  · rw [look_check hs, Option.some.injEq] at h
    unfold check at h
    split at h
    · cases h
    · next flag =>
      split at h
      · cases h
      · next permit => exact ⟨by simpa using flag, by simpa using permit⟩

/-- A park ends since the deadline has passed while the thread slept, or since it has looked at the
parker and found an interrupt, or else a permit. -/
theorem look_ended (h : x.look now deadline sleep = some (.ended (r, x'))) :
    (sleep = .asleep false ∧ Instant.due now deadline = true ∧ x' = x ∧ r = x.timeout) ∨
      (sleep ≠ .asleep false ∧ x.interrupted = true ∧ x' = x ∧ r = .error .interrupted) ∨
      (sleep ≠ .asleep false ∧ x.interrupted = false ∧ x.permit = true ∧
        x' = { x with permit := false } ∧ r = .ok ()) := by
  by_cases hs : sleep = .asleep false
  · subst hs
    simp only [look] at h
    split at h
    · next due =>
      cases h
      exact .inl ⟨rfl, due, rfl, rfl⟩
    · cases h
  · rw [look_check hs, Option.some.injEq] at h
    unfold check at h
    split at h
    · next flag =>
      cases h
      exact .inr (.inl ⟨hs, flag, rfl, rfl⟩)
    · next flag =>
      split at h <;> cases h
      next permit => exact .inr (.inr ⟨hs, by simpa using flag, permit, rfl, rfl⟩)

/-- What a park ends with depends on the interrupt alone, which it leaves as it is. -/
theorem look_result (h : x.look now deadline sleep = some (.ended (r, x'))) :
    x'.interrupted = x.interrupted ∧ r = x.timeout := by
  rcases look_ended h with ⟨-, -, rfl, hr⟩ | ⟨-, flag, rfl, hr⟩ | ⟨-, flag, -, rfl, hr⟩
  · exact ⟨rfl, hr⟩
  · exact ⟨rfl, by simp [timeout, flag, hr]⟩
  · exact ⟨rfl, by simp [timeout, flag, hr]⟩

theorem flag_look (h : x.look now deadline sleep = some (.ended (r, x'))) :
    x'.interrupted = x.interrupted :=
  (look_result h).1

/-- A park that nobody has interrupted ends without an error. -/
theorem look_ok (hx : x.interrupted = false) (h : x.look now deadline sleep = some (.ended (r, x'))) :
    r = .ok () := by
  rw [(look_result h).2, timeout, hx]
  rfl

/-- A park on an interrupted context ends with an error. -/
theorem look_interrupted (hx : x.interrupted = true)
    (h : x.look now deadline sleep = some (.ended (r, x'))) : r = .error .interrupted := by
  rw [(look_result h).2, timeout, hx]
  rfl

/-- Only an interrupt ends a park with an error. -/
theorem look_error (h : x.look now deadline sleep = some (.ended (.error e, x'))) :
    e = .interrupted ∧ x.interrupted = true := by
  cases flag : x.interrupted with
  | true =>
    cases look_interrupted flag h
    exact ⟨rfl, rfl⟩
  | false => cases look_ok flag h

/-- An interrupt comes before a permit. -/
theorem check_used (hx : x ≠ {}) : ∃ x', x.check =
    .ended (if x.interrupted then .error .interrupted else .ok (), x') := by
  obtain ⟨permit, interrupted⟩ := x
  cases interrupted with
  | true => exact ⟨_, rfl⟩
  | false => cases permit with
    | true => exact ⟨_, rfl⟩
    | false => exact absurd rfl hx

end Parker

end ObjectGroups
