/-
The instant at which a sleeper asks a guard again.

A guard that is false names an instant, and whoever waits for it sleeps until
then at the latest. As long as the state and the futures stay as they are, a
guard of the library that will come true always names one that is still to
come, so nobody sleeps without a deadline. But the instant may be too late.
An `all` names the latest instant of its parts, also of a part that holds
already or fails: the `any` of a part that holds and of a timer is such a part,
and then the `all` comes true before the timer does. Unless an `any` with a
timer stands below an `all`, that cannot be.
-/
import ObjectGroups.Proofs.Timing

namespace ObjectGroups

variable {S : Type} {v v' : Sight} {s : S}

namespace Instant

theorem latest_mem {ds : List (Option Instant)} {e : Instant} (h : latest ds = some e) : some e ∈ ds := by
  induction ds generalizing e with
  | nil => cases h
  | cons d ds ih => cases d with
    | none => exact List.mem_cons_of_mem _ (ih h)
    | some d =>
      rw [latest] at h
      split at h
      · next e' he =>
        cases h
        rcases Int.le_total d e' with hle | hle
        · rw [Int.max_eq_right hle]
          exact List.mem_cons_of_mem _ (ih he)
        · rw [Int.max_eq_left hle]
          exact List.mem_cons_self
      · cases h
        exact List.mem_cons_self

theorem earliest_mem {ds : List (Option Instant)} {e : Instant} (h : earliest ds = some e) :
    some e ∈ ds := by
  induction ds generalizing e with
  | nil => cases h
  | cons d ds ih => cases d with
    | none => exact List.mem_cons_of_mem _ (ih h)
    | some d =>
      rw [earliest] at h
      split at h
      · next e' he =>
        cases h
        rcases Int.le_total d e' with hle | hle
        · rw [Int.min_eq_left hle]
          exact List.mem_cons_self
        · rw [Int.min_eq_right hle]
          exact List.mem_cons_of_mem _ (ih he)
      · cases h
        exact List.mem_cons_self

end Instant

namespace Guard

/-- `part` is the guard, or stands in it at some depth. -/
inductive Contains : Guard S → Guard S → Prop where
  | self (g : Guard S) : Contains g g
  | all {gs : List (Guard S)} {g part : Guard S} : g ∈ gs → Contains g part → Contains (.all gs) part
  | any {gs : List (Guard S)} {g part : Guard S} : g ∈ gs → Contains g part → Contains (.any gs) part

/-- An `all` in the guard has a part that names an instant after `t`, although it is not the part
for which the `all` has to wait: it holds already, or fails. -/
def Delayed (v : Sight) (s : S) (t : Instant) (g : Guard S) : Prop :=
  ∃ gs part e, g.Contains (.all gs) ∧ part ∈ gs ∧ part.poll v s ≠ .ok false ∧
    part.deadline v = .ok (some e) ∧ t < e

theorem Delayed.all {gs : List (Guard S)} {g : Guard S} {t : Instant} (hg : g ∈ gs)
    (h : g.Delayed v s t) : (Guard.all gs).Delayed v s t := by
  obtain ⟨hs, part, e, within, rest⟩ := h
  exact ⟨hs, part, e, .all hg within, rest⟩

theorem Delayed.any {gs : List (Guard S)} {g : Guard S} {t : Instant} (hg : g ∈ gs)
    (h : g.Delayed v s t) : (Guard.any gs).Delayed v s t := by
  obtain ⟨hs, part, e, within, rest⟩ := h
  exact ⟨hs, part, e, .any hg within, rest⟩

theorem pollAll_false {gs : List (Guard S)} (h : pollAll v s gs = .ok false) :
    ∃ g ∈ gs, g.poll v s = .ok false := by
  induction gs with
  | nil => cases h
  | cons g gs ih =>
    rw [pollAll] at h
    split at h
    · obtain ⟨g', hg', h'⟩ := ih h
      exact ⟨g', List.mem_cons_of_mem g hg', h'⟩
    · exact ⟨g, List.mem_cons_self, h⟩

/-- A guard of the library can be asked for its deadline at any time. -/
theorem deadline_total {g : Guard S} (h : g.library = true) (v : Sight) :
    ∃ d, g.deadline v = .ok d := by
  have lists {gs : List (Guard S)} (ih : ∀ g ∈ gs, ∃ d, g.deadline v = .ok d) :
      ∃ ds, deadlines v gs = .ok ds := by
    have same : ∀ g ∈ gs, ∃ d, g.deadline v = .ok d ∧ g.deadline v = .ok d := fun g hg => by
      simpa using ih g hg
    obtain ⟨ds, hds, -⟩ := deadlines_congr same
    exact ⟨ds, hds⟩
  induction g using induct with
  | all gs ih =>
    obtain ⟨ds, hds⟩ := lists fun g hg => ih g hg (allLibrary_iff.mp h g hg)
    exact ⟨_, by rw [deadline, hds]; rfl⟩
  | any gs ih =>
    obtain ⟨ds, hds⟩ := lists fun g hg => ih g hg (allLibrary_iff.mp h g hg)
    exact ⟨_, by rw [deadline, hds]; rfl⟩
  | user u => cases h
  | _ => exact ⟨_, rfl⟩

/-- The instant that a guard names is still to come. -/
theorem deadline_later {g : Guard S} (h : g.library = true) {d : Instant}
    (hd : g.deadline v = .ok (some d)) : v.now < d := by
  induction g using induct generalizing d with
  | timer e r =>
    rw [deadline] at hd
    split at hd
    · cases hd
    · next due =>
      cases hd
      simpa [Instant.due] using due
  | all gs ih =>
    obtain ⟨ds, hds, he⟩ := deadline_all hd
    obtain ⟨g, hg, hd⟩ := (deadlines_ok hds _).mp (Instant.latest_mem he.symm)
    exact ih g hg (allLibrary_iff.mp h g hg) hd
  | any gs ih =>
    obtain ⟨ds, hds, he⟩ := deadline_any hd
    obtain ⟨g, hg, hd⟩ := (deadlines_ok hds _).mp (Instant.earliest_mem he.symm)
    exact ih g hg (allLibrary_iff.mp h g hg) hd
  | user u => cases h
  | _ => cases hd

/-- A guard that comes true while the state and the futures stay as they are has named an instant,
and one that has passed by then unless an `all` in it has been delayed. -/
theorem deadline_or_delayed {g : Guard S} (h : g.library = true)
    (hr : ∀ f, v.resolved f = v'.resolved f) (hf : g.poll v s = .ok false) (ht : g.poll v' s = .ok true) :
    ∃ d, g.deadline v = .ok (some d) ∧ (d ≤ v'.now ∨ g.Delayed v s v'.now) := by
  induction g using induct with
  | always => cases hf
  | field name pred => cases hf.symm.trans ht
  | future f =>
    rw [poll, hr f] at hf
    cases hf.symm.trans ht
  | timer d r =>
    have before : Instant.due v.now d = false := by simpa [poll] using hf
    cases d with
    | none => cases ht
    | some d => exact ⟨d, by simp [deadline, before], .inl (by simpa [poll, Instant.due] using ht)⟩
  | all gs ih =>
    have library := allLibrary_iff.mp h
    have holds := pollAll_true.mp ht
    obtain ⟨ds, hds, hd⟩ : ∃ ds, deadlines v gs = .ok ds ∧
        (Guard.all gs).deadline v = .ok (Instant.latest ds) := by
      obtain ⟨d, hd⟩ := deadline_total h v
      obtain ⟨ds, hds, rfl⟩ := deadline_all hd
      exact ⟨ds, hds, hd⟩
    -- The part that is false names an instant, so there is a latest one.
    obtain ⟨e, he⟩ : ∃ e, Instant.latest ds = some e := by
      obtain ⟨g, hg, hp⟩ := pollAll_false hf
      obtain ⟨d, hd, -⟩ := ih g hg (library g hg) hp (holds g hg)
      exact Instant.latest_isSome ((deadlines_ok hds _).mpr ⟨g, hg, hd⟩)
    refine ⟨e, by rw [hd, he], ?_⟩
    by_cases passed : e ≤ v'.now
    · exact .inl passed
    · -- It is that of a part that is false, and delayed itself, or of one that is not.
      obtain ⟨g, hg, hge⟩ := (deadlines_ok hds _).mp (Instant.latest_mem he)
      refine .inr ?_
      by_cases waits : g.poll v s = .ok false
      · obtain ⟨d, hd, late⟩ := ih g hg (library g hg) waits (holds g hg)
        cases hge.symm.trans hd
        exact .all hg (late.resolve_left passed)
      · exact ⟨gs, g, e, .self _, hg, waits, hge, Int.not_le.mp passed⟩
  | any gs ih =>
    obtain ⟨g, hg, hp⟩ := pollAny_true ht
    obtain ⟨d, hd, late⟩ := ih g hg (allLibrary_iff.mp h g hg) (pollAny_false.mp hf g hg) hp
    obtain ⟨d', hd'⟩ := deadline_total h v
    obtain ⟨ds, hds, rfl⟩ := deadline_any hd'
    obtain ⟨e, he, hle⟩ := Instant.earliest_le ((deadlines_ok hds _).mpr ⟨g, hg, hd⟩)
    exact ⟨e, by rw [hd', he], late.imp (Int.le_trans hle) (.any hg)⟩
  | user u => cases h

end Guard

open Guard

/-- A guard of the library that is false now, and comes true while the state and the futures stay
as they are, has named an instant still to come. It has passed by then if no `any` with a timer stands
below an `all`. It can have been too late only since an `all` has counted a part that was not false. -/
theorem deadline_named {g : Guard S} (h : g.library = true) (hr : ∀ f, v.resolved f = v'.resolved f)
    (hf : g.poll v s = .ok false) (ht : g.poll v' s = .ok true) :
    ∃ d, g.deadline v = .ok (some d) ∧ v.now < d ∧ (g.punctual = true → d ≤ v'.now) ∧
      (v'.now < d → g.Delayed v s v'.now) := by
  obtain ⟨d, hd, late⟩ := deadline_or_delayed h hr hf ht
  refine ⟨d, hd, deadline_later h hd, fun punctual => ?_, fun after => ?_⟩
  · obtain ⟨e, he, passed⟩ := deadline_passed punctual (fun f _ => hr f) hf ht
    cases hd.symm.trans he
    exact passed
  · exact late.resolve_left (Int.not_le.mpr after)

/-- Its first part holds, and the second does from 5 on. -/
def overdue : Guard Unit := .all [.any [.always, .timer (some 10) 10], .timer (some 5) 5]

def sightAt (now : Instant) : Sight := { now, resolved := fun _ => false, turn := 0 }

/-- The guard holds from 5 on, and names 10. -/
theorem deadline_too_late : overdue.poll (sightAt 0) () = .ok false ∧ overdue.poll (sightAt 5) () = .ok true ∧
    overdue.deadline (sightAt 0) = .ok (some 10) := ⟨rfl, rfl, rfl⟩

theorem deadline_named_overdue : overdue.poll (sightAt 0) () = .ok false ∧
    overdue.poll (sightAt 5) () = .ok true ∧ ∃ d, overdue.deadline (sightAt 0) = .ok (some d) ∧
      5 < d ∧ overdue.Delayed (sightAt 0) () 5 := by
  have before : overdue.poll (sightAt 0) () = .ok false := rfl
  have after : overdue.poll (sightAt 5) () = .ok true := rfl
  have futures : ∀ f, (sightAt 0).resolved f = (sightAt 5).resolved f := fun f => rfl
  obtain ⟨d, hd, -, -, delayed⟩ := deadline_named rfl futures before after
  have ten : overdue.deadline (sightAt 0) = .ok (some 10) := rfl
  cases ten.symm.trans hd
  exact ⟨before, after, 10, rfl, by decide, delayed (by decide)⟩

end ObjectGroups
