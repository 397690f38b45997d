/-
Guards that say of themselves that they stay true.

A guard of the library says so just if no part of it looks at the state of the
cog, at whatever depth. What is left to look at are the clock, which does not
go back, and futures, which stay resolved, and nothing negates what they show.
So the guard can fail at no time, and once it holds it holds for good.

This is so as well if the clock goes on while the guard is asked. Such an
answer lies between two polls, one from when the question began and one from
when it ended (`Asked.of_poll`, `Asked.poll_end`); each of them is one look at
everything, and about those more is known.
-/
import ObjectGroups.Proofs.Readiness
import ObjectGroups.Proofs.Readings

namespace ObjectGroups

variable {S : Type} {g : Guard S} {v v' : Sight} {s s' : S} {resolved resolved' : FutureId → Bool}
  {t t' u u' : Instant} {answer : Answer}

namespace Guard

/-! ## What the guard says -/

theorem anyLooks_eq_true {gs : List (Guard S)} : anyLooks gs = true ↔ ∃ g ∈ gs, g.looks = true := by
  rw [← Bool.not_eq_false, anyLooks_iff]
  simp

/-- What looks at the state does so wherever it stands. -/
theorem Contains.looks {part : Guard S} (h : g.Contains part) (hp : part.looks = true) : g.looks = true := by
  induction h with
  | self => exact hp
  | all hg _ ih => exact anyLooks_eq_true.mpr ⟨_, hg, ih hp⟩
  | any hg _ ih => exact anyLooks_eq_true.mpr ⟨_, hg, ih hp⟩

/-- Somewhere in a guard that looks at the state there is a condition on the state. -/
theorem contains_field (h : g.looks = true) : ∃ name pred, g.Contains (.field name pred) := by
  induction g using induct with
  | field name pred => exact ⟨name, pred, .self _⟩
  | all gs ih =>
    obtain ⟨g, hg, looks⟩ := anyLooks_eq_true.mp h
    obtain ⟨name, pred, within⟩ := ih g hg looks
    exact ⟨name, pred, .all hg within⟩
  | any gs ih =>
    obtain ⟨g, hg, looks⟩ := anyLooks_eq_true.mp h
    obtain ⟨name, pred, within⟩ := ih g hg looks
    exact ⟨name, pred, .any hg within⟩
  | _ => cases h

theorem looks_eq_false : g.looks = false ↔ ∀ name pred, ¬ g.Contains (.field name pred) := by
  constructor
  · intro h name pred within
    cases h.symm.trans (within.looks rfl)
  · intro nowhere
    by_contra h
    obtain ⟨name, pred, within⟩ := contains_field (Bool.not_eq_false _ ▸ h)
    exact nowhere name pred within

theorem stays_iff (library : g.library = true) (v : Sight) :
    g.stays v = .ok true ↔ ∀ name pred, ¬ g.Contains (.field name pred) := by
  rw [stays_eq library, ← looks_eq_false]
  simp

/-! ## The clock goes on -/

theorem firm_tail_all {gs : List (Guard S)} (h : (Guard.all (g :: gs)).firm = true) :
    (Guard.all gs).firm = true := by
  obtain ⟨library, looks⟩ := firm_iff.mp h
  simp only [Guard.library, allLibrary, Bool.and_eq_true] at library
  simp only [Guard.looks, anyLooks, Bool.or_eq_false_iff] at looks
  exact firm_iff.mpr ⟨library.2, looks.2⟩

theorem firm_tail_any {gs : List (Guard S)} (h : (Guard.any (g :: gs)).firm = true) :
    (Guard.any gs).firm = true := firm_tail_all h

theorem Asked.answers (h : g.Asked resolved s t answer u) (hg : g.firm = true) : ∃ b, answer = .ok b := by
  induction h with
  | field => cases hg
  | allNext _ _ _ ih => exact ih (firm_tail_all hg)
  | allStop _ _ _ ih => exact ih (firm_all hg _ List.mem_cons_self)
  | anyNext _ _ _ ih => exact ih (firm_tail_any hg)
  | anyStop _ _ _ ih => exact ih (firm_any hg _ List.mem_cons_self)
  | _ => exact ⟨_, rfl⟩

/-- What can be seen at `t` if these futures are resolved. -/
def sightAt (resolved : FutureId → Bool) (t : Instant) : Sight := { now := t, resolved, turn := 0 }

theorem sightAt_later (h : t ≤ u) : (sightAt resolved t).Later (sightAt resolved u) := ⟨h, fun _ => id⟩

/-- What holds as the question begins is found to hold. -/
theorem Asked.of_poll (h : g.Asked resolved s t answer u) (hg : g.firm = true)
    (ht : g.poll (sightAt resolved t) s = .ok true) : answer = .ok true := by
  induction h with
  | always | allNil => rfl
  | field => cases hg
  | future => exact ht
  | never => cases ht
  | @timer d r t u hle =>
    have passed : d ≤ t := of_decide_eq_true (Exit.ok.inj ht)
    simpa using Int.le_trans passed hle
  | allNext first _ _ ih =>
    have rest := firm_tail_all hg
    have tail : (Guard.all _).poll (sightAt resolved _) s = .ok true :=
      pollAll_true.mpr fun g hm => pollAll_true.mp ht g (List.mem_cons_of_mem _ hm)
    exact ih rest (poll_later rest (sightAt_later first.le) tail)
  | allStop gs _ _ ih =>
    exact ih (firm_all hg _ List.mem_cons_self) (pollAll_true.mp ht _ List.mem_cons_self)
  | anyNil => cases ht
  | anyNext first _ ih ih' =>
    have rest := firm_tail_any hg
    obtain ⟨part, hm, hp⟩ := pollAny_true ht
    rcases List.mem_cons.mp hm with rfl | hm
    · cases ih (firm_any hg _ List.mem_cons_self) hp
    · have tail : (Guard.any _).poll (sightAt resolved _) s = .ok true :=
        pollAny_of_true (fun g hg => poll_firm (firm_any rest g hg)) hm hp
      exact ih' rest (poll_later rest (sightAt_later first.le) tail)
  | anyStop gs first stops ih =>
    -- Parts that were not asked may hold, but the answer is not that nothing does.
    obtain ⟨b, rfl⟩ := first.answers (firm_any hg _ List.mem_cons_self)
    cases b with
    | true => rfl
    | false => exact absurd rfl stops

/-- What is found to hold does so as the question ends. -/
theorem Asked.poll_end (h : g.Asked resolved s t answer u) (hg : g.firm = true) (ha : answer = .ok true) :
    g.poll (sightAt resolved u) s = .ok true := by
  induction h with
  | always | allNil => rfl
  | field => cases hg
  | future | timer => exact ha
  | never | anyNil => cases ha
  | allNext first rest ih ih' =>
    refine pollAll_true.mpr (List.forall_mem_cons.mpr ⟨?_, ?_⟩)
    · have part := firm_all hg _ List.mem_cons_self
      exact poll_later part (sightAt_later rest.le) (ih part rfl)
    · exact pollAll_true.mp (ih' (firm_tail_all hg) ha)
  | allStop gs _ stops => exact absurd ha stops
  | anyNext _ _ _ ih =>
    obtain ⟨part, hm, hp⟩ := pollAny_true (ih (firm_tail_any hg) ha)
    exact pollAny_of_true (fun g hm => poll_firm (firm_any hg g hm)) (List.mem_cons_of_mem _ hm) hp
  | anyStop gs _ _ ih =>
    exact pollAny_of_true (fun g hm => poll_firm (firm_any hg g hm)) List.mem_cons_self
      (ih (firm_any hg _ List.mem_cons_self) ha)

/-- An answer that was true is true whenever the guard is asked again. -/
theorem Asked.again (hg : g.firm = true) (h : g.Asked resolved s t (.ok true) u)
    (h' : g.Asked resolved' s' t' answer u') (later : ∀ f, resolved f = true → resolved' f = true)
    (hle : u ≤ t') : answer = .ok true :=
  h'.of_poll hg (poll_later hg ⟨hle, later⟩ (h.poll_end hg rfl))

/-! ## What can be relied on -/

/-- The guard cannot fail, and once it holds it does so from then on. -/
structure Stable (g : Guard S) : Prop where
  answers (v : Sight) (s : S) : ∃ b, g.poll v s = .ok b
  lasts {v : Sight} {s : S} : g.poll v s = .ok true → g.Lasting v
  /-- No run takes back what a poll in it has found. -/
  runs {A V : Type} {r : Registry} {memory : A} {m n : Machine S A V} {s s' : S} :
    Machine.Reachable (.empty r memory) m → Machine.Reachable m n → g.poll m.sight s = .ok true →
      g.poll n.sight s' = .ok true
  /-- The clock may go on while the guard is asked. -/
  asked {resolved resolved' : FutureId → Bool} {s s' : S} {t t' u u' : Instant} {answer : Answer} :
    g.Asked resolved s t (.ok true) u → g.Asked resolved' s' t' answer u' →
      (∀ f, resolved f = true → resolved' f = true) → u ≤ t' → answer = .ok true

theorem stable_of_firm (h : g.firm = true) : g.Stable where
  answers _ _ := poll_firm h
  lasts ht _ hv _ := poll_later h hv ht
  runs hm hn ht := poll_later h (hm.sight_later hn) ht
  asked first second later hle := first.again h second later hle

end Guard

/-- A guard of the library says that it stays true just if no part of it looks at the state of the
cog; and then it cannot fail, and once it holds it does so from then on, in whatever state. -/
theorem stays_once_true (library : g.library = true) (v : Sight) :
    (g.stays v = .ok true ↔ ∀ name pred, ¬ g.Contains (.field name pred)) ∧
      (g.stays v = .ok true → g.Stable) := by
  refine ⟨Guard.stays_iff library v, fun stays => Guard.stable_of_firm (Guard.firm_iff.mpr ⟨library, ?_⟩)⟩
  rw [Guard.stays_eq library] at stays
  simpa using stays

/-- A timer, and beside it a future, or no parts of which one is to hold, or no parts that all hold. -/
def Guard.mixed : Guard Bool := .all [.timer (some 5) 5, .any [.future ⟨1⟩, .any [], .all []]]

theorem stays_once_true_mixed : Guard.mixed.library = true ∧
    Guard.mixed.stays (Guard.sightAt (fun _ => false) 4) = .ok true ∧
    (∀ s, Guard.mixed.poll (Guard.sightAt (fun _ => false) 4) s = .ok false) ∧
    Guard.mixed.poll (Guard.sightAt (fun _ => false) 5) true = .ok true ∧
    Guard.mixed.poll (Guard.sightAt (fun f => f = ⟨1⟩) 9) false = .ok true := by
  have stable := (stays_once_true (g := Guard.mixed) rfl (Guard.sightAt (fun _ => false) 4)).2 rfl
  have later : (Guard.sightAt (fun _ => false) 5).Later (Guard.sightAt (fun f => f = ⟨1⟩) 9) :=
    ⟨by decide, by simp [Guard.sightAt]⟩
  have holds : Guard.mixed.poll (Guard.sightAt (fun _ => false) 5) true = .ok true := rfl
  exact ⟨rfl, rfl, fun s => rfl, holds, stable.lasts holds _ later false⟩

end ObjectGroups
