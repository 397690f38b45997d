/-
A guard whose timers look at the clock one after another.

While a guard is asked, or asked for its deadline, the clock goes on, and each
timer in it looks for itself: what one of them has seen may be over by the time
the next one looks. `Asked` and `Aimed` are the two questions with a look of its
own for every timer. If the clock stands still they are `poll` and `deadline`.

A timer that has run out names no deadline. So a guard that was false and then
names none either waits for no timer at all, or for one that has run out since
it was asked: the guard may hold by now, and no instant is left to wait for.
-/
import ObjectGroups.Proofs.Deadlines

namespace ObjectGroups

variable {S : Type} {v v' : Sight} {s : S} {resolved : FutureId → Bool} {g : Guard S}
  {t u w : Instant} {answer : Answer}

theorem Instant.latest_cons (d : Option Instant) (ds : List (Option Instant)) :
    latest (d :: ds) = latest [d, latest ds] := by
  cases d with
  | none => cases h : latest ds <;> simp [latest, h]
  | some d => cases h : latest ds <;> simp [latest, h]

theorem Instant.earliest_cons (d : Option Instant) (ds : List (Option Instant)) :
    earliest (d :: ds) = earliest [d, earliest ds] := by
  cases d with
  | none => cases h : earliest ds <;> simp [earliest, h]
  | some d => cases h : earliest ds <;> simp [earliest, h]

namespace Guard

/-- Asked from `t` on, the guard gives its answer, with the last look at the clock at `u`. -/
inductive Asked (resolved : FutureId → Bool) (s : S) :
    Guard S → Instant → Answer → Instant → Prop where
  | always (t : Instant) : Asked resolved s .always t (.ok true) t
  | field (name : String) (pred : S → Answer) (t : Instant) :
      Asked resolved s (.field name pred) t (pred s) t
  | future (f : FutureId) (t : Instant) : Asked resolved s (.future f) t (.ok (resolved f)) t
  | never (r : Span) (t : Instant) : Asked resolved s (.timer none r) t (.ok false) t
  | timer (d : Instant) (r : Span) {t u : Instant} : t ≤ u →
      Asked resolved s (.timer (some d) r) t (.ok (decide (d ≤ u))) u
  | allNil (t : Instant) : Asked resolved s (.all []) t (.ok true) t
  | allNext {g : Guard S} {gs : List (Guard S)} {t u w : Instant} {answer : Answer} :
      Asked resolved s g t (.ok true) u → Asked resolved s (.all gs) u answer w →
      Asked resolved s (.all (g :: gs)) t answer w
  | allStop {g : Guard S} (gs : List (Guard S)) {t u : Instant} {answer : Answer} :
      Asked resolved s g t answer u → answer ≠ .ok true →
      Asked resolved s (.all (g :: gs)) t answer u
  | anyNil (t : Instant) : Asked resolved s (.any []) t (.ok false) t
  | anyNext {g : Guard S} {gs : List (Guard S)} {t u w : Instant} {answer : Answer} :
      Asked resolved s g t (.ok false) u → Asked resolved s (.any gs) u answer w →
      Asked resolved s (.any (g :: gs)) t answer w
  | anyStop {g : Guard S} (gs : List (Guard S)) {t u : Instant} {answer : Answer} :
      Asked resolved s g t answer u → answer ≠ .ok false →
      Asked resolved s (.any (g :: gs)) t answer u

/-- Asked for its deadline from `t` on, the guard names one or none, with the last look at the
clock at `u`. -/
inductive Aimed : Guard S → Instant → Option Instant → Instant → Prop where
  | always (t : Instant) : Aimed .always t none t
  | field (name : String) (pred : S → Answer) (t : Instant) : Aimed (.field name pred) t none t
  | future (f : FutureId) (t : Instant) : Aimed (.future f) t none t
  | never (r : Span) (t : Instant) : Aimed (.timer none r) t none t
  | timer (d : Instant) (r : Span) {t u : Instant} : t ≤ u →
      Aimed (.timer (some d) r) t (if d ≤ u then none else some d) u
  | allNil (t : Instant) : Aimed (.all []) t none t
  | allNext {g : Guard S} {gs : List (Guard S)} {t u w : Instant} {d e : Option Instant} :
      Aimed g t d u → Aimed (.all gs) u e w → Aimed (.all (g :: gs)) t (Instant.latest [d, e]) w
  | anyNil (t : Instant) : Aimed (.any []) t none t
  | anyNext {g : Guard S} {gs : List (Guard S)} {t u w : Instant} {d e : Option Instant} :
      Aimed g t d u → Aimed (.any gs) u e w → Aimed (.any (g :: gs)) t (Instant.earliest [d, e]) w

/-- A timer in the guard runs out after `t`, at `u` at the latest. -/
def Expires (g : Guard S) (t u : Instant) : Prop :=
  ∃ d r, g.Contains (.timer (some d) r) ∧ t < d ∧ d ≤ u

/-- What is true of a guard that was false when it was asked at `t`, and names no deadline at `u`. -/
structure Unheeded (g : Guard S) (resolved : FutureId → Bool) (s : S) (t u : Instant) : Prop where
  /-- The clock alone does not change it any more. -/
  settled {v v' : Sight} : (∀ f, v.resolved f = resolved f) → (∀ f, v'.resolved f = resolved f) →
    u ≤ v.now → u ≤ v'.now → g.poll v s = g.poll v' s
  /-- If it is not false any more, then for a timer that has run out in between. -/
  expired {v : Sight} : (∀ f, v.resolved f = resolved f) → u ≤ v.now → g.poll v s ≠ .ok false →
    g.Expires t u

/-! ## The clock stands still -/

theorem asked_pollAll {gs : List (Guard S)}
    (h : ∀ g ∈ gs, g.Asked v.resolved s v.now (g.poll v s) v.now) :
    (Guard.all gs).Asked v.resolved s v.now (pollAll v s gs) v.now := by
  induction gs with
  | nil => exact .allNil _
  | cons g gs ih =>
    obtain ⟨first, rest⟩ := List.forall_mem_cons.mp h
    rw [pollAll]
    split
    · next holds => exact .allNext (holds ▸ first) (ih rest)
    · next stops => exact .allStop gs first stops

theorem asked_pollAny {gs : List (Guard S)}
    (h : ∀ g ∈ gs, g.Asked v.resolved s v.now (g.poll v s) v.now) :
    (Guard.any gs).Asked v.resolved s v.now (pollAny v s gs) v.now := by
  induction gs with
  | nil => exact .anyNil _
  | cons g gs ih =>
    obtain ⟨first, rest⟩ := List.forall_mem_cons.mp h
    rw [pollAny]
    split
    · next fails => exact .anyNext (fails ▸ first) (ih rest)
    · next stops => exact .anyStop gs first stops

/-- A poll is the guard asked while the clock stands still. -/
theorem asked_poll (h : g.library = true) : g.Asked v.resolved s v.now (g.poll v s) v.now := by
  induction g using induct with
  | always => exact .always _
  | field name pred => exact .field ..
  | future f => exact .future ..
  | timer d r => cases d with
    | none => exact .never ..
    | some d => exact .timer d r (Int.le_refl _)
  | all gs ih => exact asked_pollAll fun g hg => ih g hg (allLibrary_iff.mp h g hg)
  | any gs ih => exact asked_pollAny fun g hg => ih g hg (allLibrary_iff.mp h g hg)
  | user u => cases h

theorem aimed_deadlines {gs : List (Guard S)} {ds : List (Option Instant)}
    (h : ∀ g ∈ gs, ∀ d, g.deadline v = .ok d → g.Aimed v.now d v.now) (hds : deadlines v gs = .ok ds) :
    (Guard.all gs).Aimed v.now (Instant.latest ds) v.now ∧
      (Guard.any gs).Aimed v.now (Instant.earliest ds) v.now := by
  induction gs generalizing ds with
  | nil =>
    cases hds
    exact ⟨.allNil _, .anyNil _⟩
  | cons g gs ih =>
    obtain ⟨first, rest⟩ := List.forall_mem_cons.mp h
    rw [deadlines] at hds
    obtain ⟨d, hd, hds⟩ := bind_ok_iff.mp hds
    obtain ⟨ds', hds', he⟩ := bind_ok_iff.mp hds
    cases he
    obtain ⟨all, any⟩ := ih rest hds'
    rw [Instant.latest_cons, Instant.earliest_cons]
    exact ⟨.allNext (first d hd) all, .anyNext (first d hd) any⟩

/-- A deadline is what the guard names while the clock stands still. -/
theorem aimed_deadline (h : g.library = true) {d : Option Instant} (hd : g.deadline v = .ok d) :
    g.Aimed v.now d v.now := by
  induction g using induct generalizing d with
  | timer e r => cases e with
    | none =>
      cases hd
      exact .never ..
    | some e =>
      have named : (if e ≤ v.now then none else some e) = d := by
        simpa [deadline, Instant.due] using hd
      exact named ▸ .timer e r (Int.le_refl _)
  | all gs ih =>
    obtain ⟨ds, hds, rfl⟩ := deadline_all hd
    exact (aimed_deadlines (fun g hg d => ih g hg (allLibrary_iff.mp h g hg)) hds).1
  | any gs ih =>
    obtain ⟨ds, hds, rfl⟩ := deadline_any hd
    exact (aimed_deadlines (fun g hg d => ih g hg (allLibrary_iff.mp h g hg)) hds).2
  | user u => cases h
  | _ =>
    cases hd
    constructor

/-! ## The clock goes on -/

theorem Asked.le (h : g.Asked resolved s t answer u) : t ≤ u := by
  induction h with
  | timer d r h => exact h
  | allNext _ _ ih ih' => exact Int.le_trans ih ih'
  | allStop _ _ _ ih => exact ih
  | anyNext _ _ ih ih' => exact Int.le_trans ih ih'
  | anyStop _ _ _ ih => exact ih
  | _ => exact Int.le_refl _

theorem Aimed.le {d : Option Instant} (h : g.Aimed t d u) : t ≤ u := by
  induction h with
  | timer d r h => exact h
  | allNext _ _ ih ih' => exact Int.le_trans ih ih'
  | anyNext _ _ ih ih' => exact Int.le_trans ih ih'
  | _ => exact Int.le_refl _

theorem Contains.of_all_tail {gs : List (Guard S)} {g' part : Guard S}
    (h : (Guard.all gs).Contains part) (hp : part ≠ .all gs) : (Guard.all (g' :: gs)).Contains part := by
  cases h with
  | self => exact absurd rfl hp
  | all hg within => exact .all (List.mem_cons_of_mem _ hg) within

theorem Contains.of_any_tail {gs : List (Guard S)} {g' part : Guard S}
    (h : (Guard.any gs).Contains part) (hp : part ≠ .any gs) : (Guard.any (g' :: gs)).Contains part := by
  cases h with
  | self => exact absurd rfl hp
  | any hg within => exact .any (List.mem_cons_of_mem _ hg) within

/-- A guard keeps its answer until a timer in it runs out. -/
theorem Asked.poll (h : g.Asked resolved s t answer u) (hr : ∀ f, v.resolved f = resolved f)
    (hu : u ≤ v.now) (hn : ¬g.Expires t v.now) : g.poll v s = answer := by
  have passed {d : Instant} {r : Span} (hd : g.Contains (.timer (some d) r)) (hle : d ≤ v.now) : d ≤ t :=
    Int.not_lt.mp fun hlt => hn ⟨d, r, hd, hlt, hle⟩
  clear hn
  induction h with
  | always | field | never | allNil | anyNil => rfl
  | future f => rw [Guard.poll, hr]
  | @timer d r t u htu =>
    have same : d ≤ v.now ↔ d ≤ u :=
      ⟨fun h => Int.le_trans (passed (.self _) h) htu, fun h => Int.le_trans h hu⟩
    simp [Guard.poll, Instant.due, same]
  | allNext first rest ih ih' =>
    have head := ih (Int.le_trans rest.le hu) fun hd => passed (.all List.mem_cons_self hd)
    have tail := ih' hu fun hd hle => Int.le_trans (passed (hd.of_all_tail (by simp)) hle) first.le
    simpa [Guard.poll, pollAll, head] using tail
  | allStop gs first stops ih =>
    have head := ih hu fun hd => passed (.all List.mem_cons_self hd)
    rw [Guard.poll, pollAll, head]
    split
    · contradiction
    · rfl
  | anyNext first rest ih ih' =>
    have head := ih (Int.le_trans rest.le hu) fun hd => passed (.any List.mem_cons_self hd)
    have tail := ih' hu fun hd hle => Int.le_trans (passed (hd.of_any_tail (by simp)) hle) first.le
    simpa [Guard.poll, pollAny, head] using tail
  | anyStop gs first stops ih =>
    have head := ih hu fun hd => passed (.any List.mem_cons_self hd)
    rw [Guard.poll, pollAny, head]
    split
    · contradiction
    · rfl

/-- A guard that names no deadline has no timer that is still to run out. -/
theorem Aimed.over {o : Option Instant} (h : g.Aimed t o u) (ho : o = none) {d : Instant} {r : Span}
    (hd : g.Contains (.timer (some d) r)) : d ≤ u := by
  induction h with
  | @timer e r' t u _ =>
    cases hd
    split at ho
    · assumption
    · cases ho
  | @allNext g gs t u w d' e' first rest ih ih' =>
    have nothing : d' = none ∧ e' = none := by
      cases d' <;> cases e' <;> simp_all [Instant.latest]
    cases hd with
    | all hg within => cases hg with
      | head => exact Int.le_trans (ih nothing.1 within) rest.le
      | tail _ hg => exact ih' nothing.2 (.all hg within)
  | @anyNext g gs t u w d' e' first rest ih ih' =>
    have nothing : d' = none ∧ e' = none := by
      cases d' <;> cases e' <;> simp_all [Instant.earliest]
    cases hd with
    | any hg within => cases hg with
      | head => exact Int.le_trans (ih nothing.1 within) rest.le
      | tail _ hg => exact ih' nothing.2 (.any hg within)
  | allNil => cases hd with
    | all hg _ => cases hg
  | anyNil => cases hd with
    | any hg _ => cases hg
  | _ => cases hd

/-- A guard of the library that was false and then names no deadline. -/
theorem Asked.unheeded (library : g.library = true) (h : g.Asked resolved s t (.ok false) u)
    (hle : u ≤ w) {w' : Instant} (hd : g.Aimed w none w') : g.Unheeded resolved s t w' where
  settled {v v'} hv hv' hn hn' := by
    -- Both are what a guard says that is asked when no timer of it is to run out.
    have base : g.Asked resolved s w' (g.poll { now := w', resolved, turn := 0 } s) w' :=
      asked_poll (v := { now := w', resolved, turn := 0 }) library
    have unspent {n : Instant} : ¬g.Expires w' n := by
      rintro ⟨d, r, within, later, -⟩
      exact absurd (hd.over rfl within) (Int.not_le.mpr later)
    exact (base.poll hv hn unspent).trans (base.poll hv' hn' unspent).symm
  expired {v} hv hn hp := by
    by_cases expires : g.Expires t v.now
    · obtain ⟨d, r, within, later, -⟩ := expires
      exact ⟨d, r, within, later, hd.over rfl within⟩
    · exact absurd (h.poll hv (Int.le_trans hle (Int.le_trans hd.le hn)) expires) hp

end Guard

end ObjectGroups
