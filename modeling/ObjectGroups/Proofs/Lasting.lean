/-
Guards that hold for good.

The clock does not go back, and a future that is resolved stays so. A guard of
the library that looks at nothing else, not at the state of the cog, can
therefore become true but not false again, and it cannot fail. These are the
guards that say of themselves that they stay true.

The answer of a wait is put together from parts that have been seen to hold at
different times. For such a guard it can be trusted all the same: whenever what
is left of the wait holds, the guard does (`Wait.Vouches`), and each step of the
wait keeps this.
-/
import ObjectGroups.Proofs.Waits

namespace ObjectGroups

variable {S : Type}

/-- What can be seen at the same time or later. -/
structure Sight.Later (v v' : Sight) : Prop where
  now : v.now ≤ v'.now
  resolved : ∀ f, v.resolved f = true → v'.resolved f = true

namespace Sight.Later

variable {v v' v'' : Sight}

theorem refl (v : Sight) : v.Later v := ⟨Int.le_refl _, fun _ => id⟩

theorem trans (h : v.Later v') (h' : v'.Later v'') : v.Later v'' :=
  ⟨Int.le_trans h.now h'.now, fun f hf => h'.resolved f (h.resolved f hf)⟩

end Sight.Later

/-! ## Guards -/

namespace Guard

mutual

/-- Whether a part of the guard looks at the state of the cog. -/
def looks : Guard S → Bool
  | .field _ _ => true
  | .all gs => anyLooks gs
  | .any gs => anyLooks gs
  | _ => false

def anyLooks : List (Guard S) → Bool
  | [] => false
  | g :: gs => looks g || anyLooks gs

end

/-- A guard of the library that does not look at the state. -/
def firm (g : Guard S) : Bool := g.library && !g.looks

/-- From `v` on the guard holds, whatever becomes of the state. -/
def Lasting (v : Sight) (g : Guard S) : Prop := ∀ v', v.Later v' → ∀ s, g.poll v' s = .ok true

theorem Lasting.later {v v' : Sight} {g : Guard S} (h : g.Lasting v) (hv : v.Later v') : g.Lasting v' :=
  fun v'' hv' s => h v'' (hv.trans hv') s

theorem anyLooks_iff {gs : List (Guard S)} : anyLooks gs = false ↔ ∀ g ∈ gs, g.looks = false := by
  induction gs with
  | nil => simp [anyLooks]
  | cons g gs ih => simp [anyLooks, ih]

theorem firm_iff {g : Guard S} : g.firm = true ↔ g.library = true ∧ g.looks = false := by
  simp [firm]

theorem firm_list {gs : List (Guard S)} (hl : allLibrary gs = true) (hg : anyLooks gs = false) :
    ∀ g ∈ gs, g.firm = true :=
  fun g hm => firm_iff.mpr ⟨allLibrary_iff.mp hl g hm, anyLooks_iff.mp hg g hm⟩

theorem firm_all {gs : List (Guard S)} (h : (Guard.all gs).firm = true) : ∀ g ∈ gs, g.firm = true :=
  firm_list (firm_iff.mp h).1 (firm_iff.mp h).2

theorem firm_any {gs : List (Guard S)} (h : (Guard.any gs).firm = true) : ∀ g ∈ gs, g.firm = true :=
  firm_list (firm_iff.mp h).1 (firm_iff.mp h).2

theorem firm_inherited : Guard.Inherited (S := S) fun g => g.firm = true where
  all := firm_all
  timer h := h
  user := Bool.false_ne_true

theorem stayAll_eq {v : Sight} {gs : List (Guard S)} (h : ∀ g ∈ gs, g.stays v = .ok !g.looks) :
    stayAll v gs = .ok !anyLooks gs := by
  induction gs with
  | nil => rfl
  | cons g gs ih =>
    rw [List.forall_mem_cons] at h
    rw [stayAll, h.1, anyLooks, ih h.2]
    cases g.looks <;> rfl

/-- A guard of the library says that it stays true if it does not look at the state. -/
theorem stays_eq {g : Guard S} (h : g.library = true) (v : Sight) : g.stays v = .ok !g.looks := by
  induction g using induct with
  | all gs ih => exact stayAll_eq fun g hg => ih g hg (allLibrary_iff.mp h g hg)
  | any gs ih => exact stayAll_eq fun g hg => ih g hg (allLibrary_iff.mp h g hg)
  | user u => cases h
  | _ => rfl

section
variable {v v' : Sight} {s s' : S}

theorem pollAll_ok {gs : List (Guard S)} (h : ∀ g ∈ gs, ∃ b, g.poll v s = .ok b) :
    ∃ b, pollAll v s gs = .ok b := by
  induction gs with
  | nil => exact ⟨true, rfl⟩
  | cons g gs ih =>
    rw [List.forall_mem_cons] at h
    obtain ⟨⟨b, hb⟩, rest⟩ := h
    cases b with
    | true => simpa [pollAll, hb] using ih rest
    | false => exact ⟨false, by rw [pollAll, hb]⟩

theorem pollAny_ok {gs : List (Guard S)} (h : ∀ g ∈ gs, ∃ b, g.poll v s = .ok b) :
    ∃ b, pollAny v s gs = .ok b := by
  induction gs with
  | nil => exact ⟨false, rfl⟩
  | cons g gs ih =>
    rw [List.forall_mem_cons] at h
    obtain ⟨⟨b, hb⟩, rest⟩ := h
    cases b with
    | true => exact ⟨true, by rw [pollAny, hb]⟩
    | false => simpa [pollAny, hb] using ih rest

/-- A guard that does not look at the state cannot fail. -/
theorem poll_firm {g : Guard S} (h : g.firm = true) : ∃ b, g.poll v s = .ok b := by
  induction g using induct with
  | field name pred => cases h
  | all gs ih => exact pollAll_ok fun g hg => ih g hg (firm_all h g hg)
  | any gs ih => exact pollAny_ok fun g hg => ih g hg (firm_any h g hg)
  | user u => cases h
  | _ => exact ⟨_, rfl⟩

/-- If no part can fail, one that holds is enough. -/
theorem pollAny_of_true {gs : List (Guard S)} (h : ∀ g ∈ gs, ∃ b, g.poll v s = .ok b) {g : Guard S}
    (hg : g ∈ gs) (ht : g.poll v s = .ok true) : pollAny v s gs = .ok true := by
  obtain ⟨b, hb⟩ := pollAny_ok h
  cases b with
  | true => exact hb
  | false =>
    have refused := pollAny_false.mp hb g hg
    cases ht.symm.trans refused

/-- It stays true, whatever becomes of the state. -/
theorem poll_later {g : Guard S} (h : g.firm = true) (hv : v.Later v') (ht : g.poll v s = .ok true) :
    g.poll v' s' = .ok true := by
  induction g using induct with
  | always => rfl
  | field name pred => cases h
  | future f =>
    have resolved : v.resolved f = true := by simpa [poll] using ht
    rw [poll, hv.resolved f resolved]
  | timer d r => cases d with
    | none => simp [poll, Instant.due] at ht
    | some d =>
      have passed : d ≤ v.now := by simpa [poll, Instant.due] using ht
      simpa [poll, Instant.due] using Int.le_trans passed hv.now
  | all gs ih =>
    refine pollAll_true.mpr fun g hg => ?_
    exact ih g hg (firm_all h g hg) (pollAll_true.mp ht g hg)
  | any gs ih =>
    obtain ⟨g, hg, hp⟩ := pollAny_true ht
    exact pollAny_of_true (fun g hg => poll_firm (firm_any h g hg)) hg (ih g hg (firm_any h g hg) hp)
  | user u => cases h

end

end Guard

/-! ## Waits -/

/-- What the wait is for at this point holds. -/
def WaitPoint.Holds (v : Sight) (s : S) : WaitPoint S → Prop
  | .enter g => g.poll v s = .ok true
  | .future f => v.resolved f = true
  | .join f => v.resolved f = true
  | .recheck f => v.resolved f = true
  | .timer d => d ≤ v.now
  | .anyPoll gs _ => (Guard.any gs).poll v s = .ok true
  | .anyAim gs _ => (Guard.any gs).poll v s = .ok true
  | .anyLast gs => (Guard.any gs).poll v s = .ok true
  | .park _ _ (.future f) => v.resolved f = true
  | .park _ _ (.timer d) => d ≤ v.now
  | .park _ _ (.any gs) => (Guard.any gs).poll v s = .ok true
  | .done r => r = .ok true
  | _ => False

namespace Wait

variable {w : Wait S} {v v' : Sight} {σ s : S} {p : Parker} {move : WaitMove S} {G : Guard S}

/-- What is left of the wait holds, and what has been seen before did. -/
structure Holds (v : Sight) (s : S) (w : Wait S) : Prop where
  point : w.point.Holds v s
  frames : ∀ frame ∈ w.frames, frame.1 = true ∧ ∀ g ∈ frame.2, g.poll v s = .ok true

theorem holds_notify : w.notify.Holds v s ↔ w.Holds v s := by
  obtain ⟨point, frames⟩ := w
  cases point with
  | park d sleep after => cases after <;> exact ⟨fun h => ⟨h.point, h.frames⟩, fun h => ⟨h.point, h.frames⟩⟩
  | _ => exact .rfl

/-- What held when the wait gave its answer goes on to hold. -/
theorem holds_of_answers {x : WaitPoint S} (hx : x.Within fun g => g.firm = true) (hv : v.Later v')
    (h : x.Answers v σ (.ok true)) : x.Holds v' s := by
  generalize hr : (Exit.ok true : Answer) = r at h
  cases h with
  | always | nothing => rfl
  | field name pred => cases hx
  | resolved hf | resolvedSince hf => exact hv.resolved _ hf
  | due hd => exact Int.le_trans hd hv.now
  | polled | last => exact Guard.poll_later hx hv (Guard.evaluate_ok.mp hr.symm)
  | user => exact hx.elim
  | aimFailed | aimless => cases hr

theorem holds_of_goes {x y : WaitPoint S} (hx : x.Within fun g => g.firm = true) (hv : v.Later v')
    (h : x.Goes v σ y) (hy : y.Holds v' s) : x.Holds v' s := by
  cases h with
  | answers ha =>
    cases hy
    exact holds_of_answers hx hv ha
  | future f => exact congrArg Exit.ok hy
  | timer d r => simpa [WaitPoint.Holds, Guard.poll, Instant.due] using hy
  | never | user | parksNever | evaluates | parksUser => exact hy.elim
  | _ => exact hy

/-- What holds after a step of the wait has done so before. -/
theorem Holds.of_step (hw : w.Within fun g => g.firm = true) (hs : w.step v σ p = some move)
    (hv : v.Later v') (h : move.wait.Holds v' s) : w.Holds v' s := by
  have point := h.point
  cases step_paces hs with
  | goes hy => exact ⟨holds_of_goes hw.point hv hy point, h.frames⟩
  | descends g gs frames =>
    have parts := List.forall_mem_cons.mp h.frames
    exact ⟨Guard.pollAll_true.mpr (List.forall_mem_cons.mpr ⟨point, parts.1.2⟩), parts.2⟩
  | subscribeFailed => cases point
  | @sleeps d sleep after frames => cases after <;> exact ⟨point, h.frames⟩
  | @wakes d sleep after frames r => cases after with
    | user g next => exact hw.point.elim
    | _ => cases r with
      | error e => cases point
      | ok _ => exact ⟨point, h.frames⟩
  | passes b held g gs frames =>
    obtain ⟨⟨both, rest⟩, frames⟩ := List.forall_mem_cons.mp h.frames
    obtain ⟨rfl, rfl⟩ : b = true ∧ held = true := by simpa using both
    exact ⟨rfl, List.forall_mem_cons.mpr ⟨⟨rfl, List.forall_mem_cons.mpr ⟨point, rest⟩⟩, frames⟩⟩
  | @ends r r' held gs frames =>
    -- Parts that are still to come would have their turn.
    cases r with
    | ok b => cases gs with
      | nil =>
        cases hs
        obtain ⟨rfl, rfl⟩ : b = true ∧ held = true := by simpa [WaitPoint.Holds] using point
        exact ⟨rfl, List.forall_mem_cons.mpr ⟨⟨rfl, by simp⟩, h.frames⟩⟩
      | cons g gs => cases hs
    | _ =>
      cases hs
      cases point
  | _ => exact ⟨point, h.frames⟩

/-- Whenever what is left of the wait holds from `v` on, so does `G`. -/
def Vouches (v : Sight) (w : Wait S) (G : Guard S) : Prop :=
  ∀ v', v.Later v' → ∀ s, w.Holds v' s → G.poll v' s = .ok true

theorem vouches_start (v : Sight) (G : Guard S) : (Wait.start G).Vouches v G := fun _ _ _ h => h.point

namespace Vouches

variable (h : w.Vouches v G)
include h

theorem later (hv : v.Later v') : w.Vouches v' G := fun v'' hv' s => h v'' (hv.trans hv') s

theorem notify : w.notify.Vouches v G := fun v' hv s hw => h v' hv s (holds_notify.mp hw)

theorem step (hw : w.Within fun g => g.firm = true) (hs : w.step v σ p = some move) :
    move.wait.Vouches v G :=
  fun v' hv s hm => h v' hv s (.of_step hw hs hv hm)

/-- A wait that has ended well has found its guard to hold for good. -/
theorem lasting (hr : w.result? = some (.ok true)) : G.Lasting v := by
  intro v' hv s
  obtain ⟨point, frames⟩ := w
  cases point with
  | done r => cases frames with
    | nil =>
      cases hr
      exact h v' hv s ⟨rfl, by simp⟩
    | cons => cases hr
  | _ => cases hr

end Vouches

end Wait

end ObjectGroups
