/-
Guards that never say that they have been interrupted when they have not.

Nothing keeps the code of a guard from answering that its wait has been
interrupted, and an await cannot tell such an answer from a real interrupt. A
`Candid` guard does not: what it evaluates to is never this error, and its
wait answers it only after a park that an interrupt has ended. So no step of
its wait makes up an interrupt.
-/
import ObjectGroups.Proofs.Looks
import ObjectGroups.Proofs.Paces
import ObjectGroups.Proofs.Timing

namespace ObjectGroups

variable {S : Type} {v : Sight} {σ : S} {p : Parker}

/-- Unless a park of it is interrupted, the plan does not answer that it has been. -/
def WaitPlan.Candid : WaitPlan → Prop
  | .answer r => r ≠ .error .interrupted
  | .evaluate next => ∀ r, r ≠ .error .interrupted → (next r).Candid
  | .park _ next => (next (.ok ())).Candid

inductive Guard.Candid : Guard S → Prop where
  | always : Candid .always
  | field {name : String} {pred : S → Answer} : (∀ s, pred s ≠ .error .interrupted) →
      Candid (.field name pred)
  | future {f : FutureId} : Candid (.future f)
  | timer {deadline : Option Instant} {requested : Span} : Candid (.timer deadline requested)
  | all {gs : List (Guard S)} : (∀ g ∈ gs, Candid g) → Candid (.all gs)
  | any {gs : List (Guard S)} : (∀ g ∈ gs, Candid g) → Candid (.any gs)
  | user {u : UserGuard S} : (∀ v s, u.poll v s ≠ .error .interrupted) → (∀ v, (u.wait v).Candid) →
      Candid (.user u)

namespace Guard

theorem pollAll_candid {gs : List (Guard S)} (h : ∀ g ∈ gs, g.poll v σ ≠ .error .interrupted) :
    pollAll v σ gs ≠ .error .interrupted := by
  induction gs with
  | nil => simp [pollAll]
  | cons g gs ih =>
    rw [List.forall_mem_cons] at h
    rw [pollAll]
    split
    · exact ih h.2
    · exact h.1

theorem pollAny_candid {gs : List (Guard S)} (h : ∀ g ∈ gs, g.poll v σ ≠ .error .interrupted) :
    pollAny v σ gs ≠ .error .interrupted := by
  induction gs with
  | nil => simp [pollAny]
  | cons g gs ih =>
    rw [List.forall_mem_cons] at h
    rw [pollAny]
    split
    · exact ih h.2
    · exact h.1

theorem Candid.poll {g : Guard S} (h : g.Candid) (v : Sight) (s : S) :
    g.poll v s ≠ .error .interrupted := by
  induction h with
  | field hp => exact hp s
  | all _ ih => exact pollAll_candid ih
  | any _ ih => exact pollAny_candid ih
  | user hp => exact hp v s
  | _ => simp [Guard.poll]

theorem Candid.evaluate {g : Guard S} (h : g.Candid) (v : Sight) (s : S) :
    g.evaluate v s ≠ .error .interrupted := by
  have honest := h.poll v s
  unfold Guard.evaluate
  split
  · nofun
  · next hp => rwa [hp] at honest
  · split <;> nofun

end Guard

/-! ## Waits -/

def AfterPark.Candid : AfterPark S → Prop
  | .any gs => ∀ g ∈ gs, g.Candid
  | .user g next => g.Candid ∧ (next (.ok ())).Candid
  | _ => True

def WaitPoint.Candid : WaitPoint S → Prop
  | .enter g => g.Candid
  | .anyPoll gs _ => ∀ g ∈ gs, g.Candid
  | .anyAim gs _ => ∀ g ∈ gs, g.Candid
  | .anyLast gs => ∀ g ∈ gs, g.Candid
  | .user g plan => g.Candid ∧ plan.Candid
  | .park _ _ after => after.Candid
  | .done r => r ≠ .error .interrupted
  | _ => True

/-- The wait has not been interrupted, and its guards are candid. -/
structure Wait.Candid (w : Wait S) : Prop where
  point : w.point.Candid
  frames : ∀ frame ∈ w.frames, ∀ g ∈ frame.2, g.Candid

namespace Wait.Candid

variable {w : Wait S}

theorem start {g : Guard S} (h : g.Candid) : (Wait.start g).Candid := ⟨h, nofun⟩

theorem notify (h : w.Candid) : w.notify.Candid := by
  obtain ⟨point, frames⟩ := w
  cases point with
  | park deadline sleep after => exact ⟨h.point, h.frames⟩
  | _ => exact h

theorem result (h : w.Candid) {r : Answer} (hr : w.result? = some r) : r ≠ .error .interrupted := by
  obtain ⟨point, frames⟩ := w
  unfold Wait.result? at hr
  split at hr
  · next hp _ =>
    cases hr
    have point := h.point
    rwa [hp] at point
  · cases hr

/-- No answer that the wait has is made up. -/
theorem answers {x : WaitPoint S} {r : Answer} (hx : x.Candid) (h : x.Answers v σ r) :
    r ≠ .error .interrupted := by
  cases h with
  | field name pred => exact Guard.Candid.evaluate hx v σ
  | polled | last => exact (Guard.Candid.any hx).evaluate v σ
  | user g r => exact hx.2
  | _ => simp

/-- No step of the wait makes up an interrupt. -/
theorem step (h : w.Candid) (hp : p.interrupted = false) {move : WaitMove S}
    (hs : w.step v σ p = some move) : move.wait.Candid := by
  have part := h.point
  cases step_paces hs with
  | goes hy =>
    refine ⟨?_, h.frames⟩
    cases hy with
    | answers hr => exact answers part hr
    | user u => cases part with
      | user hp plan => exact ⟨.user hp plan, plan v⟩
    | refused | parksAny => exact part
    | evaluates g next => exact ⟨part.1, part.2 _ (part.1.evaluate v σ)⟩
    | parksUser => exact part
    | _ => trivial
  | descends g gs => cases part with
    | all parts =>
      rw [List.forall_mem_cons] at parts
      exact ⟨parts.1, List.forall_mem_cons.mpr ⟨parts.2, h.frames⟩⟩
  | joins => exact ⟨trivial, h.frames⟩
  | subscribes => cases part with
    | any parts => exact ⟨parts, h.frames⟩
  | subscribeFailed => exact ⟨nofun, h.frames⟩
  | sleeps => exact ⟨part, h.frames⟩
  | @wakes d sleep after frames r p' hlook =>
    obtain rfl := Parker.look_ok hp hlook
    refine ⟨?_, h.frames⟩
    cases after <;> trivial
  | passes b held g gs =>
    have frames := List.forall_mem_cons.mp h.frames
    have parts := List.forall_mem_cons.mp frames.1
    exact ⟨parts.1, List.forall_mem_cons.mpr ⟨parts.2, frames.2⟩⟩
  | ends hr =>
    refine ⟨?_, (List.forall_mem_cons.mp h.frames).2⟩
    rcases hr with ⟨b, -, rfl⟩ | rfl
    · simp [WaitPoint.Candid]
    · exact part

end Wait.Candid

end ObjectGroups
