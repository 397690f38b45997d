/-
A wait does not tell how its guard is nested.

A wait for an `all` goes from part to part, and on the way it only keeps the
books of which parts are to come (`Wait.passing`). What it does otherwise
depends on the part that it is at, on whether all before have held, and on the
parts to come that are no `all` themselves (`Wait.standing`). Where nested
connectives have been spliced these are the same parts, but for an `any` that
says the same under another description (`Guard.Twin`). So the two waits look
at the same things, register and park alike, and come to the same answer.
-/
import Mathlib.Data.List.Forall2
import ObjectGroups.Proofs.Remaining
import ObjectGroups.Proofs.Splicing
import ObjectGroups.Proofs.StateOnly

namespace ObjectGroups

variable {S : Type} {g g' : Guard S} {gs gs' : List (Guard S)} {v : Sight} {s : S} {p : Parker}
  {x x' : WaitPoint S} {w w' w₁ : Wait S} {frames frames' : List (Bool × List (Guard S))} {r r' : Answer}

/-! ## What can be seen of a wait -/

namespace Wait

/-- The wait is on its way from one part of an `all` to the next, or into one or out of it. -/
def passing (w : Wait S) : Bool :=
  match w.point, w.frames with
  | .enter (.all _), _ => true
  | .done _, _ :: _ => true
  | _, _ => false

/-- Until when the thread parks, and how it sleeps. -/
def park? (w : Wait S) : Option (Option Instant × Sleep) :=
  match w.point with
  | .park deadline sleep _ => some (deadline, sleep)
  | _ => none

end Wait

/-- What can be seen of a wait from outside. -/
inductive WaitEvent (S : Type) where
  /-- A step with this sight, state and parker: the futures it registers with, the parker that it
  leaves, and the park in which the thread is then. -/
  | does (v : Sight) (s : S) (found : Parker) (joins : List FutureId) (left : Parker)
      (park : Option (Option Instant × Sleep))
  | notified

/-- The wait can go on like this until it is `w'`. -/
inductive Wait.Plays : Wait S → List (WaitEvent S) → Wait S → Prop where
  | refl (w : Wait S) : Plays w [] w
  | passes {w w' : Wait S} {v : Sight} {s : S} {p : Parker} {move : WaitMove S}
      {events : List (WaitEvent S)} : w.passing = true → w.step v s p = some move →
      Plays move.wait events w' → Plays w events w'
  | does {w w' : Wait S} {v : Sight} {s : S} {p : Parker} {move : WaitMove S}
      {events : List (WaitEvent S)} : w.passing = false → w.step v s p = some move →
      Plays move.wait events w' →
      Plays w (.does v s p move.joins move.parker move.wait.park? :: events) w'
  | notified {w w' : Wait S} {events : List (WaitEvent S)} : Plays w.notify events w' →
      Plays w (.notified :: events) w'

/-- Whatever can be seen of `w` can be seen of `w'`, with the same parks and the same answer. -/
def Wait.Mirrors (w w' : Wait S) : Prop := ∀ events w₁, w.Plays events w₁ →
  ∃ w₁', w'.Plays events w₁' ∧ w₁'.park? = w₁.park? ∧
    ∀ r, w₁.result? = some r → ∃ r', w₁'.result? = some r' ∧ r.Alike r'

/-! ## Parts in the place of others -/

/-- The same guard, or an `any` that says the same. -/
inductive Guard.Twin : Guard S → Guard S → Prop where
  | same (g : Guard S) : Twin g g
  | any {gs gs' : List (Guard S)} : Agree (.any gs) (.any gs') → Twin (.any gs) (.any gs')

theorem Guard.Twin.symm (h : Twin g g') : Twin g' g := by
  cases h with
  | same => exact .same g
  | any agree => exact .any agree.symm

theorem Guard.conjunctsOf_append (gs hs : List (Guard S)) :
    conjunctsOf (gs ++ hs) = conjunctsOf gs ++ conjunctsOf hs := by
  induction gs with
  | nil => rfl
  | cons g gs ih => rw [List.cons_append, conjunctsOf, conjunctsOf, ih, List.append_assoc]

theorem Guard.forall₂_twin (gs : List (Guard S)) : List.Forall₂ Twin gs gs :=
  List.forall₂_same.mpr fun g _ => .same g

/-- Splicing leaves the parts that `all` connects as they are, but for those that are an `any`. -/
theorem Guard.Splices.conjuncts (h : Splices g g') : List.Forall₂ Twin g.conjuncts g'.conjuncts := by
  induction h with
  | all before inner behind =>
    simp only [Guard.conjuncts, conjunctsOf_append, conjunctsOf, List.append_assoc]
    exact forall₂_twin _
  | any before inner behind => exact .cons (.any (Splices.any before inner behind).agree) .nil
  | withinAll before behind h ih =>
    simp only [Guard.conjuncts, conjunctsOf_append, conjunctsOf]
    exact List.rel_append (forall₂_twin _) (List.rel_append ih (forall₂_twin _))
  | withinAny before behind h => exact .cons (.any (h.withinAny before behind).agree) .nil

/-- The wait is at the same point, but for what nobody can tell. -/
inductive WaitPoint.Twin : WaitPoint S → WaitPoint S → Prop where
  | same (x : WaitPoint S) : Twin x x
  | enter {gs gs' : List (Guard S)} : Guard.Agree (.any gs) (.any gs') →
      Twin (.enter (.any gs)) (.enter (.any gs'))
  | polls {gs gs' : List (Guard S)} (external : Bool) : Guard.Agree (.any gs) (.any gs') →
      Twin (.anyPoll gs external) (.anyPoll gs' external)
  | aims {gs gs' : List (Guard S)} (external : Bool) : Guard.Agree (.any gs) (.any gs') →
      Twin (.anyAim gs external) (.anyAim gs' external)
  | parks {gs gs' : List (Guard S)} (deadline : Option Instant) (sleep : Sleep) :
      Guard.Agree (.any gs) (.any gs') →
      Twin (.park deadline sleep (.any gs)) (.park deadline sleep (.any gs'))
  | lasts {gs gs' : List (Guard S)} : Guard.Agree (.any gs) (.any gs') →
      Twin (.anyLast gs) (.anyLast gs')
  | answers {r r' : Answer} : r.Alike r' → Twin (.done r) (.done r')

/-! ## Where a wait stands -/

/-- Where a wait stands, apart from how the parts are nested. -/
inductive Standing (S : Type) where
  /-- About to wait for the parts to come. All before have held, or not. -/
  | asks (held : Bool) (todo : List (Guard S))
  | within (x : WaitPoint S) (held : Bool) (todo : List (Guard S))
  | failed (r : Answer)

/-- The wait stands at the same place, but for what nobody can tell. -/
def Standing.Twin : Standing S → Standing S → Prop
  | .asks held todo, .asks held' todo' => held = held' ∧ List.Forall₂ Guard.Twin todo todo'
  | .within x held todo, .within x' held' todo' =>
    x.Twin x' ∧ held = held' ∧ List.Forall₂ Guard.Twin todo todo'
  | .failed r, .failed r' => r.Alike r'
  | _, _ => False

namespace Wait

def held (frames : List (Bool × List (Guard S))) : Bool := frames.all (·.1)

def todo (frames : List (Bool × List (Guard S))) : List (Guard S) :=
  frames.flatMap fun frame => Guard.conjunctsOf frame.2

def standing (w : Wait S) : Standing S :=
  match w.point with
  | .enter g => .asks (held w.frames) (g.conjuncts ++ todo w.frames)
  | .done (.ok b) => .asks (b && held w.frames) (todo w.frames)
  | .done r => .failed r
  | x => .within x (held w.frames) (todo w.frames)

/-- On its way a wait does nothing, and stands where it has stood. -/
theorem passing_step (h : w.passing = true) : ∃ w', w'.standing = w.standing ∧ w'.steps < w.steps ∧
    ∀ v (s : S) p, w.step v s p = some { parker := p, wait := w' } := by
  obtain ⟨x, frames⟩ := w
  cases x with
  | enter g => cases g with
    | all gs => cases gs with
      | nil =>
        refine ⟨⟨.done (.ok true), frames⟩, rfl, ?_, fun v s p => rfl⟩
        simp [steps, WaitPoint.steps, Guard.steps]
      | cons g gs =>
        refine ⟨⟨.enter g, (true, gs) :: frames⟩, ?_, ?_, fun v s p => rfl⟩
        · simp [standing, held, todo, Guard.conjuncts, Guard.conjunctsOf]
        · simp only [steps, frameSteps, WaitPoint.steps, Guard.steps, Guard.allSteps]
          omega
    | _ => cases h
  | done r => cases frames with
    | nil => cases h
    | cons frame frames =>
      obtain ⟨before, rest⟩ := frame
      cases r with
      | ok b => cases rest with
        | nil =>
          refine ⟨⟨.done (.ok (b && before)), frames⟩, ?_, ?_, fun v s p => rfl⟩
          · simp [standing, held, todo, Guard.conjunctsOf, Bool.and_assoc]
          · simp [steps, frameSteps, WaitPoint.steps]
        | cons g gs =>
          refine ⟨⟨.enter g, (b && before, gs) :: frames⟩, ?_, ?_, fun v s p => rfl⟩
          · simp [standing, held, todo, Guard.conjunctsOf, Bool.and_assoc]
          · simp only [steps, frameSteps, WaitPoint.steps, Guard.allSteps]
            omega
      | error e =>
        refine ⟨⟨.done (.error e), frames⟩, rfl, ?_, fun v s p => rfl⟩
        simp [steps, frameSteps, WaitPoint.steps]
      | panic q =>
        refine ⟨⟨.done (.panic q), frames⟩, rfl, ?_, fun v s p => rfl⟩
        simp [steps, frameSteps, WaitPoint.steps]
  | _ => cases h

/-- Sooner or later there is something to do, or the wait has ended. -/
theorem settles (s : S) (w : Wait S) : ∃ w', w.Plays [] w' ∧ w'.passing = false ∧ w'.standing = w.standing := by
  induction h : w.steps using Nat.strongRecOn generalizing w with
  | ind n ih =>
    cases hw : w.passing with
    | false => exact ⟨w, .refl w, hw, rfl⟩
    | true =>
      obtain ⟨w', same, fewer, step⟩ := passing_step hw
      obtain ⟨w₁, plays, still, stands⟩ := ih _ (h ▸ fewer) w' rfl
      exact ⟨w₁, .passes hw (step ⟨0, fun _ => false, 0⟩ s {}) plays, still, stands.trans same⟩

/-- A wait with something to do is about to wait for a part that is no `all`, or within such a wait, or
has ended. -/
theorem still (h : w.passing = false) :
    (∃ g, w.point = .enter g ∧ w.standing = .asks (held w.frames) (g :: todo w.frames)) ∨
      (∃ r, w.point = .done r ∧ w.frames = []) ∨
        w.standing = .within w.point (held w.frames) (todo w.frames) := by
  obtain ⟨x, frames⟩ := w
  cases x with
  | enter g => cases g with
    | all => cases h
    | _ => exact .inl ⟨_, rfl, rfl⟩
  | done r => cases frames with
    | nil => exact .inr (.inl ⟨r, rfl, rfl⟩)
    | cons => cases h
  | _ => exact .inr (.inr rfl)

/-- A step from such a point does not depend on the parts to come. -/
theorem step_within (frames : List (Bool × List (Guard S))) (h : (⟨x, frames⟩ : Wait S).passing = false)
    (hr : ∀ r, x ≠ .done r) : step v s p ⟨x, frames⟩ =
      (step v s p ⟨x, []⟩).map fun move => { move with wait := ⟨move.wait.point, frames⟩ } := by
  cases x with
  | enter g => cases g with
    | all => cases h
    | timer d => cases d <;> rfl
    | any gs =>
      simp only [step]
      cases WaitPoint.enterAny v gs
      rfl
    | _ => rfl
  | user g plan => cases plan <;> rfl
  | park d sleep after =>
    simp only [step]
    cases p.look v.now d sleep with
    | none => rfl
    | some turn => cases turn <;> rfl
  | done r => exact absurd rfl (hr r)
  | _ => rfl

end Wait

namespace WaitPoint

/-- Waits at the same point take the same step. -/
theorem Twin.step {move : WaitMove S} (h : x.Twin x') (hs : Wait.step v s p ⟨x, []⟩ = some move) :
    ∃ move', Wait.step v s p ⟨x', []⟩ = some move' ∧ move'.joins = move.joins ∧
      move'.parker = move.parker ∧ move.wait.point.Twin move'.wait.point := by
  cases h with
  | same => exact ⟨move, hs, rfl, rfl, .same _⟩
  | @enter gs gs' agree =>
    cases he : (Guard.any gs).sources v with
    | mk fs answer =>
      simp only [Wait.step, enterAny, ← agree.sources, he] at hs ⊢
      cases hs
      cases answer with
      | ok external => exact ⟨_, rfl, rfl, rfl, .polls external agree⟩
      | error q => exact ⟨_, rfl, rfl, rfl, .same _⟩
  | @polls gs gs' external agree =>
    cases hs
    refine ⟨_, rfl, rfl, rfl, ?_⟩
    have alike := agree.evaluate v s
    generalize (Guard.any gs).evaluate v s = r, (Guard.any gs').evaluate v s = r' at alike
    cases alike with
    | same r => cases r with
      | ok b => cases b with
        | true => exact .same _
        | false => exact .aims external agree
      | _ => exact .same _
    | panicked l l' => exact .answers (.panicked l l')
  | @aims gs gs' external agree =>
    cases hs
    refine ⟨_, rfl, rfl, rfl, ?_⟩
    simp only [aim, ← agree.deadline]
    split
    · exact .same _
    · cases external with
      | true => exact .parks none .awake agree
      | false => exact .same _
    · exact .parks _ .awake agree
  | @parks gs gs' d sleep agree =>
    simp only [Wait.step] at hs ⊢
    cases hl : p.look v.now d sleep with
    | none =>
      rw [hl] at hs
      cases hs
    | some turn =>
      rw [hl] at hs
      cases turn with
      | sleeps =>
        cases hs
        exact ⟨_, rfl, rfl, rfl, .parks d _ agree⟩
      | ended e =>
        obtain ⟨r, q⟩ := e
        cases hs
        refine ⟨_, rfl, rfl, rfl, ?_⟩
        cases r with
        | ok => exact .lasts agree
        | error e => exact .same _
  | lasts agree =>
    cases hs
    exact ⟨_, rfl, rfl, rfl, .answers (agree.evaluate v s)⟩
  | answers => cases hs

/-- Where a wait stands depends on the point, and on the parts to come. -/
theorem Twin.standing (h : x.Twin x') (held : Wait.held frames = Wait.held frames')
    (todo : List.Forall₂ Guard.Twin (Wait.todo frames) (Wait.todo frames')) :
    (⟨x, frames⟩ : Wait S).standing.Twin (⟨x', frames'⟩ : Wait S).standing := by
  have answered {r r' : Answer} (alike : r.Alike r') :
      (⟨.done r, frames⟩ : Wait S).standing.Twin (⟨.done r', frames'⟩ : Wait S).standing := by
    cases alike with
    | same => cases r with
      | ok b => exact ⟨congrArg (b && ·) held, todo⟩
      | _ => exact .same _
    | panicked l l' => exact .panicked l l'
  cases h with
  | same => cases x with
    | enter g => exact ⟨held, List.rel_append (Guard.forall₂_twin _) todo⟩
    | done r => exact answered (.same r)
    | _ => exact ⟨.same _, held, todo⟩
  | enter agree => exact ⟨held, .cons (.any agree) todo⟩
  | answers alike => exact answered alike
  | polls external agree => exact ⟨.polls external agree, held, todo⟩
  | aims external agree => exact ⟨.aims external agree, held, todo⟩
  | parks d sleep agree => exact ⟨.parks d sleep agree, held, todo⟩
  | lasts agree => exact ⟨.lasts agree, held, todo⟩

end WaitPoint

namespace Wait

variable {events : List (WaitEvent S)}

/-- Waits that have something to do and stand at the same place are at the same point. -/
theorem twin_of_still (hw : w.passing = false) (hr : ∀ r, w.point ≠ .done r) (hw' : w'.passing = false)
    (twin : w.standing.Twin w'.standing) : w.point.Twin w'.point ∧ held w.frames = held w'.frames ∧
      List.Forall₂ Guard.Twin (todo w.frames) (todo w'.frames) := by
  rcases still hw with ⟨g, hp, hs⟩ | ⟨r, hp, -⟩ | hs
  · rcases still hw' with ⟨g', hp', hs'⟩ | ⟨r', hp', hf'⟩ | hs'
    · rw [hs, hs'] at twin
      obtain ⟨same, parts⟩ := twin
      cases parts with
      | cons first rest =>
        refine ⟨?_, same, rest⟩
        rw [hp, hp']
        cases first with
        | same => exact .same _
        | any agree => exact .enter agree
    · rw [hs, standing, hp', hf'] at twin
      cases r' with
      | ok b => cases twin.2
      | _ => cases twin
    · rw [hs, hs'] at twin
      cases twin
  · exact absurd hp (hr r)
  · rw [hs] at twin
    rcases still hw' with ⟨g', -, hs'⟩ | ⟨r', hp', hf'⟩ | hs'
    · rw [hs'] at twin
      cases twin
    · rw [standing, hp', hf'] at twin
      cases r' <;> cases twin
    · rw [hs'] at twin
      exact twin

/-- A wait that has ended stands where no other one does that has not. -/
theorem result_of_still (hr : w.result? = some r) (hw' : w'.passing = false)
    (twin : w.standing.Twin w'.standing) : ∃ r', w'.result? = some r' ∧ r.Alike r' := by
  obtain ⟨rfl⟩ : w = ⟨.done r, []⟩ := by
    obtain ⟨x, frames⟩ := w
    cases x with
    | done => cases frames with
      | nil =>
        cases hr
        rfl
      | cons => cases hr
    | _ => cases hr
  have alike {r' : Answer} (twin : (⟨.done r, []⟩ : Wait S).standing.Twin (⟨.done r', []⟩ : Wait S).standing) :
      r.Alike r' := by
    cases r with
    | ok b => cases r' with
      | ok b' =>
        obtain ⟨same, -⟩ := twin
        obtain rfl : b = b' := by simpa [held] using same
        exact .same _
      | _ => cases twin
    | _ => cases r' with
      | ok => cases twin
      | _ => exact twin
  rcases still hw' with ⟨g', -, hs'⟩ | ⟨r', hp', hf'⟩ | hs'
  · rw [hs'] at twin
    cases r with
    | ok b => cases twin.2
    | _ => cases twin
  · obtain ⟨x, frames⟩ := w'
    cases hp'
    cases hf'
    exact ⟨r', rfl, alike twin⟩
  · rw [hs'] at twin
    cases r <;> cases twin

/-- A wait that is not within a part is in no park. -/
theorem within_or_outside (w : Wait S) : w.standing = .within w.point (held w.frames) (todo w.frames) ∨
    ((∀ x b gs, w.standing ≠ .within x b gs) ∧ w.park? = none ∧ w.notify = w) := by
  obtain ⟨x, frames⟩ := w
  cases x with
  | enter g => exact .inr ⟨by simp [standing], rfl, rfl⟩
  | done r => cases r <;> exact .inr ⟨by simp [standing], rfl, rfl⟩
  | _ => exact .inl rfl

/-- Waits that stand at the same place are within the same part, or both within none. -/
theorem twin_cases (twin : w.standing.Twin w'.standing) :
    (w.point.Twin w'.point ∧ held w.frames = held w'.frames ∧
        List.Forall₂ Guard.Twin (todo w.frames) (todo w'.frames)) ∨
      (w.park? = none ∧ w'.park? = none ∧ w.notify = w ∧ w'.notify = w') := by
  rcases within_or_outside w with hs | ⟨outside, park, same⟩ <;>
    rcases within_or_outside w' with hs' | ⟨outside', park', same'⟩
  · rw [hs, hs'] at twin
    exact .inl twin
  · rw [hs] at twin
    cases hs' : w'.standing with
    | within x b gs => exact absurd hs' (outside' x b gs)
    | _ =>
      rw [hs'] at twin
      cases twin
  · rw [hs'] at twin
    cases hs : w.standing with
    | within x b gs => exact absurd hs (outside x b gs)
    | _ =>
      rw [hs] at twin
      cases twin
  · exact .inr ⟨park, park', same, same'⟩

theorem notify_twin (twin : w.standing.Twin w'.standing) : w.notify.standing.Twin w'.notify.standing := by
  rcases twin_cases twin with ⟨point, held, todo⟩ | ⟨-, -, same, same'⟩
  · obtain ⟨x, frames⟩ := w
    obtain ⟨x', frames'⟩ := w'
    cases point with
    | same => cases x <;> exact WaitPoint.Twin.standing (.same _) held todo
    | parks d sleep agree => exact WaitPoint.Twin.standing (.parks d sleep.notify agree) held todo
    | enter agree => exact WaitPoint.Twin.standing (.enter agree) held todo
    | polls external agree => exact WaitPoint.Twin.standing (.polls external agree) held todo
    | aims external agree => exact WaitPoint.Twin.standing (.aims external agree) held todo
    | lasts agree => exact WaitPoint.Twin.standing (.lasts agree) held todo
    | answers alike => exact WaitPoint.Twin.standing (.answers alike) held todo
  · rwa [same, same']

/-- Who stands at the same place is in the same park. -/
theorem park?_twin (twin : w.standing.Twin w'.standing) : w'.park? = w.park? := by
  rcases twin_cases twin with ⟨point, -⟩ | ⟨park, park', -⟩
  · obtain ⟨x, frames⟩ := w
    obtain ⟨x', frames'⟩ := w'
    cases point <;> rfl
  · rw [park, park']

/-- Waits that stand at the same place take the same step, if they have something to do. -/
theorem step_twin {move : WaitMove S} (hw : w.passing = false) (hw' : w'.passing = false)
    (twin : w.standing.Twin w'.standing) (h : w.step v s p = some move) :
    ∃ move', w'.step v s p = some move' ∧ move'.joins = move.joins ∧ move'.parker = move.parker ∧
      move.wait.standing.Twin move'.wait.standing := by
  have going (r : Answer) : w.point ≠ .done r := by
    obtain ⟨x, frames⟩ := w
    rintro rfl
    cases frames with
    | nil => cases h
    | cons => cases hw
  obtain ⟨point, held, todo⟩ := twin_of_still hw going hw' twin
  have going' (r : Answer) : w'.point ≠ .done r := by
    intro e
    rw [e] at point
    generalize w.point = x at point going
    cases point with
    | same => exact going r rfl
    | answers => exact going _ rfl
  obtain ⟨x, frames⟩ := w
  obtain ⟨x', frames'⟩ := w'
  rw [step_within frames hw going] at h
  obtain ⟨alone, hs, rfl⟩ := Option.map_eq_some_iff.mp h
  obtain ⟨alone', hs', joins, parker, next⟩ := point.step hs
  refine ⟨{ alone' with wait := ⟨alone'.wait.point, frames'⟩ }, ?_, joins, parker, next.standing held todo⟩
  rw [step_within frames' hw' going', hs']
  rfl

theorem Plays.trans {later : List (WaitEvent S)} {w₂ : Wait S} (h : w.Plays events w₁)
    (h' : w₁.Plays later w₂) : w.Plays (events ++ later) w₂ := by
  induction h with
  | refl => exact h'
  | passes hw hs _ ih => exact .passes hw hs (ih h')
  | does hw hs _ ih => exact .does hw hs (ih h')
  | notified _ ih => exact .notified (ih h')

/-- Waits that stand at the same place go on to stand at the same place. -/
theorem Plays.twin (h : w.Plays events w₁) (twin : w.standing.Twin w'.standing) :
    ∃ w₁', w'.Plays events w₁' ∧ w₁.standing.Twin w₁'.standing := by
  induction h generalizing w' with
  | refl => exact ⟨w', .refl w', twin⟩
  | @passes w w₁ v s p move events hw hs _ ih =>
    obtain ⟨next, same, -, step⟩ := passing_step hw
    cases hs.symm.trans (step v s p)
    exact ih (same ▸ twin)
  | @does w w₁ v s p move events hw hs _ ih =>
    obtain ⟨still, settled, hw', same⟩ := settles s w'
    obtain ⟨move', hs', joins, parker, next⟩ := step_twin hw hw' (same ▸ twin) hs
    obtain ⟨w₁', plays, twin'⟩ := ih next
    refine ⟨w₁', settled.trans ?_, twin'⟩
    rw [← joins, ← parker, ← park?_twin next]
    exact .does hw' hs' plays
  | notified _ ih =>
    obtain ⟨w₁', plays, twin'⟩ := ih (notify_twin twin)
    exact ⟨w₁', .notified plays, twin'⟩

/-- A wait that has come to an answer has done so in a state. -/
theorem Plays.state (h : w.Plays events w₁) (hw : w.result? = none) (hr : w₁.result? = some r) :
    Nonempty S := by
  induction h with
  | refl =>
    rw [hw] at hr
    cases hr
  | passes _ hs => exact ⟨by assumption⟩
  | does _ hs => exact ⟨by assumption⟩
  | @notified w w₁ events _ ih =>
    refine ih ?_ hr
    obtain ⟨x, frames⟩ := w
    cases x with
    | done => exact hw
    | _ => rfl

/-- Waits for guards with the same parts mirror each other. -/
theorem mirrors_of_conjuncts (h : List.Forall₂ Guard.Twin g.conjuncts g'.conjuncts) :
    (Wait.start g).Mirrors (.start g') := by
  intro events w₁ plays
  have twin : (Wait.start g).standing.Twin (Wait.start g').standing :=
    ⟨rfl, List.rel_append h .nil⟩
  obtain ⟨w₁', plays', twin'⟩ := plays.twin twin
  cases hr : w₁.result? with
  | none => exact ⟨w₁', plays', park?_twin twin', fun r hr => by cases hr⟩
  | some r =>
    obtain ⟨s⟩ := plays.state rfl hr
    obtain ⟨settled, rest, still, same⟩ := settles s w₁'
    rw [← same] at twin'
    refine ⟨settled, ?_, park?_twin twin', fun r' hr' => ?_⟩
    · simpa using plays'.trans rest
    · cases hr'
      exact result_of_still hr still twin'

end Wait

/-- Nobody can tell `g` and `g'` apart, but for the descriptions under which panics are reported. -/
structure Guard.Indistinct (g g' : Guard S) : Prop where
  agree : Agree g g'
  evaluate (v : Sight) (s : S) : Answer.Alike (g.evaluate v s) (g'.evaluate v s)
  /-- Each wait for one of them is a wait for the other as far as can be seen. -/
  waits : (Wait.start g).Mirrors (.start g') ∧ (Wait.start g').Mirrors (.start g)

/-- An `all` inside an `all`, or an `any` inside an `any`, is as good as its parts in its place, wherever
it stands. -/
theorem guards_associative (h : g.Splices g') : g.Indistinct g' where
  agree := h.agree
  evaluate := h.agree.evaluate
  waits := by
    have parts := h.conjuncts
    refine ⟨Wait.mirrors_of_conjuncts parts, Wait.mirrors_of_conjuncts (parts.flip.imp fun _ _ => ?_)⟩
    exact Guard.Twin.symm

def stocked : Guard Nat := .field "stock" fun n => .ok (0 < n)

def nested : Guard Nat :=
  .all [stocked, .any [.timer (some 5) 5, .any [.future ⟨1⟩, .any []]], .all []]

def flattened : Guard Nat :=
  .all [stocked, .any [.timer (some 5) 5, .future ⟨1⟩, .any []], .all []]

theorem guards_associative_nested : nested.Splices flattened ∧ nested.Indistinct flattened ∧
    (nested.label ⟨0, fun _ => false, 0⟩).toOption ≠ (flattened.label ⟨0, fun _ => false, 0⟩).toOption ∧
    (nested.deadline ⟨0, fun _ => false, 0⟩).toOption = some (some 5) := by
  have splices : nested.Splices flattened :=
    .withinAll [stocked] [.all []] (.any [.timer (some 5) 5] [.future ⟨1⟩, .any []] [])
  exact ⟨splices, guards_associative splices, by decide +kernel, by decide +kernel⟩

end ObjectGroups
