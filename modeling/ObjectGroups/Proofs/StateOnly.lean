/-
Guards that look at nothing but the state of their cog.

Asking such a guard and waiting for it are two ways through the same tree. To
ask stops at the first part of an `all` that is not true; a wait goes on after
a part that is false, since every part outside the cog must have had its wait.
So a wait asks all the parts that `all` connects (`Guard.conjuncts`) and fails
if any of them does, also one that would not have been asked, while within an
`any` it asks as always. Unless it fails behind a part that is false, the wait
answers what the guard answers; and it neither parks nor subscribes.
-/
import ObjectGroups.Proofs.Waits

namespace ObjectGroups

variable {S : Type} {v v' : Sight} {s : S} {p : Parker}

namespace Guard

mutual

/-- Whether the guard is put together from predicates on the state alone. -/
def stateOnly : Guard S → Bool
  | .always => true
  | .field _ _ => true
  | .all gs => allStateOnly gs
  | .any gs => allStateOnly gs
  | _ => false

def allStateOnly : List (Guard S) → Bool
  | [] => true
  | g :: gs => stateOnly g && allStateOnly gs

end

mutual

/-- The parts that `all` connects, in order. -/
def conjuncts : Guard S → List (Guard S)
  | .all gs => conjunctsOf gs
  | g => [g]

def conjunctsOf : List (Guard S) → List (Guard S)
  | [] => []
  | g :: gs => conjuncts g ++ conjunctsOf gs

end

/-- Both answers taken together: the first failure, or whether both are true. -/
def both : Answer → Answer → Answer
  | .ok a, .ok b => .ok (a && b)
  | .ok _, r => r
  | r, _ => r

/-- Every guard is asked, in order, until one fails. -/
def askAll (v : Sight) (s : S) : List (Guard S) → Answer
  | [] => .ok true
  | g :: gs => both (g.evaluate v s) (askAll v s gs)

theorem allStateOnly_iff {gs : List (Guard S)} :
    allStateOnly gs = true ↔ ∀ g ∈ gs, g.stateOnly = true := by
  induction gs with
  | nil => simp [allStateOnly]
  | cons g gs ih => simp [allStateOnly, ih]

theorem timed_of_stateOnly {g : Guard S} (h : g.stateOnly = true) (i : Timing) : g.timed i = true := by
  induction g using induct generalizing i with
  | all gs ih => exact allTimed_iff.mpr fun g hg => ih g hg (allStateOnly_iff.mp h g hg) _
  | any gs ih => exact allTimed_iff.mpr fun g hg => ih g hg (allStateOnly_iff.mp h g hg) _
  | future f => cases h
  | timer d r => cases h
  | user u => cases h
  | _ => rfl

theorem library_of_stateOnly {g : Guard S} (h : g.stateOnly = true) : g.library = true :=
  library_of_timed (timed_of_stateOnly h .nowhere)

theorem sources_stateOnly {g : Guard S} (h : g.stateOnly = true) (v : Sight) :
    g.sources v = ([], .ok false) := by
  have lists {gs : List (Guard S)} (ih : ∀ g ∈ gs, g.sources v = ([], .ok false)) :
      sourcesOf v gs = ([], .ok false) := by
    induction gs with
    | nil => rfl
    | cons g gs ih' =>
      rw [List.forall_mem_cons] at ih
      rw [sourcesOf, ih.1, ih' ih.2]
      rfl
  induction g using induct with
  | all gs ih => exact lists fun g hg => ih g hg (allStateOnly_iff.mp h g hg)
  | any gs ih => exact lists fun g hg => ih g hg (allStateOnly_iff.mp h g hg)
  | future f => cases h
  | timer d r => cases h
  | user u => cases h
  | _ => rfl

theorem label_stateOnly {g : Guard S} (h : g.stateOnly = true) (v v' : Sight) :
    g.label v = g.label v' := by
  have lists {gs : List (Guard S)} (ih : ∀ g ∈ gs, g.label v = g.label v') :
      labels v gs = labels v' gs := by
    induction gs with
    | nil => rfl
    | cons g gs ih' =>
      rw [List.forall_mem_cons] at ih
      rw [labels, labels, ih.1, ih' ih.2]
  induction g using induct with
  | all gs ih => rw [label, label, lists fun g hg => ih g hg (allStateOnly_iff.mp h g hg)]
  | any gs ih => rw [label, label, lists fun g hg => ih g hg (allStateOnly_iff.mp h g hg)]
  | future f => cases h
  | timer d r => cases h
  | user u => cases h
  | _ => rfl

/-- Neither the clock nor the futures matter to it. -/
theorem evaluate_stateOnly {g : Guard S} (h : g.stateOnly = true) (v v' : Sight) (s : S) :
    g.evaluate v s = g.evaluate v' s := by
  have nothing : g.reads = [] := by rw [reads, sources_stateOnly h]
  have polled : g.poll v s = g.poll v' s :=
    poll_congr (timed_of_stateOnly h .nowhere) (fun hi => absurd rfl hi) (by simp [nothing])
  rw [evaluate, evaluate, polled, label_stateOnly h v v']

/-! ## The parts that `all` connects -/

/-- What holds of a guard, and is handed down by `all`, holds of the parts. -/
theorem forall_conjuncts {P : Guard S → Prop} (hP : Inherited P) {g : Guard S} (h : P g) :
    ∀ q ∈ g.conjuncts, P q := by
  have lists {gs : List (Guard S)} (ih : ∀ g ∈ gs, ∀ q ∈ g.conjuncts, P q) :
      ∀ q ∈ conjunctsOf gs, P q := by
    induction gs with
    | nil => simp [conjunctsOf]
    | cons g gs ih' =>
      rw [List.forall_mem_cons] at ih
      exact List.forall_mem_append.mpr ⟨ih.1, ih' ih.2⟩
  induction g using induct with
  | all gs ih => exact lists fun g hg => ih g hg (hP.all h g hg)
  | _ => simpa [conjuncts] using h

theorem mem_conjunctsOf {gs : List (Guard S)} {q : Guard S} :
    q ∈ conjunctsOf gs ↔ ∃ g ∈ gs, q ∈ g.conjuncts := by
  induction gs with
  | nil => simp [conjunctsOf]
  | cons g gs ih => simp [conjunctsOf, ih]

theorem pollAll_append_true {gs : List (Guard S)} (hs : List (Guard S))
    (h : pollAll v s gs = .ok true) : pollAll v s (gs ++ hs) = pollAll v s hs := by
  induction gs with
  | nil => rfl
  | cons g gs ih =>
    rw [pollAll] at h
    split at h
    · next holds =>
      simp only [List.cons_append, pollAll, holds]
      exact ih h
    · next fails => exact absurd h fails

theorem pollAll_append_stop {gs : List (Guard S)} (hs : List (Guard S))
    (h : pollAll v s gs ≠ .ok true) : pollAll v s (gs ++ hs) = pollAll v s gs := by
  induction gs with
  | nil => exact absurd rfl h
  | cons g gs ih =>
    simp only [List.cons_append, pollAll] at h ⊢
    split
    · next holds =>
      simp only [holds] at h
      exact ih h
    · rfl

/-- To ask the guard is to ask them up to the first that is not true. -/
theorem pollAll_conjuncts (v : Sight) (s : S) (g : Guard S) : pollAll v s g.conjuncts = g.poll v s := by
  have lists {gs : List (Guard S)} (ih : ∀ g ∈ gs, pollAll v s g.conjuncts = g.poll v s) :
      pollAll v s (conjunctsOf gs) = pollAll v s gs := by
    induction gs with
    | nil => rfl
    | cons g gs ih' =>
      rw [List.forall_mem_cons] at ih
      rw [conjunctsOf, pollAll]
      split
      · next holds => rw [pollAll_append_true _ (ih.1.trans holds), ih' ih.2]
      · next fails => rw [pollAll_append_stop _ (ih.1.symm ▸ fails), ih.1]
  have single (g : Guard S) : pollAll v s [g] = g.poll v s := by
    rw [pollAll, pollAll]
    split
    · next h => exact h.symm
    · rfl
  induction g using induct with
  | all gs ih => exact lists ih
  | _ => exact single _

@[simp] theorem both_true (r : Answer) : both r (.ok true) = r := by
  cases r <;> simp [both]

theorem both_assoc (a b c : Answer) : both (both a b) c = both a (both b c) := by
  cases a <;> cases b <;> cases c <;> simp [both, Bool.and_assoc]

theorem askAll_append (v : Sight) (s : S) (gs hs : List (Guard S)) :
    askAll v s (gs ++ hs) = both (askAll v s gs) (askAll v s hs) := by
  induction gs with
  | nil =>
    cases h : askAll v s hs <;> simp [askAll, both, h]
  | cons g gs ih => rw [List.cons_append, askAll, askAll, ih, both_assoc]

theorem askAll_ok {gs : List (Guard S)} :
    (∃ b, askAll v s gs = .ok b) ↔ ∀ g ∈ gs, ∃ b, g.evaluate v s = .ok b := by
  induction gs with
  | nil => simp [askAll]
  | cons g gs ih =>
    rw [List.forall_mem_cons, ← ih, askAll]
    cases g.evaluate v s <;> cases askAll v s gs <;> simp [both]

/-- Unless one of them fails, it does not matter whether all are asked or those up to the first that
is not true. -/
theorem pollAll_of_askAll {gs : List (Guard S)} {b : Bool} (h : askAll v s gs = .ok b) :
    pollAll v s gs = .ok b := by
  induction gs generalizing b with
  | nil => exact h
  | cons g gs ih =>
    rw [askAll] at h
    cases hg : g.evaluate v s with
    | ok a => cases hgs : askAll v s gs with
      | ok a' =>
        rw [hg, hgs] at h
        cases h
        rw [pollAll, evaluate_ok.mp hg]
        cases a with
        | true => exact ih hgs
        | false => rfl
      | _ => simp [hg, hgs, both] at h
    | _ => simp [hg, both] at h

/-- A failure is that of the first guard that fails. -/
theorem askAll_error {gs : List (Guard S)} {e : GuardError} (h : askAll v s gs = .error e) :
    ∃ before g behind, gs = before ++ g :: behind ∧ g.evaluate v s = .error e ∧
      ∀ f ∈ before, ∃ a, f.evaluate v s = .ok a := by
  induction gs with
  | nil => cases h
  | cons g gs ih =>
    rw [askAll] at h
    cases hg : g.evaluate v s with
    | ok a =>
      have rest : askAll v s gs = .error e := by
        cases hgs : askAll v s gs <;> simp [hg, hgs, both] at h ⊢
        exact h
      obtain ⟨before, q, behind, rfl, hq, hbefore⟩ := ih rest
      exact ⟨g :: before, q, behind, rfl, hq, List.forall_mem_cons.mpr ⟨⟨a, hg⟩, hbefore⟩⟩
    | error e' =>
      rw [hg] at h
      cases h
      exact ⟨[], g, gs, rfl, hg, by simp⟩
    | panic q => simp [hg, both] at h

theorem askAll_ne_panic {gs : List (Guard S)} (h : ∀ g ∈ gs, g.library = true) (q : Payload) :
    askAll v s gs ≠ .panic q := by
  induction gs with
  | nil => simp [askAll]
  | cons g gs ih =>
    rw [List.forall_mem_cons] at h
    have here := evaluate_ne_panic h.1 v s
    have there := ih h.2
    rw [askAll]
    cases hg : g.evaluate v s with
    | ok a => cases hgs : askAll v s gs with
      | panic q' => exact fun _ => there (by rw [hgs]; simp_all [both])
      | _ => simp [both]
    | error e => simp [both]
    | panic q' => exact absurd hg (here q')

/-- Who has been asked in vain stands behind one that is false. -/
theorem pollAll_reaches {before behind : List (Guard S)} {q : Guard S} {b : Bool}
    (h : pollAll v s (before ++ q :: behind) = .ok b) :
    (∃ f ∈ before, f.poll v s = .ok false) ∨ ∃ a, q.poll v s = .ok a := by
  induction before with
  | nil =>
    rw [List.nil_append, pollAll] at h
    split at h
    · next holds => exact .inr ⟨true, holds⟩
    · exact .inr ⟨b, h⟩
  | cons f before ih =>
    rw [List.cons_append, pollAll] at h
    split at h
    · refine (ih h).imp_left ?_
      rintro ⟨f', hf', refused⟩
      exact ⟨f', List.mem_cons_of_mem f hf', refused⟩
    · next fails => cases b with
      | true => exact absurd h fails
      | false => exact .inl ⟨f, List.mem_cons_self, h⟩

theorem stateOnly_inherited : Inherited (S := S) fun g => g.stateOnly = true where
  all h := allStateOnly_iff.mp h
  timer h := h
  user := Bool.false_ne_true

end Guard

/-! ## Waits -/

/-- The wait ends with the answer while the state is `s`, whatever else changes meanwhile: it parks
nowhere, is registered with no future and leaves the parker as it is. -/
inductive Wait.Concludes (s : S) (p : Parker) : Wait S → Answer → Prop where
  | ended (r : Answer) : Concludes s p ⟨.done r, []⟩ r
  | goes {w w' : Wait S} {r : Answer} : (∀ d sleep after, w.point ≠ .park d sleep after) →
      (∀ v, w.step v s p = some { parker := p, wait := w' }) → Concludes s p w' r → Concludes s p w r

namespace Wait.Concludes

open Guard

variable {frames : List (Bool × List (Guard S))} {R : Answer}

theorem field {name : String} {pred : S → Answer}
    (h : Concludes s p ⟨.done ((Guard.field name pred).evaluate v s), frames⟩ R) :
    Concludes s p ⟨.enter (.field name pred), frames⟩ R := by
  refine .goes (by simp) (fun v' => ?_) h
  rw [evaluate_stateOnly rfl v v']
  rfl

/-- An `any` finds nothing to subscribe to, is asked, and finds no instant to wait for. -/
theorem any {gs : List (Guard S)} (hg : (Guard.any gs).stateOnly = true)
    (h : Concludes s p ⟨.done ((Guard.any gs).evaluate v s), frames⟩ R) :
    Concludes s p ⟨.enter (.any gs), frames⟩ R := by
  have nowhere := timed_of_stateOnly hg .nowhere
  refine .goes (by simp) (fun v' => show _ = some ({ parker := p, wait := ⟨.anyPoll gs false, frames⟩ } : WaitMove S) from ?_) ?_
  · simp only [Wait.step, WaitPoint.enterAny, sources_stateOnly hg]
  · cases he : (Guard.any gs).evaluate v s with
    | ok b => cases b with
      | true =>
        refine .goes (by simp) (fun v' => ?_) (he ▸ h)
        simp only [Wait.step, evaluate_stateOnly hg v' v, he]
      | false =>
        refine .goes (by simp) (fun v' => show _ = some ({ parker := p, wait := ⟨.anyAim gs false, frames⟩ } : WaitMove S) from ?_) ?_
        · simp only [Wait.step, evaluate_stateOnly hg v' v, he]
        · refine .goes (by simp) (fun v' => ?_) (he ▸ h)
          simp only [Wait.step, WaitPoint.aim, deadline_nowhere nowhere]
          rfl
    | _ =>
      refine .goes (by simp) (fun v' => ?_) (he ▸ h)
      simp only [Wait.step, evaluate_stateOnly hg v' v, he]

/-- From the answer of a part of an `all`, by the parts to come. -/
theorem rest {gs : List (Guard S)} (ih : ∀ g ∈ gs, ∀ {frames R},
      Concludes s p ⟨.done (askAll v s g.conjuncts), frames⟩ R → Concludes s p ⟨.enter g, frames⟩ R)
    {b held : Bool}
    (h : Concludes s p ⟨.done (both (.ok (b && held)) (askAll v s (conjunctsOf gs))), frames⟩ R) :
    Concludes s p ⟨.done (.ok b), (held, gs) :: frames⟩ R := by
  induction gs generalizing b held with
  | nil =>
    rw [conjunctsOf, askAll, both_true] at h
    exact .goes (by simp) (fun v' => rfl) h
  | cons g gs ih' =>
    rw [List.forall_mem_cons] at ih
    rw [conjunctsOf, askAll_append] at h
    refine .goes (by simp) (fun v' => rfl) (ih.1 ?_)
    cases hg : askAll v s g.conjuncts with
    | ok b' =>
      refine ih' ih.2 ?_
      rwa [hg, ← both_assoc, both, Bool.and_comm] at h
    | _ =>
      rw [hg] at h
      exact .goes (by simp) (fun v' => rfl) h

/-- A wait for the guard asks all the parts that `all` connects. -/
theorem enter {g : Guard S} (hg : g.stateOnly = true)
    (h : Concludes s p ⟨.done (askAll v s g.conjuncts), frames⟩ R) :
    Concludes s p ⟨.enter g, frames⟩ R := by
  induction g using induct generalizing frames R with
  | always => exact .goes (by simp) (fun v' => rfl) h
  | field name pred =>
    rw [conjuncts, askAll, askAll, both_true] at h
    · exact field h
    · intro gs hgs
      cases hgs
  | all gs ih =>
    have parts := allStateOnly_iff.mp hg
    cases gs with
    | nil => exact .goes (by simp) (fun v' => rfl) h
    | cons g gs =>
      rw [List.forall_mem_cons] at ih parts
      rw [conjuncts, conjunctsOf, askAll_append] at h
      refine .goes (by simp) (fun v' => rfl) (ih.1 parts.1 ?_)
      cases hg : askAll v s g.conjuncts with
      | ok b =>
        refine rest (fun g hg => ih.2 g hg (parts.2 g hg)) ?_
        rwa [hg, ← Bool.and_true b] at h
      | _ =>
        rw [hg] at h
        exact .goes (by simp) (fun v' => rfl) h
  | any gs ih =>
    rw [conjuncts, askAll, askAll, both_true] at h
    · exact any hg h
    · intro gs hgs
      cases hgs
  | future f => cases hg
  | timer d r => cases hg
  | user u => cases hg

end Wait.Concludes

/-! ## Asked and waited for -/

/-- What a wait for the guard comes to while the state is `s`, and what the guard answers. -/
structure Guard.Settles (g : Guard S) (s : S) (r : Answer) : Prop where
  concludes (p : Parker) : (Wait.start g).Concludes s p r
  answers (v : Sight) (b : Bool) : r = .ok b ↔
    g.evaluate v s = .ok b ∧ ∀ q ∈ g.conjuncts, ∃ a, q.evaluate v s = .ok a
  fails (v : Sight) : (∃ e, r = .error e) ↔ ∃ q ∈ g.conjuncts, ∃ e, q.evaluate v s = .error e
  /-- If the guard fails, the wait does. -/
  failed (v : Sight) {e : GuardError} : g.evaluate v s = .error e → ∃ e, r = .error e
  /-- If the wait fails and the guard does not, the guard is false, and the part that fails stands
  behind one that is false. -/
  hidden (v : Sight) {e : GuardError} : r = .error e → (∃ e, g.evaluate v s = .error e) ∨
    g.evaluate v s = .ok false ∧ ∃ before q behind, g.conjuncts = before ++ q :: behind ∧
      (∃ f ∈ before, f.evaluate v s = .ok false) ∧ q.evaluate v s = .error e

namespace Guard

theorem askAll_stateOnly {gs : List (Guard S)} (h : ∀ g ∈ gs, g.stateOnly = true) (v v' : Sight) (s : S) :
    askAll v s gs = askAll v' s gs := by
  induction gs with
  | nil => rfl
  | cons g gs ih =>
    rw [List.forall_mem_cons] at h
    rw [askAll, askAll, evaluate_stateOnly h.1 v v', ih h.2]

section
variable {g : Guard S} (h : g.stateOnly = true)
include h

/-- Either all the parts can be asked, or one of them fails. -/
theorem askAll_conjuncts (v : Sight) (s : S) :
    (∃ b, askAll v s g.conjuncts = .ok b) ∨ ∃ e, askAll v s g.conjuncts = .error e := by
  have parts := forall_conjuncts stateOnly_inherited h
  cases hr : askAll v s g.conjuncts with
  | ok b => exact .inl ⟨b, rfl⟩
  | error e => exact .inr ⟨e, rfl⟩
  | panic q => exact absurd hr (askAll_ne_panic (fun q hq => library_of_stateOnly (parts q hq)) q)

/-- It fails only if one of the parts does. -/
theorem askAll_fails (v : Sight) (s : S) : (∃ e, askAll v s g.conjuncts = .error e) ↔
    ∃ q ∈ g.conjuncts, ∃ e, q.evaluate v s = .error e := by
  constructor
  · rintro ⟨e, he⟩
    obtain ⟨before, q, behind, split, hq, -⟩ := askAll_error he
    exact ⟨q, by simp [split], e, hq⟩
  · rintro ⟨q, hq, e, he⟩
    refine (askAll_conjuncts h v s).resolve_left fun asked => ?_
    obtain ⟨a, ha⟩ := askAll_ok.mp asked q hq
    cases he.symm.trans ha

theorem askAll_failed {e : GuardError} (he : g.evaluate v s = .error e) :
    ∃ e, askAll v s g.conjuncts = .error e := by
  refine (askAll_conjuncts h v s).resolve_left fun ⟨b, hb⟩ => ?_
  have polled := (pollAll_conjuncts v s g).symm.trans (pollAll_of_askAll hb)
  cases he.symm.trans (evaluate_ok.mpr polled)

/-- What the wait for the guard comes to is what asking all its parts does. -/
theorem settles (v : Sight) (s : S) : g.Settles s (askAll v s g.conjuncts) := by
  have parts := forall_conjuncts stateOnly_inherited h
  have same (v' : Sight) : askAll v s g.conjuncts = askAll v' s g.conjuncts := askAll_stateOnly parts v v' s
  refine ⟨fun p => .enter h (.ended _), fun v' b => ?_, fun v' => ?_, ?_, ?_⟩
  · rw [same v']
    constructor
    · intro hb
      have polled := (pollAll_conjuncts v' s g).symm.trans (pollAll_of_askAll hb)
      exact ⟨evaluate_ok.mpr polled, askAll_ok.mp ⟨b, hb⟩⟩
    · rintro ⟨asked, all⟩
      obtain ⟨b', hb'⟩ := askAll_ok.mpr all
      have polled := (pollAll_conjuncts v' s g).symm.trans (pollAll_of_askAll hb')
      cases asked.symm.trans (evaluate_ok.mpr polled)
      exact hb'
  · rw [same v']
    exact askAll_fails h v' s
  · intro v' e he
    rw [same v']
    exact askAll_failed h he
  · intro v' e he
    rw [same v'] at he
    obtain ⟨before, q, behind, split, hq, -⟩ := askAll_error he
    cases asked : g.evaluate v' s with
    | error e' => exact .inl ⟨e', rfl⟩
    | panic q => exact absurd asked (evaluate_ne_panic (library_of_stateOnly h) v' s q)
    | ok b =>
      have polled := (pollAll_conjuncts v' s g).trans (evaluate_ok.mp asked)
      rw [split] at polled
      rcases pollAll_reaches polled with ⟨f, hf, refused⟩ | ⟨a, ha⟩
      · refine .inr ⟨?_, before, q, behind, split, ⟨f, hf, evaluate_ok.mpr refused⟩, hq⟩
        cases b with
        | false => rfl
        | true =>
          rw [← split] at polled
          have holds := pollAll_true.mp polled f (by simp [split, hf])
          cases refused.symm.trans holds
      · cases hq.symm.trans (evaluate_ok.mpr ha)

end

end Guard

end ObjectGroups
