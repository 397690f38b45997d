/-
An action as seen from one cog.

Most of what happens is nothing to a cog: its scheduler stays as it is, and its
threads keep the tasks they host (`Beside`). What is left is one deed in the
cog, or the birth of a context that gets its slot. `Shift.vantage` sorts all
actions this way, so that what a cog and its threads keep is proved from three
cases.
-/
import ObjectGroups.Proofs.Suspension

namespace ObjectGroups

variable {S A V : Type} {m m' : Machine S A V} {a b : Agent} {g : CogId}
  {own : Option CogId} {s s' : Stance} {x x' : Cog S A V} {actor : Option Agent}

namespace Stance

/-- The task that the thread has put into the queue of `g` without knowing yet whether it
is accepted. -/
def offers (g : CogId) : Stance → Option TaskId
  | .submit _ _ h view => if h = g then some view.id else none
  | _ => none

/-- The unfinished task that the thread hosts. -/
def charge (s : Stance) : Option TaskId :=
  match s.seat? with
  | some ⟨t, true⟩ => some t
  | _ => s.suspends

@[simp] theorem offers_restage (s : Stance) (g : CogId) (stage : Stage) :
    (s.restage stage).offers g = s.offers g := by cases s <;> rfl

@[simp] theorem charge_restage (s : Stance) (stage : Stage) :
    (s.restage stage).charge = s.charge := by
  simp [charge]

theorem charge_eq {t : TaskId} (h : s.charge = some t) : ∃ active, s.seat? = some ⟨t, active⟩ := by
  unfold charge at h
  split at h
  · next k hs =>
    cases h
    exact ⟨true, hs⟩
  · cases s with
    | hand stage k | wait k | contend k =>
      cases h
      exact ⟨false, rfl⟩
    | _ => cases h

theorem offers_lock {t : TaskId} (h : s.offers g = some t) (own : Option CogId) :
    s.lock own = some g ∧ s.grants = true := by
  cases s with
  | submit stage seat i view =>
    by_cases hi : i = g
    · exact ⟨congrArg some hi, rfl⟩
    · simp [offers, hi] at h
  | _ => cases h

/-- For the cog `g` it is all the same in which of the two stances a thread is. -/
structure Alike (g : CogId) (own : Option CogId) (s s' : Stance) : Prop where
  offers : s'.offers g = s.offers g
  grants : (s'.lock own = some g ∧ s'.grants = true) ↔ (s.lock own = some g ∧ s.grants = true)
  enrols : ∀ seat view, s = .enrol seat g view → s' = s
  seat : own = some g → s'.seat? = s.seat?
  charge : own = some g → s'.charge = s.charge
  claim : own = some g → (s' = .claim ↔ s = .claim)

namespace Alike

theorem refl (s : Stance) : Alike g own s s where
  offers := rfl
  grants := .rfl
  enrols _ _ _ := rfl
  seat _ := rfl
  charge _ := rfl
  claim _ := .rfl

theorem slot (h : Alike g own s s') (hown : own = some g) : s'.slot = s.slot := by
  have claim := h.claim hown
  simp [Stance.slot, h.seat hown, claim]

theorem restage {stage : Stage} (hs : s.stage?.isSome) :
    Alike g own s (s.restage stage) where
  offers := by simp
  grants := by simp
  enrols seat view e := by
    rw [e] at hs
    cases hs
  seat _ := by simp
  charge _ := by simp
  claim _ := by cases s <;> simp [Stance.restage]

theorem quiet (h : s.Quiet own s') : Alike g own s s' := by
  cases h with
  | same => exact .refl _
  | enter _ c hs => exact .restage (by simp [hs])
  | await t => constructor <;> simp [Stance.offers, Stance.lock, Stance.grants, Stance.seat?, Stance.charge]
  | leave seat hown =>
    constructor
    case seat | charge =>
      rintro rfl
      obtain rfl : seat = none := hown.resolve_left (Option.some_ne_none _)
      rfl
    all_goals simp [Stance.offers, Stance.lock, Stance.grants]
  | strand | start | dropped =>
    constructor <;> simp [Stance.offers, Stance.lock, Stance.grants, Stance.seat?, Stance.charge,
      Stance.suspends]

end Alike

end Stance

/-- What becomes of a thread while nothing happens to the cog `g`: its cog and stance before and after. -/
inductive Beside (g : CogId) : Option (Option CogId × Stance) → Option (Option CogId × Stance) → Prop where
  | absent : Beside g none none
  | stays {own : Option CogId} {s s' : Stance} : Stance.Alike g own s s' →
      Beside g (some (own, s)) (some (own, s'))
  | goes {own : Option CogId} {s : Stance} : s = .leave ∨ (own = none ∧ ∃ seat, s = .body seat) →
      Beside g (some (own, s)) none
  | comes {own : Option CogId} {s : Stance} : own ≠ some g → s = .claim ∨ s = .body none →
      Beside g none (some (own, s))

namespace Beside

theorem same {p q : Option (Option CogId × Stance)} (h : q = p) : Beside g p q := by
  subst h
  cases q with
  | none => exact .absent
  | some p => exact .stays (.refl _)

theorem turns (ht : Turns m a own s s' m') (h : Stance.Alike g own s s') (b : Agent) :
    Beside g (m.look b) (m'.look b) := by
  by_cases hb : b = a
  · rw [hb, ht.before, ht.after]
    exact .stays h
  · exact .same (ht.others b hb).look

theorem births (ho : m.Ordered) {c : ContextId} {cog : Option CogId} {first : Stance}
    (hb : Births m a own s s' c cog first m') (hcog : cog ≠ some g)
    (hfirst : first = .claim ∨ first = .body none) (h : Stance.Alike g own s s') (b : Agent) :
    Beside g (m.look b) (m'.look b) := by
  by_cases hba : b = a
  · rw [hba, hb.before, hb.after]
    exact .stays h
  · by_cases hbc : b = .context c
    · rw [hbc, ho.unlaunched hb.before hb.launches, hb.born]
      exact .comes hcog hfirst
    · exact .same (hb.others b hba hbc).look

variable (h : Beside g (m.look b) (m'.look b))
include h

/-- A thread of the cog was there before, and to the cog it is where it was. -/
theorem before {own' : Option CogId} {s' : Stance} (hl : m'.look b = some (own', s')) :
    (∃ s, m.look b = some (own', s) ∧ Stance.Alike g own' s s') ∨
      (own' ≠ some g ∧ (s' = .claim ∨ s' = .body none)) := by
  rw [hl] at h
  cases hb : m.look b with
  | none =>
    rw [hb] at h
    cases h with
    | comes other first => exact .inr ⟨other, first⟩
  | some p =>
    rw [hb] at h
    cases h with
    | stays alike => exact .inl ⟨_, rfl, alike⟩

theorem after {own' : Option CogId} {s : Stance} (hl : m.look b = some (own', s)) :
    (∃ s', m'.look b = some (own', s') ∧ Stance.Alike g own' s s') ∨
      (s = .leave ∨ (own' = none ∧ ∃ seat, s = .body seat)) := by
  rw [hl] at h
  cases hb : m'.look b with
  | none =>
    rw [hb] at h
    cases h with
    | goes last => exact .inr last
  | some p =>
    rw [hb] at h
    cases h with
    | stays alike => exact .inl ⟨_, rfl, alike⟩

end Beside

/-- What an action comes to as seen from the cog `g`. -/
inductive Vantage (m : Machine S A V) (g : CogId) (m' : Machine S A V) : Option Agent → Prop where
  | aside {actor : Option Agent} : (∀ b, Beside g (m.look b) (m'.look b)) →
      ((m.cogs.get? g = none ∧ ∀ x', m'.cogs.get? g = some x' → x'.scheduler = {} ∧ x'.lock = none) ∨
        ∃ x x', m.cogs.get? g = some x ∧ m'.cogs.get? g = some x' ∧
          x'.scheduler = x.scheduler ∧ x'.lock = x.lock) → Vantage m g m' actor
  | deed {a : Agent} {own : Option CogId} {loud : Bool} {s s' : Stance} {x x' : Cog S A V} :
      Turns m a own s s' m' → Works m g x x' m' → Deed g a own loud s x s' x' →
      Vantage m g m' (some a)
  | grant {a : Agent} {own : Option CogId} {s s' : Stance} {c : ContextId} {x x' : Cog S A V} :
      Births m a own s s' c (some g) .claim m' → Works m g x x' m' → Grant g c a own s x s' x' →
      Vantage m g m' (some a)

/-- A deed in another cog. -/
theorem Deed.alike {i : CogId} {loud : Bool} (h : Deed i a own loud s x s' x') (hi : i ≠ g) :
    Stance.Alike g own s s' := by
  have ne : ¬ i = g := hi
  cases h with
  | abort now hs => rcases hs with rfl | ⟨rfl, -⟩ <;>
      constructor <;> simp [Stance.offers, Stance.lock, Stance.grants, ne]
  | _ => constructor <;> simp [Stance.offers, Stance.lock, Stance.grants, Stance.seat?, Stance.charge,
      Stance.suspends, ne]

theorem Grant.alike {i : CogId} {c : ContextId} (h : Grant i c a own s x s' x') (hi : i ≠ g) :
    Stance.Alike g own s s' := by
  have ne : ¬ i = g := hi
  cases h <;> constructor <;> simp [Stance.offers, Stance.lock, Stance.grants, Stance.seat?,
    Stance.charge, Stance.suspends, ne]

theorem Shift.vantage (ho : m.Ordered) (h : Shift m m' actor) (g : CogId) :
    Vantage m g m' actor := by
  have same (hb : ∀ b, Beside g (m.look b) (m'.look b)) (hc : m'.cogs.get? g = m.cogs.get? g) :
      Vantage m g m' actor := by
    refine .aside hb ?_
    cases hx : m.cogs.get? g with
    | none => exact .inl ⟨rfl, fun x' hx' => by rw [hc, hx] at hx'; cases hx'⟩
    | some x => exact .inr ⟨x, x, rfl, hc.trans hx, rfl, rfl⟩
  have elsewhere {i : CogId} {y y' : Cog S A V} (hw : Works m i y y' m') (hi : i ≠ g) :
      m'.cogs.get? g = m.cogs.get? g := hw.elsewhere hi.symm
  cases h with
  | quiet ht hq hc => exact same (Beside.turns ht (.quiet hq)) (by rw [hc])
  | @deed a own i loud s s' y y' ht hw hd =>
    by_cases hi : i = g
    · subst hi
      exact .deed ht hw hd
    · exact same (Beside.turns ht (hd.alike hi)) (elsewhere hw hi)
  | allocate ht hs hc => exact same (Beside.turns ht (.restage (by simp [hs]))) (by rw [hc])
  | @birth a own s s' c i y y' hb hw hg =>
    by_cases hi : i = g
    · subst hi
      exact .grant hb hw hg
    · exact same (Beside.births ho hb (by simp [hi]) (.inl rfl) (hg.alike hi)) (elsewhere hw hi)
  | launch hb hc =>
    refine same (Beside.births ho hb nofun (.inr rfl) ?_) (by rw [hc])
    constructor <;> simp [Stance.offers, Stance.lock, Stance.grants, Stance.seat?, Stance.charge,
      Stance.suspends]
  | letter ht hs hc =>
    refine same (Beside.turns ht ?_) (by rw [hc])
    rcases hs with rfl | ⟨i, view, rfl, -⟩
    · exact .refl _
    · constructor <;> simp [Stance.offers, Stance.lock, Stance.grants, Stance.seat?, Stance.charge,
        Stance.suspends]
  | @gone a own s hl hs hgone others hc =>
    refine same (fun b => ?_) (by rw [hc])
    by_cases hb : b = a
    · subst hb
      have after : m'.look b = none := by simp [Machine.look, hgone]
      rw [hl, after]
      rcases hs with rfl | ⟨⟨n, rfl⟩, seat, rfl⟩
      · exact .goes (.inl rfl)
      · -- A caller works for no cog.
        cases own with
        | none => exact .goes (.inr ⟨rfl, seat, rfl⟩)
        | some i =>
          obtain ⟨⟨c, e⟩, -⟩ := ho.home hl
          cases e
    · exact .same (others b hb).look
  | arrive hl others hc =>
    refine same (fun b => ?_) (by rw [hc])
    by_cases hb : b = .caller m.nextCaller
    · have absent : m.look (.caller m.nextCaller) = none := by
        cases habs : m.look (.caller m.nextCaller) with
        | none => rfl
        | some p => exact absurd (ho.newCaller (by simp [habs])) (Nat.lt_irrefl _)
      rw [hb, hl, absent]
      exact .comes nofun (.inr rfl)
    · exact .same (others b hb).look
  | found name state others hc =>
    have beside (b : Agent) : Beside g (m.look b) (m'.look b) := .same (others b).look
    by_cases hg : g = ⟨m.nextCog⟩
    · refine .aside beside (.inl ⟨?_, fun x' hx' => ?_⟩)
      · cases habs : m.cogs.get? g with
        | none => rfl
        | some y =>
          have present := ho.newCog (g := g) (by simp [habs])
          simp [hg] at present
      · rw [hc, Table.get?_put, if_pos hg] at hx'
        cases hx'
        exact ⟨rfl, rfl⟩
    · exact same beside (by rw [hc, Table.get?_put, if_neg hg])
  | @furnish i f hth hc hf =>
    have beside (b : Agent) : Beside g (m.look b) (m'.look b) := .same (Machine.Stirred.same hth).look
    by_cases hi : g = i
    · refine .aside beside ?_
      cases hx : m.cogs.get? g with
      | none =>
        refine .inl ⟨rfl, fun x' hx' => ?_⟩
        rw [hc, Table.get?_modify, hx] at hx'
        split at hx' <;> cases hx'
      | some x =>
        refine .inr ⟨x, f x, rfl, ?_, by rw [hf], by rw [hf]⟩
        rw [hc, Table.get?_modify, if_pos hi, hx]
        rfl
    · exact same beside (by rw [hc, Table.get?_modify, if_neg hi])
  | rest others hc => exact same (fun b => .same (others b).look) (by rw [hc])

/-- What has come to pass for a cog that has these contents after the action. -/
inductive Aftermath (m : Machine S A V) (g : CogId) (m' : Machine S A V) (x' : Cog S A V) : Option Agent → Prop where
  | founded {actor : Option Agent} : (∀ b, Beside g (m.look b) (m'.look b)) → m.cogs.get? g = none →
      x'.scheduler = {} → x'.lock = none → Aftermath m g m' x' actor
  | aside {actor : Option Agent} {x : Cog S A V} : (∀ b, Beside g (m.look b) (m'.look b)) →
      m.cogs.get? g = some x → x'.scheduler = x.scheduler → x'.lock = x.lock → Aftermath m g m' x' actor
  | deed {a : Agent} {own : Option CogId} {loud : Bool} {s s' : Stance} {x : Cog S A V} :
      Turns m a own s s' m' → Works m g x x' m' → Deed g a own loud s x s' x' → Aftermath m g m' x' (some a)
  | grant {a : Agent} {own : Option CogId} {s s' : Stance} {c : ContextId} {x : Cog S A V} :
      Births m a own s s' c (some g) .claim m' → Works m g x x' m' → Grant g c a own s x s' x' →
      Aftermath m g m' x' (some a)

theorem Shift.aftermath (ho : m.Ordered) (h : Shift m m' actor) (hx' : m'.cogs.get? g = some x') :
    Aftermath m g m' x' actor := by
  cases h.vantage ho g with
  | aside hb hx =>
    rcases hx with ⟨absent, new⟩ | ⟨x, y, hx, hy, same, lock⟩
    · exact .founded hb absent (new x' hx').1 (new x' hx').2
    · cases hy.symm.trans hx'
      exact .aside hb hx same lock
  | deed ht hw hd =>
    cases hw.here.symm.trans hx'
    exact .deed ht hw hd
  | grant hb hw hg =>
    cases hw.here.symm.trans hx'
    exact .grant hb hw hg

end ObjectGroups
