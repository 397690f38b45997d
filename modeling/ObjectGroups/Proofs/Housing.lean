/-
Contexts are entered as what they are.

A thread of a context is live and its entry names the cog it works for, so
nobody else parks on its parker and its wakers are not dropped. Its name has
been accepted by the system, and the name of a context that is started in its
place differs in the number alone: such a start may fail, but does not panic.
-/
import ObjectGroups.Proofs.Aside

namespace ObjectGroups

variable {S A V : Type} {m m' : Machine S A V} {a b : Agent} {g : CogId} {c : ContextId}
  {own : Option CogId} {s s' : Stance} {x x' : Cog S A V} {actor : Option Agent}

open Machine

/-- A number can stand in any name, so what counts is the rest of it. -/
theorem Registry.nameable_iff (r : Registry) (label : String) (c : ContextId) :
    nameable (r.contextName label c) = true ↔
      '\x00' ∉ r.namePrefix.toList ∧ '\x00' ∉ label.toList := by
  have digits (n : Nat) : '\x00' ∉ Nat.toDigits 10 n := fun h =>
    absurd (Nat.isDigit_of_mem_toDigits (by decide) (by decide) h) (by decide)
  unfold nameable contextName
  simp [digits]

/-- Names of contexts differ in numbers. -/
theorem Registry.nameable_contextName (r : Registry) (label : String) (c d : ContextId) :
    nameable (r.contextName label c) = nameable (r.contextName label d) :=
  Bool.eq_iff_iff.mpr ((r.nameable_iff label c).trans (r.nameable_iff label d).symm)

/-! ## Names of cogs -/

theorem Deed.name {loud : Bool} (h : Deed g a own loud s x s' x') : x'.name = x.name := by
  cases h <;> rfl

theorem Grant.name (h : Grant g c a own s x s' x') : x'.name = x.name := by
  cases h <;> rfl

/-- A cog keeps its name. -/
theorem Shift.name (ho : m.Ordered) (h : Shift m m' actor) (hx : m.cogs.get? g = some x)
    (hx' : m'.cogs.get? g = some x') : x'.name = x.name := by
  obtain ⟨y, hy, worked⟩ := h.cog hx (ho.newCog (by simp [hx]))
  cases hy.symm.trans hx'
  cases worked with
  | idle e => rw [e]
  | deed _ hd => exact hd.name
  | grant _ hg => exact hg.name

/-! ## Where threads and starts come from -/

/-- A thread was there before, or has been started by the actor. -/
theorem Shift.origin (h : Shift m m' actor) (hl : m'.look (.context c) = some (own, s)) :
    (∃ s₀, m.look (.context c) = some (own, s₀)) ∨
      ∃ a own₀ s₀, m.look a = some (own₀, s₀) ∧ s₀.stage? = some (.launch c) ∧
        s₀.lock own₀ = own ∧ Registry.nameable (((m.contexts.get? c).map (·.name)).getD "") = true := by
  have turns {a : Agent} {own₁ : Option CogId} {s₁ s₂ : Stance} (ht : Turns m a own₁ s₁ s₂ m') :
      ∃ s₀, m.look (.context c) = some (own, s₀) := by
    rcases ht.cases hl with ⟨e, rfl, -⟩ | ⟨-, hl⟩
    · exact ⟨s₁, e ▸ ht.before⟩
    · exact ⟨s, hl⟩
  have births {a : Agent} {own₁ : Option CogId} {s₁ s₂ : Stance} {d : ContextId}
      {cog : Option CogId} {first : Stance} (hb : Births m a own₁ s₁ s₂ d cog first m')
      (hc : s₁.lock own₁ = cog) : (∃ s₀, m.look (.context c) = some (own, s₀)) ∨
        ∃ a own₀ s₀, m.look a = some (own₀, s₀) ∧ s₀.stage? = some (.launch c) ∧
          s₀.lock own₀ = own ∧
            Registry.nameable (((m.contexts.get? c).map (·.name)).getD "") = true := by
    rcases hb.cases hl with ⟨e, rfl, -⟩ | ⟨-, e, rfl, -⟩ | ⟨-, -, hl⟩
    · exact .inl ⟨s₁, e ▸ hb.before⟩
    · cases e
      exact .inr ⟨a, own₁, s₁, hb.before, hb.launches, hc, hb.named⟩
    · exact .inl ⟨s, hl⟩
  have others (hb : m.Stirred m' (.context c)) : ∃ s₀, m.look (.context c) = some (own, s₀) :=
    ⟨s, hb.look ▸ hl⟩
  cases h with
  | quiet ht => exact .inl (turns ht)
  | deed ht => exact .inl (turns ht)
  | allocate ht => exact .inl (turns ht)
  | letter ht => exact .inl (turns ht)
  | birth hb _ hg => exact births hb (by cases hg <;> rfl)
  | launch hb => exact births hb rfl
  | @gone a _ _ _ _ gone hs =>
    refine .inl (others (hs _ ?_))
    rintro rfl
    simp [look, gone] at hl
  | arrive _ hs => exact .inl (others (hs _ (by intro e; cases e)))
  | found _ _ hs => exact .inl (others (hs _))
  | furnish ht => exact .inl (others (.same ht))
  | rest hs => exact .inl (others (hs _))

/-- A context that is about to get its thread was so before, or has been entered in this step. -/
theorem launch_origin (ho : m.Ordered) {act : Action S A V} (h : m.act act = some m')
    (hl : m'.look a = some (own, s)) (hs : s.stage? = some (.launch c)) :
    m.look a = some (own, s) ∨
      ∃ e, act = .step a ∧ m.look a = some (own, Errand.stance (.register c) e) ∧
        s = Errand.stance (.launch c) e ∧ m' = m.stepStart a own (.register c) e := by
  have number : s.newcomer? = some c := by simp [Stance.newcomer?, hs]
  have none {s₁ : Stance} (h₁ : s₁.newcomer? = none) (e : s = s₁) : False := by
    rw [e, h₁] at number
    cases number
  have shift := shift_act ho h
  generalize hactor : act.actor? = actor at shift
  cases shift with
  | @quiet b own₁ s₁ s₂ ht hq =>
    rcases ht.cases hl with ⟨rfl, rfl, rfl⟩ | ⟨-, hl⟩
    · cases hq with
      | same => exact .inl ht.before
      | enter _ d hd =>
        obtain rfl := Action.step_of_actor hactor
        have stage := s₁.stage?_restage (.launch d) hd
        obtain rfl : d = c := by
          cases stage.symm.trans hs
          rfl
        obtain ⟨t, hth, rfl, rfl⟩ := look_eq_some m a ht.before
        have took := step_of hth h
        have before := ht.before
        have after := ht.after
        generalize t.control = k at *
        cases took with
        | @starts _ e _ took =>
          cases (e.stage?_stance _).symm.trans hd
          cases took
          exact .inr ⟨e, rfl, before, e.restage_stance _ _, rfl⟩
        | @tells i n next =>
          -- Who tells a notice first does not enter the context in the same step.
          rw [look_setControl, if_pos rfl, look_deliver, before] at after
          have same : next.stance = (Control.notify i n next).stance.restage (.launch d) :=
            congrArg Prod.snd (Option.some.inj after)
          rw [← same] at stage
          cases hd.symm.trans stage
        | @awaits _ phase => cases phase <;> cases hd
        | _ => cases hd
      | start seat => exact (none rfl rfl).elim
      | _ => exact (none rfl rfl).elim
    · exact .inl hl
  | deed ht _ hd =>
    rcases ht.cases hl with ⟨-, -, e⟩ | ⟨-, hl⟩
    · exact (none hd.newcomer e).elim
    · exact .inl hl
  | allocate ht hst =>
    rcases ht.cases hl with ⟨-, -, rfl⟩ | ⟨-, hl⟩
    · rw [Stance.stage?_restage _ _ hst] at hs
      cases hs
    · exact .inl hl
  | birth hb _ hg =>
    rcases hb.cases hl with ⟨-, -, e⟩ | ⟨-, -, -, e⟩ | ⟨-, -, hl⟩
    · exact (none (by cases hg <;> rfl) e).elim
    · exact (none rfl e).elim
    · exact .inl hl
  | launch hb =>
    rcases hb.cases hl with ⟨-, -, e⟩ | ⟨-, -, -, e⟩ | ⟨-, -, hl⟩
    · exact (none rfl e).elim
    · exact (none rfl e).elim
    · exact .inl hl
  | letter ht hs' =>
    rcases ht.cases hl with ⟨-, -, e⟩ | ⟨-, hl⟩
    · rcases hs' with rfl | ⟨i, view, rfl, -⟩ <;> exact (none rfl e).elim
    · exact .inl hl
  | @gone b _ _ _ _ hgone others =>
    by_cases hab : a = b
    · subst hab
      simp [look, hgone] at hl
    · exact .inl ((others a hab).look ▸ hl)
  | arrive hnew others =>
    by_cases hab : a = .caller m.nextCaller
    · subst hab
      rw [hnew] at hl
      cases hl
      exact (none rfl rfl).elim
    · exact .inl ((others a hab).look ▸ hl)
  | found _ _ others => exact .inl ((others a).look ▸ hl)
  | furnish hth => exact .inl ((Stirred.same hth).look ▸ hl)
  | rest others => exact .inl ((others a).look ▸ hl)

/-! ## Contexts are entered as what they are -/

/-- A context that is or will be the thread of the cog `own` has been entered as one. -/
structure Machine.Entered (m : Machine S A V) (c : ContextId) (own : Option CogId) : Prop where
  live : c ∈ m.registry.live
  entry : ∃ y, m.contexts.get? c = some y ∧ y.cog = own
  /-- Its name is made of that of the cog. -/
  name : ∀ g x, own = some g → m.cogs.get? g = some x →
    ((m.contexts.get? c).map (·.name)).getD "" = m.registry.contextName x.name c

structure Machine.Housed (m : Machine S A V) : Prop where
  thread {c : ContextId} {own : Option CogId} {s : Stance} : m.look (.context c) = some (own, s) →
    m.Entered c own ∧ Registry.nameable (((m.contexts.get? c).map (·.name)).getD "") = true
  launch {a : Agent} {own : Option CogId} {s : Stance} {c : ContextId} : m.look a = some (own, s) →
    s.stage? = some (.launch c) → m.Entered c (s.lock own)

theorem housed_empty (r : Registry) (memory : A) :
    (Machine.empty r memory : Machine S A V).Housed := by
  have look_none (a : Agent) : (Machine.empty r memory : Machine S A V).look a = none := rfl
  exact
    { thread := fun h => by simp [look_none] at h
      launch := fun h => by simp [look_none] at h }

/-- An entry stays unless the actor enters another context under its number or strikes it off. -/
theorem Machine.Entered.kept (h : m.Entered c own) (ho : m.Ordered) (shift : Shift m m' actor)
    (aside : Aside m m' actor) (hcog : ∀ g, own = some g → ∃ x, m.cogs.get? g = some x)
    (henter : ∀ a own₀ s₀, actor = some a → m.look a = some (own₀, s₀) →
      s₀.stage? ≠ some (.register c))
    (hstrike : ∀ a, actor = some a → m'.look (.context c) = none →
      ((a = .context c ∧ (m.look a).isSome) ∨
        ∃ own s, m.look a = some (own, s) ∧ s.newcomer? = some c) →
      ¬ ∀ own s, m'.look a = some (own, s) → s.newcomer? = none) :
    m'.Entered c own ∧ m'.contexts.get? c = m.contexts.get? c := by
  have names {y : Option Context} (hy : y = m.contexts.get? c) (g : CogId) (x' : Cog S A V)
      (hg : own = some g) (hx' : m'.cogs.get? g = some x') :
      (y.map (·.name)).getD "" = m'.registry.contextName x'.name c := by
    obtain ⟨x, hx⟩ := hcog g hg
    rw [hy, h.name g x hg hx, shift.name ho hx hx']
    unfold Registry.contextName
    rw [aside.namePrefix]
  have entries := aside.entries
  cases entries with
  | same hc hl =>
    have hc : m'.contexts.get? c = m.contexts.get? c := by rw [hc]
    exact ⟨⟨hl ▸ h.live, hc ▸ h.entry, names hc⟩, hc⟩
  | @enter a own₀ s₀ d name waker hl₀ hst _ hc hl =>
    have hdc : c ≠ d := by
      rintro rfl
      exact henter a own₀ s₀ rfl hl₀ hst
    have hc : m'.contexts.get? c = m.contexts.get? c := by rw [hc, Table.get?_put, if_neg hdc]
    refine ⟨⟨?_, hc ▸ h.entry, names hc⟩, hc⟩
    rw [hl]
    exact List.mem_append_left _ h.live
  | @strike a d hc hl gone whose goesOn =>
    have hdc : c ≠ d := by
      rintro rfl
      exact hstrike a rfl gone whose goesOn
    have hc : m'.contexts.get? c = m.contexts.get? c := by rw [hc]
    refine ⟨⟨?_, hc ▸ h.entry, names hc⟩, hc⟩
    rw [hl]
    simpa [hdc] using h.live

namespace Machine.Housed

theorem act (h : m.Housed) (ho : m.Ordered) {act : Action S A V} (ha : m.act act = some m') :
    m'.Housed := by
  have ho' := ho.act ha
  have shift := shift_act ho ha
  have aside := aside_act ho ha
  have hcog {a : Agent} {own : Option CogId} {s : Stance} {c : ContextId}
      (hl : m.look a = some (own, s)) (hs : s.stage? = some (.launch c)) (g : CogId)
      (hg : s.lock own = some g) : ∃ x, m.cogs.get? g = some x := by
    obtain ⟨x, hx, -⟩ := ho.locks hl hg
    exact ⟨x, hx⟩
  constructor
  case thread =>
    intro c own s hl
    have alive {P : Prop} (hn : m'.look (.context c) = none) : P := by
      rw [hl] at hn
      cases hn
    rcases shift.origin hl with ⟨s₀, hl₀⟩ | ⟨a, own₀, s₀, hl₀, hst, rfl, hn⟩
    · obtain ⟨entered, named⟩ := h.thread hl₀
      obtain ⟨entered', same⟩ := entered.kept ho shift aside
        (fun g hg => (ho.home (hg ▸ hl₀)).2)
        (fun a own₀ s₀ _ hla hst => by
          obtain ⟨-, absent, -⟩ := ho.newcomer (c := c) hla (by simp [Stance.newcomer?, hst])
          rw [hl₀] at absent
          cases absent)
        (fun a _ gone => alive gone)
      exact ⟨entered', same ▸ named⟩
    · have mine : s₀.newcomer? = some c := by simp [Stance.newcomer?, hst]
      obtain ⟨entered', same⟩ := (h.launch hl₀ hst).kept ho shift aside (hcog hl₀ hst)
        (fun b own₁ s₁ _ hlb hst₁ => by
          obtain ⟨-, -, unique⟩ := ho.newcomer hl₀ mine
          have e := unique b own₁ s₁ hlb (by simp [Stance.newcomer?, hst₁])
          rw [e, hl₀] at hlb
          cases hlb
          rw [hst] at hst₁
          cases hst₁)
        (fun a _ gone => alive gone)
      exact ⟨entered', same ▸ hn⟩
  case launch =>
    intro a own s c hl hst
    rcases launch_origin ho ha hl hst with hl₀ | ⟨e, rfl, hl₀, rfl, rfl⟩
    · have mine : s.newcomer? = some c := by simp [Stance.newcomer?, hst]
      obtain ⟨-, absent, unique⟩ := ho.newcomer hl₀ mine
      refine ((h.launch hl₀ hst).kept ho shift aside (hcog hl₀ hst) ?_ ?_).1
      · intro b own₁ s₁ _ hlb hst₁
        have e := unique b own₁ s₁ hlb (by simp [Stance.newcomer?, hst₁])
        rw [e, hl₀] at hlb
        cases hlb
        rw [hst] at hst₁
        cases hst₁
      · intro b _ _ whose goesOn
        rcases whose with ⟨rfl, there⟩ | ⟨own₁, s₁, hlb, hs₁⟩
        · simp [absent] at there
        · have e := unique b own₁ s₁ hlb hs₁
          subst e
          have none := goesOn own s hl
          rw [mine] at none
          cases none
    · have host : e.host own = (e.stance (.launch c)).lock own := by cases e <;> rfl
      refine ⟨List.mem_append_right _ List.mem_cons_self, ⟨_, Table.get?_put_self .., host⟩, ?_⟩
      intro g x hg hx
      have found : ((m.stepStart a own (.register c) e).contexts.get? c) =
        some _ := Table.get?_put_self ..
      rw [found]
      rw [← host] at hg
      have known : m.cogs.get? g = some x := hx
      cases e with
      | direct seat label waker main next => cases hg
      | _ =>
        cases hg
        simp [Errand.host, known]
        rfl

theorem reachable (h : m.Housed) (ho : m.Ordered) (hr : Reachable m m') : m'.Housed := by
  induction hr with
  | refl => exact h
  | act hr ha ih => exact ih.act (ho.reachable hr) ha

/-! ## What follows for the thread of a cog -/

variable (h : m.Housed)
include h

theorem lends (hl : m.look (.context c) = some (some g, s)) : m.lends (.own c) = false := by
  obtain ⟨y, hy, hg⟩ := (h.thread hl).1.entry
  simp [Machine.lends, hy, hg]

theorem alive_parker (hl : m.look (.context c) = some (own, s)) :
    m.alive (.parker (.own c)) = true := by
  have live := (h.thread hl).1.live
  simpa [alive] using live

/-- The context that a thread starts in its own place has a name that the system takes. -/
theorem nameable (ho : m.Ordered) {d : ContextId} {t : TaskId}
    (hl : m.look (.context c) = some (some g, .hand (.launch d) t)) :
    Registry.nameable (((m.contexts.get? d).map (·.name)).getD "") = true := by
  obtain ⟨-, x, hx⟩ := ho.home hl
  obtain ⟨entered, named⟩ := h.thread hl
  have started := h.launch hl (c := d) rfl
  rw [started.name g x rfl hx, Registry.nameable_contextName _ _ d c,
    ← entered.name g x rfl hx]
  exact named

end Machine.Housed

theorem Machine.Reachable.housed {r : Registry} {memory : A} (h : Reachable (.empty r memory) m) :
    m.Housed :=
  (housed_empty r memory).reachable (ordered_empty r memory) h

theorem Machine.Ordered.alive_scheduler (ho : m.Ordered)
    (hl : m.look (.context c) = some (some g, s)) : m.alive (.scheduler g) = true := by
  obtain ⟨-, x, hx⟩ := ho.home hl
  obtain ⟨t, ht, hg, -⟩ := look_eq_some m _ hl
  have hosted : (m.threads.any fun e => e.2.cog = some g) = true :=
    List.any_eq_true.mpr ⟨_, Table.mem_of_get? ht, by simp [hg]⟩
  simp [alive, cogExists, hx, hosted]

end ObjectGroups
