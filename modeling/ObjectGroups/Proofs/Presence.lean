/-
Whom the books name is there.

A live context has a thread, or one is about to be started for it: it is struck
off the registry in the step in which its thread ends or the start fails. The
active context of a cog has a thread that knows of the slot. A waiter of a
scheduler is in an await and has not taken the lock again to look at the slot:
it is taken off the list as it does so.
-/
import ObjectGroups.Proofs.Attendance
import ObjectGroups.Proofs.QueueFirst

namespace ObjectGroups

variable {S A V : Type} {m m' : Machine S A V} {a : Agent} {g : CogId} {c : ContextId}
  {own : Option CogId} {s s' : Stance} {x x' : Cog S A V} {k : TaskId} {move : Action S A V}
  {t : Thread S A V} {aw : Awaiting S A V} {r : Registry} {memory : A}

open Machine

/-! ## Live contexts -/

namespace Machine

/-- A thread ends as the last thing that it does. -/
theorem Ordered.leaving (ho : m.Ordered) (ha : m.act move = some m') (hl : m.look a = some (own, s))
    (gone : m'.look a = none) : move = .step a ∧ (s = .leave ∨ ∃ n, a = .caller n) := by
  rcases ho.kept_or_steps ha hl with same | rfl
  · cases gone.symm.trans same
  have stays {own' : Option CogId} {s' : Stance} {P : Prop} (hl' : m'.look a = some (own', s')) : P := by
    cases gone.symm.trans hl'
  refine ⟨rfl, ?_⟩
  have shift : Shift m m' (some a) := shift_act ho ha
  cases shift with
  | quiet ht => exact stays ht.after
  | deed ht => exact stays ht.after
  | allocate ht => exact stays ht.after
  | birth hb => exact stays hb.after
  | launch hb => exact stays hb.after
  | letter ht => exact stays ht.after
  | gone hl₀ hs =>
    cases hl₀.symm.trans hl
    exact hs.imp_right And.left

theorem live_strike (m : Machine S A V) (c : ContextId) :
    (m.strike c).registry.live = m.registry.live.filter (· ≠ c) :=
  congrArg (fun outside => outside.2.2.2.1) (outside_strike m c)

/-- A context is struck off as its thread ends. -/
theorem Ordered.struck_off (ho : m.Ordered) (ha : m.act move = some m')
    (there : (m.look (.context c)).isSome) (gone : m'.look (.context c) = none) :
    c ∉ m'.registry.live := by
  obtain ⟨⟨own, s⟩, hl⟩ := Option.isSome_iff_exists.mp there
  obtain ⟨rfl, last⟩ := ho.leaving ha hl gone
  have leaves : s = .leave := last.resolve_right (by rintro ⟨n, e⟩; cases e)
  obtain ⟨t, ht, -, hst⟩ := look_eq_some m _ hl
  rw [leaves] at hst
  have took := step_of ht (show m.step (.context c) = some m' from ha)
  generalize t.control = k at hst took
  cases took with
  | leaves hc =>
    cases hc
    rw [live_strike]
    simp
  | departs hc => cases hc
  | tells =>
    rw [look_setControl, if_pos rfl, look_deliver, hl] at gone
    cases gone
  | @starts stage e => cases e <;> cases hst
  | @awaits aw phase => cases phase <;> cases hst
  | _ => cases hst

theorem look_startSucceeded (e : Errand S A V) {b : Agent} (hb : b ≠ a)
    (there : (m.look b).isSome) : ((m.startSucceeded a own c e).look b).isSome := by
  have stirred : m.Stirred (m.startSucceeded a own c e) b := by
    cases e with
    | submission => exact ((Stirred.same rfl).broadcast.trans (.same rfl)).setControl hb
    | handover aw =>
      simp only [startSucceeded]
      split
      · exact ((Stirred.same rfl).broadcast.trans (.same rfl)).setControl hb
      · exact .same rfl
    | direct => exact (Stirred.same rfl).setControl hb
  rwa [stirred.look]

/-- A context that is about to get its thread gets it, or is struck off. -/
theorem Ordered.start_ends (ho : m.Ordered) (ha : m.act move = some m') (hl : m.look a = some (own, s))
    (hs : s.stage? = some (.launch c)) :
    m'.look a = some (own, s) ∨ (m'.look (.context c)).isSome ∨ c ∉ m'.registry.live := by
  rcases ho.kept_or_steps ha hl with same | rfl
  · exact .inl same
  have h : m.step a = some m' := ha
  have struck (h : Calm (m.strike c) m') : c ∉ m'.registry.live := by
    have live : m'.registry.live = (m.strike c).registry.live :=
      congrArg (fun outside => outside.2.2.2.1) h.outside
    rw [live, live_strike]
    simp
  obtain ⟨t, ht, rfl, rfl⟩ := look_eq_some m _ hl
  have took := step_of ht h
  generalize t.control = k at hs hl took ⊢
  cases took with
  | @starts stage e _ took =>
    cases (e.stage?_stance stage).symm.trans hs
    cases took with
    | panics => exact .inr (.inr (struck (calm_startUnwound (.same rfl rfl))))
    | refused => exact .inr (.inr (struck (calm_startFailed (.same rfl rfl))))
    | granted =>
      have other : Agent.context c ≠ a := by
        rintro rfl
        cases (ho.unlaunched hl hs).symm.trans hl
      refine .inr (.inl (look_startSucceeded e other ?_))
      simp [look]
  | tells =>
    refine .inl ?_
    rw [look_setControl, if_pos rfl, look_deliver, hl]
    rfl
  | @awaits aw phase => cases phase <;> cases hs
  | _ => cases hs

/-- Every live context has a thread, or one is about to be started for it. -/
def Manned (m : Machine S A V) : Prop := ∀ c ∈ m.registry.live,
  (m.look (.context c)).isSome ∨ ∃ a own s, m.look a = some (own, s) ∧ s.stage? = some (.launch c)

theorem Manned.act (h : m.Manned) (ho : m.Ordered) (ha : m.act move = some m') : m'.Manned := by
  intro c hc
  have kept (hc₀ : c ∈ m.registry.live) : (m'.look (.context c)).isSome ∨
      ∃ a own s, m'.look a = some (own, s) ∧ s.stage? = some (.launch c) := by
    rcases h c hc₀ with there | ⟨a, own, s, hl, hs⟩
    · refine .inl ?_
      by_contra gone
      exact ho.struck_off ha there (by simpa using gone) hc
    · rcases ho.start_ends ha hl hs with same | there | struck
      · exact .inr ⟨a, own, s, same, hs⟩
      · exact .inl there
      · exact absurd hc struck
  have entries := (aside_act ho ha).entries
  generalize move.actor? = actor at entries
  cases entries with
  | same _ live => exact kept (live ▸ hc)
  | enter d name waker hl hst _ _ live _ after =>
    rw [live] at hc
    rcases List.mem_append.mp hc with old | new
    · exact kept old
    · obtain rfl := List.mem_singleton.mp new
      exact .inr ⟨_, _, _, after, Stance.stage?_restage _ _ hst⟩
  | strike d _ live =>
    rw [live] at hc
    exact kept (List.mem_filter.mp hc).1

theorem Reachable.manned (h : Reachable (.empty r memory) m) (hr : r.live = []) : m.Manned := by
  induction h with
  | refl =>
    intro c hc
    rw [show (Machine.empty r memory : Machine S A V).registry.live = r.live from rfl, hr] at hc
    cases hc
  | act h ha ih => exact ih.act h.ordered ha

end Machine

/-! ## The active context -/

/-- The active context of a cog has a thread that knows of the slot. -/
theorem Machine.Reachable.held (h : Reachable (.empty r memory) m) (hx : m.cogs.get? g = some x)
    (hc : x.scheduler.active = some c) : m.Entitled g c := by
  induction h generalizing x c with
  | refl => cases hx
  | @act m m' move h ha ih =>
    have ho : m.Ordered := h.ordered
    have aftermath := (shift_act ho ha).aftermath ho hx
    generalize move.actor? = actor at aftermath
    cases aftermath with
    | founded _ _ empty =>
      rw [empty] at hc
      cases hc
    | aside hb hy same => exact Beside.entitled hb (ih hy (same ▸ hc))
    | deed ht hw hd => exact hd.held ht (fun held => ih hw.before held) hc
    | grant hb _ hg => exact hg.held hb hc

/-! ## Waiters -/

/-- The thread waits for its guard and has not come to look at the slot again. -/
def Phase.early : Phase S → Bool
  | .wait _ | .ready | .reenter _ | .abort => true
  | _ => false

/-- A deed enlists its doer, who has given the slot up and begins to wait. -/
theorem Deed.enlists {loud : Bool} (h : Deed g a own loud s x s' x') (hc : c ∈ x'.scheduler.waiters) :
    c ∈ x.scheduler.waiters ∨ (a = .context c ∧ own = some g ∧
      ∃ k, s' = .wait k ∧ (s = .release k ∨ ∃ stage, s = .hand stage k)) := by
  cases h <;> simp_all [Scheduler.enqueue, Scheduler.withdraw, Scheduler.markReady, Scheduler.retire,
    Scheduler.mem_addWaiter, Scheduler.mem_removeWaiter] <;> tauto

/-- Whoever is enlisted was so before, or has just given the slot up. -/
theorem Shift.enlists {actor : Option Agent} (h : Shift m m' actor) (ho : m.Ordered)
    (hx : m.cogs.get? g = some x) (hx' : m'.cogs.get? g = some x') (hc : c ∈ x'.scheduler.waiters) :
    c ∈ x.scheduler.waiters ∨ (actor = some (.context c) ∧
      ∃ s k, m.look (.context c) = some (some g, s) ∧ (s = .release k ∨ ∃ stage, s = .hand stage k) ∧
        m'.look (.context c) = some (some g, .wait k)) := by
  obtain ⟨y, hy, worked⟩ := h.cog hx (ho.newCog (by simp [hx]))
  cases hy.symm.trans hx'
  cases worked with
  | idle e =>
    rw [e] at hc
    exact .inl hc
  | deed ht hd =>
    rcases hd.enlists hc with old | ⟨rfl, rfl, k, rfl, hs⟩
    · exact .inl old
    · exact .inr ⟨rfl, _, k, ht.before, hs, ht.after⟩
  | grant hb hg =>
    cases hg with
    | submission => exact .inl hc
    | handover =>
      rcases (Scheduler.mem_addWaiter ..).mp hc with rfl | old
      · exact .inr ⟨rfl, _, _, hb.before, .inr ⟨_, rfl⟩, hb.after⟩
      · exact .inl old

/-- The thread of the context is in an await, and has not come to look at the slot again. -/
def Machine.Lined (m : Machine S A V) (c : ContextId) (g : CogId) : Prop :=
  ∃ t aw phase, m.threads.get? (.context c) = some t ∧ t.cog = some g ∧
    t.control.behind = .awaiting aw phase ∧ phase.early = true

/-- Waiters have not come to look at the slot again. -/
def Machine.Enlisted (m : Machine S A V) : Prop := ∀ g x c, m.cogs.get? g = some x →
  c ∈ x.scheduler.waiters → m.Lined c g

namespace Machine

theorem Lined.stirred (h : m.Lined c g) (hm : m.Stirred m' (.context c)) : m'.Lined c g := by
  obtain ⟨t, aw, phase, ht, hg, hb, early⟩ := h
  obtain ⟨p, hp⟩ := hm
  rw [ht] at hp
  cases p with
  | false => exact ⟨t, aw, phase, hp, hg, hb, early⟩
  | true =>
    have roused : t.control.rouse.behind = .awaiting aw phase ∨
        ∃ w, phase = .wait w ∧ t.control.rouse.behind = .awaiting aw (.wait w.notify) := by
      cases hk : t.control with
      | notify i n after =>
        rw [hk] at hb
        exact .inl hb
      | awaiting aw' phase' =>
        rw [hk] at hb
        cases hb
        cases phase with
        | wait w => exact .inr ⟨w, rfl, rfl⟩
        | asleep => cases early
        | _ => exact .inl rfl
      | _ =>
        rw [hk] at hb
        cases hb
    rcases roused with same | ⟨w, -, notified⟩
    · exact ⟨t.rouse, aw, phase, hp, hg, same, early⟩
    · exact ⟨t.rouse, aw, .wait w.notify, hp, hg, notified, rfl⟩

/-- A waiter that goes on is on the list no longer, or has not come to the slot yet. -/
theorem Lined.steps (h : m.Lined c g) (ho : m.Ordered) (ha : m.act (.step (.context c)) = some m')
    (hx : m.cogs.get? g = some x) (hx' : m'.cogs.get? g = some x')
    (hc : c ∈ x'.scheduler.waiters) : m'.Lined c g := by
  obtain ⟨t, aw, phase, ht, hg, hb, early⟩ := h
  obtain ⟨k, ht', treads⟩ := step_treads ho ht hg hx (Control.await?_of_behind hb) ha
  have lined {phase' : Phase S} (hk : k.behind = .awaiting aw phase') (early' : phase'.early = true) :
      m'.Lined c g := ⟨_, aw, phase', ht', hg, hk, early'⟩
  generalize hcontrol : t.control = control at treads hb
  cases treads with
  | tells => exact lined hb early
  | hands => cases hb
  | strides strides =>
    cases hb
    cases strides with
    | hands => cases early
    | enlists hk => exact lined hk rfl
    | marked hk => exact lined hk rfl
    | proceeds proceeds => cases proceeds with
      | waits => exact lined rfl rfl
      | answered _ hp => rcases hp with rfl | rfl <;> exact lined rfl rfl
      | waitFailed => exact lined rfl rfl
      | interrupted => exact lined rfl rfl
      | reenters | reentersFailed =>
        -- Who takes the lock to look at the slot is taken off the list.
        cases awaitStep_of ht hg hcontrol hx ha
        rw [cogs_setControl, cog_onCog_self _ _ _ hx] at hx'
        cases hx'
        simp [Scheduler.removeWaiter] at hc
      | _ => cases early
    | aborts _ _ hcog =>
      cases hcog.symm.trans hx'
      simp at hc
    | _ => cases early

/-- The thread of a context that is enlisted just now begins to wait. -/
theorem Ordered.lined_new (ho : m.Ordered) (ha : m.act (.step (.context c)) = some m')
    (hx : m.cogs.get? g = some x) (hx' : m'.cogs.get? g = some x')
    (hl : m.look (.context c) = some (some g, s)) (hs : s = .release k ∨ ∃ stage, s = .hand stage k)
    (hl' : m'.look (.context c) = some (some g, .wait k)) (old : c ∉ x.scheduler.waiters)
    (hc : c ∈ x'.scheduler.waiters) : m'.Lined c g := by
  obtain ⟨t, ht, hg, hst⟩ := look_eq_some m _ hl
  have awaits : t.control.stance.awaits = some k := by
    rcases hs with rfl | ⟨stage, rfl⟩ <;> rw [hst] <;> rfl
  obtain ⟨aw, haw, -⟩ := Control.await_of_awaits awaits
  obtain ⟨control', ht', treads⟩ := step_treads ho ht hg hx haw ha
  have stance : control'.stance = .wait k := by
    rw [look_eq m' _ ht'] at hl'
    exact congrArg Prod.snd (Option.some.inj hl')
  have lined (hk : control'.behind = .awaiting aw (.wait (.start aw.guard))) : m'.Lined c g :=
    ⟨_, aw, _, ht', hg, hk, rfl⟩
  generalize t.control = control at treads hst
  cases treads with
  | tells _ _ _ cogs =>
    rw [cogs] at hx'
    cases hx.symm.trans hx'
    exact absurd hc old
  | hands hands => cases hands with
    | goesOn => cases stance
    | enlists hk => exact lined hk
    | unwinds _ hk =>
      rw [← Control.stance_behind, hk] at stance
      cases stance
  | @strides phase _ strides =>
    obtain rfl : phase = .release := by
      rcases hs with rfl | ⟨stage, rfl⟩ <;> cases phase <;> first | rfl | cases hst
    cases strides with
    | hands => cases stance
    | enlists hk => exact lined hk
    | proceeds proceeds => cases proceeds
    | aborts hp => rcases hp with e | ⟨-, failure, e⟩ <;> cases e

theorem Enlisted.act (h : m.Enlisted) (ho : m.Ordered) (ha : m.act move = some m') : m'.Enlisted := by
  intro g x' c hx' hc
  have shift := shift_act ho ha
  cases hx : m.cogs.get? g with
  | none =>
    -- Nobody waits for the slot of a cog that has just been founded.
    generalize move.actor? = actor at shift
    cases shift.aftermath ho hx' with
    | founded _ _ empty =>
      rw [empty] at hc
      cases hc
    | aside _ hy => cases hx.symm.trans hy
    | deed _ hw => cases hx.symm.trans hw.before
    | grant _ hw => cases hx.symm.trans hw.before
  | some x =>
    by_cases old : c ∈ x.scheduler.waiters
    · have lined := h g x c hx old
      by_cases hact : move.actor? = some (.context c)
      · obtain rfl := Action.step_of_actor hact
        exact lined.steps ho ha hx hx' hc
      · obtain ⟨t, aw, phase, ht, -⟩ := id lined
        exact lined.stirred (shift.other ho (by simp [look_eq m _ ht]) hact)
    · obtain ⟨hact, s, k, hl, hs, hl'⟩ := (shift.enlists ho hx hx' hc).resolve_left old
      obtain rfl := Action.step_of_actor hact
      exact ho.lined_new ha hx hx' hl hs hl' old hc

theorem Reachable.enlisted (h : Reachable (.empty r memory) m) : m.Enlisted := by
  induction h with
  | refl =>
    intro g x c hx
    cases hx
  | act h ha ih => exact ih.act h.ordered ha

end Machine

end ObjectGroups
