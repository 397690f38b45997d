/-
What an interrupt does to a context.

An interrupt is a flag that a signal raises (`Move.interrupts?`), and nothing
takes it back as long as the context has a thread. From then on an await of
the context ends in one way only: its task is aborted. A context that has
aborted a task takes no other (`Spent`), so an interrupt ends at most one
await, and this is the first that ends after it.
-/
import ObjectGroups.Proofs.History

namespace ObjectGroups

variable {S A V : Type} {m m' : Machine S A V} {a : Agent} {g : CogId} {c : ContextId}
  {own own' : Option CogId} {s s' : Stance} {x : Cog S A V} {aw : Awaiting S A V}
  {t : Thread S A V} {actor : Option Agent} {move : Action S A V}

open Machine

/-! ## Numbers of contexts -/

theorem Stance.newcomer?_stage (s : Stance) :
    s.newcomer? = some c ↔ s.stage? = some (.register c) ∨ s.stage? = some (.launch c) := by
  unfold newcomer?
  cases s.stage? with
  | none => simp
  | some stage => cases stage <;> simp

/-- The start of a context was as far before, or has come there from one stage to the next. -/
theorem Shift.stage (h : Shift m m' actor) (hl : m'.look a = some (own, s)) {stage : Stage}
    (hs : s.stage? = some stage) :
    (∃ s₀, m.look a = some (own, s₀) ∧ (s₀.stage? = some stage ∨
      ∃ d, stage = .launch d ∧ s₀.stage? = some (.register d))) ∨
      stage = .check ∨ stage = .register m.registry.nextContext := by
  rcases h.came hl with ⟨rfl, s₀, hl₀⟩ | hl₀ | rfl | rfl
  · obtain ⟨-, passes⟩ := h.passes hl₀ hl
    cases passes with
    | quiet hq => cases hq with
      | same => exact .inl ⟨_, hl₀, .inl hs⟩
      | start =>
        cases hs
        exact .inr (.inl rfl)
      | enter _ d hd =>
        have launches := Stance.stage?_restage _ (.launch d) hd
        obtain rfl := Option.some.inj (hs.symm.trans launches)
        exact .inl ⟨_, hl₀, .inr ⟨d, rfl, hd⟩⟩
      | _ => cases hs
    | deed hd => cases hd <;> cases hs <;> exact .inr (.inl rfl)
    | allocate hst =>
      have registers := Stance.stage?_restage _ (.register m.registry.nextContext) hst
      obtain rfl := Option.some.inj (hs.symm.trans registers)
      exact .inr (.inr rfl)
    | grant hg => cases hg <;> cases hs
    | _ => cases hs
  · exact .inl ⟨s, hl₀, .inl hs⟩
  · cases hs
  · cases hs

/-- The number has been given out, and nobody is about to start a context under it. -/
structure Machine.Used (m : Machine S A V) (c : ContextId) : Prop where
  numbered : c.val < m.registry.nextContext.val
  started : ∀ a own s, m.look a = some (own, s) → s.newcomer? ≠ some c

theorem Machine.Used.of_look (ho : m.Ordered) (h : (m.look (.context c)).isSome) : m.Used c where
  numbered := ho.newContext h
  started := by
    intro a own s hl hs
    obtain ⟨-, absent, -⟩ := ho.newcomer hl hs
    simp [absent] at h

theorem Machine.Used.kept (h : m.Used c) (shift : Shift m m' actor) : m'.Used c where
  numbered := Nat.lt_of_lt_of_le h.numbered shift.issues.context
  started := by
    intro a own s hl hs
    have old {s₀ : Stance} (hl₀ : m.look a = some (own, s₀)) (hs₀ : s₀.newcomer? = some c) : False :=
      h.started a own s₀ hl₀ hs₀
    have registers {s₀ : Stance} (hs₀ : s₀.stage? = some (.register c)) : s₀.newcomer? = some c :=
      s₀.newcomer?_stage.mpr (.inl hs₀)
    rcases s.newcomer?_stage.mp hs with hs | hs
    · rcases shift.stage hl hs with ⟨s₀, hl₀, hs₀ | ⟨d, e, -⟩⟩ | e | e
      · exact old hl₀ (registers hs₀)
      · cases e
      · cases e
      · cases e
        exact Nat.lt_irrefl _ h.numbered
    · rcases shift.stage hl hs with ⟨s₀, hl₀, hs₀ | ⟨d, e, hs₀⟩⟩ | e | e
      · exact old hl₀ (s₀.newcomer?_stage.mpr (.inr hs₀))
      · cases e
        exact old hl₀ (registers hs₀)
      · cases e
      · cases e

/-! ## The flag -/

/-- The context to which the thread that acts sends an interrupt. -/
def Move.interrupts? (v : Move S A V) : Option ContextId :=
  match v.act.actor?.bind fun a => (v.before.signals a).head? with
  | some (.interrupt (.own c)) => some c
  | _ => none

theorem Move.interrupts?_eq {v : Move S A V} (h : v.interrupts? = some c) :
    ∃ a rest, v.act.actor? = some a ∧ v.before.signals a = .interrupt (.own c) :: rest := by
  unfold interrupts? at h
  split at h
  · next d hd =>
    cases h
    obtain ⟨a, hact, head⟩ := Option.bind_eq_some_iff.mp hd
    obtain ⟨rest, signals⟩ := List.head?_eq_some_iff.mp head
    exact ⟨a, rest, hact, signals⟩
  · cases h

/-- The signal raises the flag. -/
theorem Machine.interrupted_of_signal (ha : m.act move = some m')
    (hi : (⟨m, move, m'⟩ : Move S A V).interrupts? = some c) : m'.interrupted c = true := by
  obtain ⟨a, rest, hact, signals⟩ := Move.interrupts?_eq hi
  obtain rfl := Action.step_of_actor hact
  cases ht : m.threads.get? a with
  | none => simp [Machine.signals, ht] at signals
  | some t =>
    have pending := signals_eq ht
    rw [signals] at pending
    cases hk : t.control with
    | signal seat ss next =>
      rw [hk] at pending
      cases pending
      simp only [act, step, ht, hk, stepSignal] at ha
      cases ha
      show ((m.interruptParker (.own c)).parker (.own c)).interrupted = true
      rw [parker_interruptParker, if_pos rfl]
      rfl
    | _ =>
      rw [hk] at pending
      cases pending

/-- Only a signal raises the flag. -/
theorem Machine.raised (ho : m.Ordered) (ha : m.act move = some m') (h : m'.interrupted c = true) :
    m.interrupted c = true ∨ (⟨m, move, m'⟩ : Move S A V).interrupts? = some c := by
  have flags := (aside_act ho ha).flags
  generalize hact : move.actor? = actor at flags
  unfold interrupted at h ⊢
  cases flags with
  | same same => exact .inl (same _ ▸ h)
  | raise p signals raised =>
    rw [raised] at h
    split at h
    · next e => exact .inr (by simp [Move.interrupts?, hact, signals, ← e])
    · exact .inl h
  | clear d _ _ cleared =>
    rw [cleared] at h
    split at h
    · cases h
    · exact .inl h

/-- The flag of a context stays, unless it is entered once more. -/
theorem Machine.interrupted_stays (ho : m.Ordered) (ha : m.act move = some m')
    (hn : ∀ a own s, m.look a = some (own, s) → s.stage? ≠ some (.register c))
    (h : m.interrupted c = true) : m'.interrupted c = true := by
  have flags := (aside_act ho ha).flags
  generalize move.actor? = actor at flags
  unfold interrupted at h ⊢
  cases flags with
  | same same => exact (same _).trans h
  | raise p _ raised =>
    rw [raised]
    split
    · rfl
    · exact h
  | clear d hl₀ hs cleared =>
    have hdc : ParkerId.own c ≠ .own d := by
      rintro ⟨⟩
      exact hn _ _ _ hl₀ hs
    rw [cleared, if_neg hdc]
    exact h

/-- The flag of a context that has a thread stays. -/
theorem Machine.interrupted_kept (ho : m.Ordered) (ha : m.act move = some m')
    (hl : (m.look (.context c)).isSome) (h : m.interrupted c = true) : m'.interrupted c = true := by
  refine interrupted_stays ho ha (fun a own s hl₀ hs => ?_) h
  obtain ⟨-, absent, -⟩ := ho.newcomer (c := c) hl₀ (s.newcomer?_stage.mpr (.inl hs))
  simp [absent] at hl

/-! ## Awaits of an interrupted context -/

/-- An await of an interrupted context goes on, or its task is aborted. -/
theorem Machine.Housed.interrupted_step (hh : m.Housed) (ho : m.Ordered)
    (ht : m.threads.get? (.context c) = some t) (hg : t.cog = some g) (hx : m.cogs.get? g = some x)
    (hk : t.control.await? = some aw) (hi : m.interrupted c = true)
    (h : m.step (.context c) = some m') :
    ∃ k, m'.threads.get? (.context c) = some { t with control := k } ∧
      (k.await? = some aw ∨
        (k.behind = .run (some ⟨aw.task, false⟩) (aw.next (.error .interrupted)) ∧
          m'.cogs.get? g = some { x with
            scheduler := (x.scheduler.abort aw.task c m.now).2, lock := none })) := by
  have hl := look_eq m _ ht
  obtain ⟨k, ht', treads⟩ := step_treads ho ht hg hx hk h
  refine ⟨k, ht', ?_⟩
  generalize hc : t.control = control at treads
  cases treads with
  | tells _ _ hk' => exact .inl hk'
  | hands hands => cases hands with
    | goesOn => exact .inl rfl
    | enlists hb => exact .inl (Control.await?_of_behind hb)
    | unwinds unnameable =>
      rw [hg, hc] at hl
      rw [hh.nameable ho hl] at unnameable
      cases unnameable
  | strides strides => cases strides with
    | hands => exact .inl rfl
    | enlists hb => exact .inl (Control.await?_of_behind hb)
    | marked hb => exact .inl (Control.await?_of_behind hb)
    | proceeds => exact .inl rfl
    | aborts _ hb hx' => exact .inr ⟨hb, hx'⟩
    | fails _ _ _ _ going | unwinds _ _ _ going | resumes _ _ _ _ going =>
      rw [hi] at going
      cases going

/-! ## A context that has aborted a task -/

/-- The thread of the context, if it still has one, neither awaits nor can get the slot. -/
structure Machine.Spent (m : Machine S A V) (c : ContextId) : Prop where
  used : m.Used c
  idle : ∀ own s, m.look (.context c) = some (own, s) → s.slot = false ∧ s.suspends = none

/-- A thread gets the slot between tasks or by an await. -/
theorem Shift.idle (h : Shift m m' (some a)) (hl : m.look a = some (own, s)) (hs : s.slot = false)
    (hw : s.suspends = none) (hl' : m'.look a = some (own', s')) : s'.slot = false := by
  obtain ⟨-, passes⟩ := h.passes hl hl'
  cases passes with
  | quiet hq => exact Bool.eq_false_iff.mpr fun slot => by simp [hq.slot slot] at hs
  | deed hd => cases hd with
    | take => cases hs
    | complete => cases hs
    | resume => cases hw
    | _ => first | rfl | exact hs
  | allocate => rwa [Stance.slot_restage]
  | grant hg => cases hg with
    | submission => exact hs
    | handover => cases hw
  | launch => exact hs
  | letter => exact hs

theorem Machine.Spent.act (h : m.Spent c) (ho : m.Ordered) (ha : m.act move = some m') :
    m'.Spent c where
  used := h.used.kept (shift_act ho ha)
  idle := by
    intro own s hl
    have shift := shift_act ho ha
    rcases shift.origin hl with ⟨s₀, hl₀⟩ | ⟨b, own₀, s₀, hb, hs₀, -⟩
    · obtain ⟨slot, waits⟩ := h.idle own s₀ hl₀
      by_cases hact : move.actor? = some (.context c)
      · rw [hact] at shift
        have awaits : s₀.awaits = none := by
          cases s₀ with
          | release t => cases slot
          | _ => exact waits
        exact ⟨shift.idle hl₀ slot waits hl, shift.outside hl₀ awaits hl⟩
      · have stirred := shift.other ho (by simp [hl₀]) hact
        rw [stirred.look, hl₀] at hl
        cases hl
        exact ⟨slot, waits⟩
    · exact absurd (s₀.newcomer?_stage.mpr (.inr hs₀)) (h.used.started b own₀ s₀ hb)

/-! ## The first await that ends after an interrupt -/

/-- How an await of the context ends in this move: the task that its thread hosts from
then on, and whether the task has the slot. -/
def Move.ends? (c : ContextId) (v : Move S A V) : Option Seat :=
  match v.turn with
  | some (.context d, _, s, .body (some seat)) =>
    if d = c ∧ s.suspends.isSome then some seat else none
  | _ => none

theorem Move.ends?_turn {v : Move S A V} {seat : Seat} (h : v.ends? c = some seat) :
    ∃ own s k, v.turn = some (.context c, own, s, .body (some seat)) ∧ s.suspends = some k := by
  unfold ends? at h
  split at h
  · next d own s seat' hv =>
    split at h
    · next hs =>
      obtain ⟨rfl, hs⟩ := hs
      cases h
      obtain ⟨k, hk⟩ := Option.isSome_iff_exists.mp hs
      exact ⟨own, s, k, hv, hk⟩
    · cases h
  · cases h

/-- An await that ends on an interrupted context has been aborted, and the context takes no
other task. -/
theorem Machine.Ordered.spent_of_ends (ho : m.Ordered) (hh : m.Housed) (ha : m.act move = some m')
    (hi : m.interrupted c = true) {seat : Seat}
    (h : (⟨m, move, m'⟩ : Move S A V).ends? c = some seat) : m'.Spent c := by
  obtain ⟨own, s, k, hv, hs⟩ := Move.ends?_turn h
  obtain ⟨hact, hl, own', hl'⟩ := Move.acts hv
  dsimp only at hact hl hl'
  obtain rfl := Action.step_of_actor hact
  -- Who awaits works for a cog.
  have hosts : s.hosts = true := by
    cases s with
    | hand | wait | contend => rfl
    | _ => cases hs
  obtain ⟨g, -, x, rfl, -, hx⟩ := ho.home_of_hosts hl hosts
  obtain ⟨t, ht, hg, hst⟩ := look_eq_some m _ hl
  obtain ⟨aw, haw, -⟩ := Control.await_of_suspends (hst ▸ hs)
  obtain ⟨control, ht', goesOn | ⟨ended, -⟩⟩ := hh.interrupted_step ho ht hg hx haw hi ha
  · rw [look_eq m' _ ht'] at hl'
    rw [Control.await?_body (congrArg Prod.snd (Option.some.inj hl'))] at goesOn
    cases goesOn
  · have after := look_eq m' _ ht'
    rw [← Control.stance_behind, ended] at after
    refine ⟨.of_look (ho.act ha) (by simp [after]), fun own s hl => ?_⟩
    cases after.symm.trans hl
    exact ⟨rfl, rfl⟩

/-- An interrupted context has got a signal, and no await of it has ended since, unless it
is spent. -/
theorem History.delivered {moves : List (Move S A V)} {r : Registry} {memory : A}
    (h : History (.empty r memory) moves m) (hi : m.interrupted c = true) : m.Spent c ∨
      ∃ earlier hit between, moves = earlier ++ hit :: between ∧ hit.interrupts? = some c ∧
        ∀ v ∈ between, v.ends? c = none := by
  induction h with
  | refl => cases hi
  | @act moves m m' move h ha ih =>
    have ho : m.Ordered := h.reachable.ordered
    have hh : m.Housed := h.reachable.housed
    rcases raised ho ha hi with before | hit
    · rcases ih before with spent | ⟨earlier, hit, between, rfl, hits, none⟩
      · exact .inl (spent.act ho ha)
      · cases he : (⟨m, move, m'⟩ : Move S A V).ends? c with
        | some seat => exact .inl (ho.spent_of_ends hh ha before he)
        | none =>
          refine .inr ⟨earlier, hit, between ++ [⟨m, move, m'⟩], by simp, hits, fun v hv => ?_⟩
          rcases List.mem_append.mp hv with hv | hv
          · exact none v hv
          · obtain rfl := List.mem_singleton.mp hv
            exact he
    · exact .inr ⟨moves, ⟨m, move, m'⟩, [], rfl, hit, by simp⟩

end ObjectGroups
