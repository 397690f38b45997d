/-
What a move of a thread or a deed leaves alone.

A deed of one thread leaves the slot of another alone: it either needs the
slot itself, which the other one holds, or finds it free, which it is not, or
gives up what is its own. It needs the lock or finds it free, so it cannot
meet another thread in the middle of a critical section. Tasks only move.
-/
import ObjectGroups.Proofs.Shift

namespace ObjectGroups

variable {S A V : Type} {m m' : Machine S A V} {a : Agent} {g : CogId}
  {own : Option CogId} {s s' : Stance} {x x' : Cog S A V} {loud : Bool}

/-! ## Threads and cogs after a move -/

theorem Turns.look (h : Turns m a own s s' m') (b : Agent) :
    m'.look b = if b = a then some (own, s') else m.look b := by
  split
  · next e => rw [e, h.after]
  · next e => exact (h.others b e).look

theorem Births.look {c : ContextId} {cog : Option CogId} {first : Stance}
    (h : Births m a own s s' c cog first m') (b : Agent) :
    m'.look b = if b = a then some (own, s') else
      if b = .context c then some (cog, first) else m.look b := by
  split
  · next e => rw [e, h.after]
  · next e =>
    split
    · next ec => rw [ec, h.born]
    · next ec => exact (h.others b e ec).look

theorem Turns.cases (h : Turns m a own s s' m') {b : Agent} {own₁ : Option CogId} {s₁ : Stance}
    (hb : m'.look b = some (own₁, s₁)) :
    (b = a ∧ own₁ = own ∧ s₁ = s') ∨ (b ≠ a ∧ m.look b = some (own₁, s₁)) := by
  rw [h.look] at hb
  split at hb
  · next e =>
    cases hb
    exact .inl ⟨e, rfl, rfl⟩
  · next e => exact .inr ⟨e, hb⟩

theorem Turns.present (h : Turns m a own s s' m') {b : Agent} (hb : (m'.look b).isSome) :
    (m.look b).isSome := by
  rw [h.look] at hb
  split at hb
  · next e => simp [e, h.before]
  · exact hb

theorem Turns.absent (h : Turns m a own s s' m') {b : Agent} (hb : m.look b = none) :
    m'.look b = none := by
  rw [h.look]
  split
  · next e => simp [e, h.before] at hb
  · exact hb

theorem Births.cases {c : ContextId} {cog : Option CogId} {first : Stance}
    (h : Births m a own s s' c cog first m') {b : Agent} {own₁ : Option CogId} {s₁ : Stance}
    (hb : m'.look b = some (own₁, s₁)) :
    (b = a ∧ own₁ = own ∧ s₁ = s') ∨ (b ≠ a ∧ b = .context c ∧ own₁ = cog ∧ s₁ = first) ∨
      (b ≠ a ∧ b ≠ .context c ∧ m.look b = some (own₁, s₁)) := by
  rw [h.look] at hb
  split at hb
  · next e =>
    cases hb
    exact .inl ⟨e, rfl, rfl⟩
  · next e =>
    split at hb
    · next ec =>
      cases hb
      exact .inr (.inl ⟨e, ec, rfl, rfl⟩)
    · next ec => exact .inr (.inr ⟨e, ec, hb⟩)

theorem Works.cases (h : Works m g x x' m') {i : CogId} {y : Cog S A V}
    (hy : m'.cogs.get? i = some y) :
    (i = g ∧ y = x') ∨ (i ≠ g ∧ m.cogs.get? i = some y) := by
  rw [h.after] at hy
  split at hy
  · next e =>
    cases hy
    exact .inl ⟨e, rfl⟩
  · next e => exact .inr ⟨e, hy⟩

theorem Works.cog (h : Works m g x x' m') {i : CogId} (hi : ∃ y, m.cogs.get? i = some y) :
    ∃ y, m'.cogs.get? i = some y := by
  rw [h.after]
  split
  · exact ⟨x', rfl⟩
  · exact hi

/-- What an action makes of one cog: nothing but who listens and who holds it, or
what one deed or one grant makes of it. -/
inductive Worked (m : Machine S A V) (g : CogId) (x x' : Cog S A V) (m' : Machine S A V) :
    Option Agent → Prop where
  | idle {actor : Option Agent} : x' = { x with listeners := x'.listeners, held := x'.held } →
      Worked m g x x' m' actor
  | deed {a : Agent} {own : Option CogId} {loud : Bool} {s s' : Stance} :
      Turns m a own s s' m' → Deed g a own loud s x s' x' → (loud = true → Tells m g x a m') →
      Worked m g x x' m' (some a)
  | grant {a : Agent} {own : Option CogId} {s s' : Stance} {c : ContextId} :
      Births m a own s s' c (some g) .claim m' → Grant g c a own s x s' x' →
      Worked m g x x' m' (some a)

theorem Shift.cog {actor : Option Agent} (h : Shift m m' actor) (hx : m.cogs.get? g = some x)
    (hg : g.val < m.nextCog) : ∃ x', m'.cogs.get? g = some x' ∧ Worked m g x x' m' actor := by
  have same (hc : m'.cogs.get? g = m.cogs.get? g) :
      ∃ x', m'.cogs.get? g = some x' ∧ Worked m g x x' m' actor := ⟨x, hc ▸ hx, .idle rfl⟩
  have elsewhere {i : CogId} {y y' : Cog S A V} (hw : Works m i y y' m') (hi : g ≠ i) :
      m'.cogs.get? g = m.cogs.get? g := hw.elsewhere hi
  cases h with
  | quiet _ _ hc => exact same (by rw [hc])
  | @deed a own i loud s s' y y' ht hw hd htells =>
    by_cases hi : g = i
    · subst hi
      cases hw.before.symm.trans hx
      exact ⟨y', hw.here, .deed ht hd htells⟩
    · exact same (elsewhere hw hi)
  | allocate _ _ hc => exact same (by rw [hc])
  | @birth a own s s' c i y y' hb hw hgr =>
    by_cases hi : g = i
    · subst hi
      cases hw.before.symm.trans hx
      exact ⟨y', hw.here, .grant hb hgr⟩
    · exact same (elsewhere hw hi)
  | launch _ hc => exact same (by rw [hc])
  | letter _ _ hc => exact same (by rw [hc])
  | gone _ _ _ _ hc => exact same (by rw [hc])
  | arrive _ _ hc => exact same (by rw [hc])
  | found name state _ hc =>
    have hne : g ≠ ⟨m.nextCog⟩ := by
      rintro rfl
      exact Nat.lt_irrefl _ hg
    exact same (by rw [hc, Table.get?_put, if_neg hne])
  | @furnish i f _ hc hf =>
    rw [hc, Table.get?_modify, hx]
    split
    · exact ⟨f x, rfl, .idle (hf x)⟩
    · exact ⟨x, rfl, .idle rfl⟩
  | rest _ hc => exact same (by rw [hc])

/-! ## Quiet moves -/

section
variable (h : s.Quiet own s')
include h

theorem Stance.Quiet.lock : s'.lock own = s.lock own := by
  cases h with
  | enter => exact lock_restage ..
  | _ => rfl

theorem Stance.Quiet.grants : s'.grants = s.grants := by
  cases h with
  | enter => exact grants_restage ..
  | _ => rfl

theorem Stance.Quiet.letter : s'.letter? = s.letter? := by
  cases h with
  | enter => exact letter?_restage ..
  | _ => rfl

theorem Stance.Quiet.slot (hs : s'.slot = true) : s.slot = true := by
  cases h with
  | enter => simpa using hs
  | leave seat => simp [Stance.slot, Stance.seat?] at hs
  | strand t => simp [Stance.slot, Stance.seat?] at hs
  | _ => exact hs

theorem Stance.Quiet.seat {seat : Seat} (hs : s'.seat? = some seat) : s.seat? = some seat := by
  cases h with
  | enter => simpa using hs
  | leave seat => cases hs
  | _ => exact hs

theorem Stance.Quiet.hosts (hs : s'.hosts = true) : s.hosts = true := by
  cases h with
  | enter => simpa using hs
  | leave seat => simp [Stance.hosts, Stance.seat?] at hs
  | _ => exact hs

theorem Stance.Quiet.newcomer {c : ContextId} (hs : s'.newcomer? = some c) :
    s.newcomer? = some c := by
  cases h with
  | enter _ d hd =>
    have hd' := s.stage?_restage (.launch d) hd
    simp_all [Stance.newcomer?]
  | start seat => cases hs
  | await t => cases hs
  | leave seat => cases hs
  | strand t => cases hs
  | dropped stage seat => cases hs
  | same => exact hs

end

/-! ## Deeds -/

section
variable (h : Deed g a own loud s x s' x')
include h

theorem Deed.lock_eq : s.lock own = none ∨ s.lock own = some g := by
  cases h with
  | abort now hs => rcases hs with rfl | ⟨rfl, -⟩ <;> simp [Stance.lock]
  | _ => simp [Stance.lock]

/-- A deed leaves the slot of another alone. -/
theorem Deed.active {d : ContextId} (hs : ¬ (s.slot = true ∧ own = some g))
    (hd : .context d ≠ a) (hx : x.scheduler.active = some d) :
    x'.scheduler.active = some d := by
  have hd (c : ContextId) (hc : a = .context c) : d ≠ c := fun e => hd (by rw [e, hc])
  cases h <;> simp_all [Stance.slot, Stance.seat?, Scheduler.enqueue, Scheduler.withdraw,
    Scheduler.addWaiter, Scheduler.markReady, Scheduler.removeWaiter, Scheduler.active_release]

/-- A deed leaves the task of another in the slot. -/
theorem Deed.activeTask {d : ContextId} {k : TaskId} (hs : ¬ (s.slot = true ∧ own = some g))
    (hx : x.scheduler.active = some d) (hk : ∀ b, s.seat? ≠ some ⟨k, b⟩)
    (ht : x.scheduler.activeTask = some k) : x'.scheduler.activeTask = some k := by
  cases h <;> simp_all [Stance.slot, Stance.seat?, Scheduler.enqueue, Scheduler.withdraw,
    Scheduler.addWaiter, Scheduler.markReady, Scheduler.removeWaiter]
  case strand => exact fun e => hk e.symm

/-- Who has the slot after a deed of its own is active. -/
theorem Deed.holder {c : ContextId} (hc : a = .context c) (hs : s'.slot = true) (hown : own = some g)
    (hx : s.slot = true → x.scheduler.active = some c) : x'.scheduler.active = some c := by
  cases h <;> simp_all [Stance.slot, Stance.seat?, Scheduler.enqueue, Scheduler.withdraw]

theorem Deed.holderTask {k : TaskId} (hs : s'.seat? = some ⟨k, true⟩) (hown : own = some g)
    (hx : s.seat? = some ⟨k, true⟩ → x.scheduler.activeTask = some k) :
    x'.scheduler.activeTask = some k := by
  cases h <;> simp_all [Stance.seat?, Scheduler.enqueue, Scheduler.withdraw]

/-- A deed of one thread meets no other in the middle of a critical section. -/
theorem Deed.lock_other {b : Agent} (hb : b ≠ a) (hx : x.lock = some b)
    (ha : s.lock own = some g → x.lock = some a) :
    x'.lock = some b ∧ x'.scheduler.active = x.scheduler.active := by
  have hba : ¬ a = b := fun e => hb e.symm
  cases h with
  | abort now hs => rcases hs with rfl | ⟨rfl, hs⟩ <;> simp_all [Stance.lock]
  | _ => simp_all [Stance.lock]

/-- Who is in the middle of a critical section after a deed of its own holds the lock. -/
theorem Deed.lock_self (hs : s'.lock own = some g)
    (hx : s.slot = true → own = some g → ∀ c, a = .context c → x.scheduler.active = some c) :
    x'.lock = some a ∧ (s'.grants = true → x'.scheduler.active = none) := by
  cases h <;> simp_all [Stance.lock, Stance.grants, Stance.slot, Stance.seat?, Scheduler.enqueue,
    Scheduler.active_release]

theorem Deed.lock_own {i : CogId} (hs : s'.lock own = some i) : i = g := by
  cases h <;> simp_all [Stance.lock]

/-- A lock that is held after a deed is held by its doer or was held before. -/
theorem Deed.locker {b : Agent} (hx : x'.lock = some b)
    (ha : x.lock = some a → s.lock own = some g) :
    (b = a ∧ s'.lock own = some g) ∨ (b ≠ a ∧ x.lock = some b) := by
  cases h with
  | abort now hs => simp_all
  | _ => simp_all [Stance.lock]

/-- A deed to the cog of others changes nothing for the doer's own. -/
theorem Deed.guest (hown : own ≠ some g) : s'.seat? = s.seat? ∧ (s'.slot = true → s.slot = true) := by
  cases h <;> simp_all [Stance.seat?, Stance.slot]

theorem Deed.newcomer : s'.newcomer? = none := by
  cases h <;> rfl

theorem Deed.hosts (hs : s'.hosts = true) (ho : s.hosts = true → own ≠ none) : own ≠ none := by
  cases h <;> simp_all [Stance.hosts, Stance.seat?]

/-- Tasks stay where they are, but a claim takes the head of the queue and a
submission puts a task at its end. -/
theorem Deed.tasks :
    (s'.letter? = none ∧ (∀ k b, s'.seat? = some ⟨k, b⟩ → ∃ b, s.seat? = some ⟨k, b⟩) ∧
      x'.scheduler.queued.Sublist x.scheduler.queued) ∨
    (∃ k, s'.letter? = none ∧ s'.seat? = some ⟨k, true⟩ ∧
      x.scheduler.queued = k :: x'.scheduler.queued) ∨
    (∃ k, s.letter? = some k ∧ s'.letter? = none ∧ s'.seat? = s.seat? ∧
      x'.scheduler.queued = x.scheduler.queued ++ [k]) := by
  cases h with
  | take now hl ha hq => exact .inr (.inl ⟨_, rfl, rfl, by simp [Scheduler.queued, hq]⟩)
  | submit body => exact .inr (.inr ⟨_, rfl, rfl, rfl, by simp [Scheduler.queued, Scheduler.enqueue]⟩)
  | enqueue body => exact .inr (.inr ⟨_, rfl, rfl, rfl, by simp [Scheduler.queued, Scheduler.enqueue]⟩)
  | withdraw =>
    exact .inl ⟨rfl, fun k b hk => ⟨b, hk⟩, (List.dropLast_sublist _).map _⟩
  | abort now hs =>
    refine .inl ⟨rfl, fun k b hk => ⟨b, ?_⟩, by simp [Scheduler.queued]⟩
    rcases hs with rfl | ⟨rfl, -⟩ <;> exact hk
  | unwindSubmit => exact .inl ⟨rfl, fun k b hk => ⟨b, hk⟩, .refl _⟩
  | _ =>
    refine .inl ⟨rfl, ?_, ?_⟩
    · simp [Stance.seat?]
    · simp [Scheduler.queued, Scheduler.addWaiter, Scheduler.markReady, Scheduler.removeWaiter,
        Scheduler.retire]

end

end ObjectGroups
