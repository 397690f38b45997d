/-
Threads in an await.

What a thread is about to do, and the await it is in, once it has told its
notices. Whatever other threads do, a thread stays where it is: at most it is
notified.
-/
import ObjectGroups.Proofs.MutualExclusion

namespace ObjectGroups

variable {S A V : Type} {m m' : Machine S A V} {a b : Agent} {g : CogId} {c : ContextId}
  {own : Option CogId} {s s' : Stance} {x x' : Cog S A V}

/-- What the thread is about to do once it has told its notices. -/
def Control.behind : Control S A V → Control S A V
  | .notify _ _ after => after.behind
  | k => k

@[simp] theorem Control.stance_behind (k : Control S A V) : k.behind.stance = k.stance := by
  induction k with
  | notify _ _ after ih => exact ih
  | _ => rfl

/-- The await in progress. A thread that starts a context in place of a task that
awaits is in this task's await. -/
def Control.await? (k : Control S A V) : Option (Awaiting S A V) :=
  match k.behind with
  | .awaiting aw _ => some aw
  | .starting _ (.handover aw) => some aw
  | _ => none

theorem Control.await?_of_behind {k : Control S A V} {aw : Awaiting S A V} {phase : Phase S}
    (h : k.behind = .awaiting aw phase) : k.await? = some aw := by
  unfold await?
  rw [h]

@[simp] theorem Machine.behind_announce (kind : NoticeKind) (view : Option TaskView)
    (after : Control S A V) : (Machine.announce g kind view after).behind = after.behind := by
  cases view <;> rfl

/-- How many notices the thread has to tell first. -/
def Control.notices : Control S A V → Nat
  | .notify _ _ after => after.notices + 1
  | _ => 0

theorem Machine.notices_announce (kind : NoticeKind) (view : Option TaskView)
    (after : Control S A V) : (Machine.announce g kind view after).notices ≤ after.notices + 1 := by
  cases view with
  | none => exact Nat.le_succ _
  | some v => exact Nat.le_refl _

@[simp] theorem Control.await?_rouse (k : Control S A V) : k.rouse.await? = k.await? := by
  cases k with
  | awaiting aw p => cases p <;> rfl
  | _ => rfl

/-- What is said of all guards that are awaited can be looked up. -/
theorem Machine.awaited_iff (p : Guard S → Bool) :
    (∀ a t aw, m.threads.get? a = some t → t.control.await? = some aw → p aw.guard = true) ↔
      ∀ e ∈ m.threads, ((m.threads.get? e.1).bind (·.control.await?)).all (p ·.guard) = true := by
  constructor
  · intro h e _
    cases ht : m.threads.get? e.1 with
    | none => rfl
    | some t =>
      cases hk : t.control.await? with
      | none => simp [hk]
      | some aw => simpa [hk] using h e.1 t aw ht hk
  · intro h a t aw ht hk
    simpa [ht, hk] using h (a, t) (Table.mem_of_get? ht)

/-! ## Other threads -/

theorem Action.actor_ne {act : Action S A V} (h : act ≠ .step a) : act.actor? ≠ some a := by
  cases act with
  | step b => simpa [actor?] using h
  | _ => simp [actor?]

theorem Action.step_of_actor {act : Action S A V} (h : act.actor? = some a) : act = .step a := by
  cases act with
  | step b =>
    cases h
    rfl
  | _ => cases h

/-- A thread is at most notified while another takes a step. -/
theorem Shift.other {actor : Option Agent} (ho : m.Ordered) (h : Shift m m' actor)
    (hb : (m.look b).isSome) (hne : actor ≠ some b) : m.Stirred m' b := by
  have ne {a : Agent} (h : (some a : Option Agent) ≠ some b) : b ≠ a := fun e => h (by rw [e])
  cases h with
  | quiet ht => exact ht.others b (ne hne)
  | deed ht => exact ht.others b (ne hne)
  | allocate ht => exact ht.others b (ne hne)
  | letter ht => exact ht.others b (ne hne)
  | gone _ _ _ others => exact others b (ne hne)
  | @birth a own s s' d g x x' hbirth =>
    obtain ⟨-, absent, -⟩ :=
      ho.newcomer (c := d) hbirth.before (by simp [Stance.newcomer?, hbirth.launches])
    refine hbirth.others b (ne hne) ?_
    rintro rfl
    simp [absent] at hb
  | @launch a own d seat hbirth =>
    obtain ⟨-, absent, -⟩ :=
      ho.newcomer (c := d) hbirth.before (by simp [Stance.newcomer?, hbirth.launches])
    refine hbirth.others b (ne hne) ?_
    rintro rfl
    simp [absent] at hb
  | arrive _ others =>
    refine others b ?_
    rintro rfl
    exact absurd (ho.newCaller hb) (Nat.lt_irrefl _)
  | found name state others => exact others b
  | furnish hth => exact .same hth
  | rest others => exact others b

/-- While others act, a thread stays where it is, at most notified. -/
theorem Machine.Ordered.stays {act : Action S A V} {t : Thread S A V} (ho : m.Ordered)
    (ha : m.act act = some m') (ht : m.threads.get? b = some t) (hact : act.actor? ≠ some b) :
    m'.threads.get? b = some t ∨ m'.threads.get? b = some t.rouse := by
  obtain ⟨notified, hb⟩ := (shift_act ho ha).other ho (by simp [look_eq m b ht]) hact
  rw [ht] at hb
  cases notified with
  | false => exact .inl hb
  | true => exact .inr hb

/-- Only a step of its own changes what a thread is about to do. -/
theorem Machine.Ordered.kept_or_steps {act : Action S A V} {l : Option CogId × Stance}
    (ho : m.Ordered) (ha : m.act act = some m') (hl : m.look b = some l) :
    m'.look b = some l ∨ act = .step b := by
  by_cases hact : act.actor? = some b
  · exact .inr (Action.step_of_actor hact)
  · exact .inl (((shift_act ho ha).other ho (by simp [hl]) hact).look.trans hl)

/-- A thread is the one that acts, or is as it was, or is new and has not begun. -/
theorem Shift.came {actor : Option Agent} (h : Shift m m' actor) (hl : m'.look b = some (own, s)) :
    (actor = some b ∧ ∃ s₀, m.look b = some (own, s₀)) ∨ m.look b = some (own, s) ∨
      s = .claim ∨ s = .body none := by
  have acts {a : Agent} {s₁ : Stance} (e : b = a) (hl₁ : m.look a = some (own, s₁)) :
      some a = some b ∧ ∃ s₀, m.look b = some (own, s₀) := by
    subst e
    exact ⟨rfl, s₁, hl₁⟩
  have turns {a : Agent} {own₁ : Option CogId} {s₁ s₂ : Stance} (ht : Turns m a own₁ s₁ s₂ m') :
      (some a = some b ∧ ∃ s₀, m.look b = some (own, s₀)) ∨ m.look b = some (own, s) ∨
        s = .claim ∨ s = .body none := by
    rcases ht.cases hl with ⟨e, rfl, -⟩ | ⟨-, hl⟩
    · exact .inl (acts e ht.before)
    · exact .inr (.inl hl)
  have other (hb : m.Stirred m' b) : m.look b = some (own, s) := hb.look ▸ hl
  cases h with
  | quiet ht => exact turns ht
  | deed ht => exact turns ht
  | allocate ht => exact turns ht
  | letter ht => exact turns ht
  | birth hb =>
    rcases hb.cases hl with ⟨e, rfl, -⟩ | ⟨-, -, -, e⟩ | ⟨-, -, hl⟩
    · exact .inl (acts e hb.before)
    · exact .inr (.inr (.inl e))
    · exact .inr (.inl hl)
  | launch hb =>
    rcases hb.cases hl with ⟨e, rfl, -⟩ | ⟨-, -, -, e⟩ | ⟨-, -, hl⟩
    · exact .inl (acts e hb.before)
    · exact .inr (.inr (.inr e))
    · exact .inr (.inl hl)
  | @gone a _ _ _ _ gone others =>
    refine .inr (.inl (other (others b ?_)))
    rintro rfl
    simp [Machine.look, gone] at hl
  | arrive hnew others =>
    by_cases hab : b = .caller m.nextCaller
    · rw [hab, hnew] at hl
      cases hl
      exact .inr (.inr (.inr rfl))
    · exact .inr (.inl (other (others b hab)))
  | found _ _ others => exact .inr (.inl (other (others b)))
  | furnish hth => exact .inr (.inl (other (.same hth)))
  | rest others => exact .inr (.inl (other (others b)))

/-! ## The thread itself -/

/-- How the thread that acts goes from one stance to the next. -/
inductive Passes (m m' : Machine S A V) (a : Agent) (own : Option CogId) : Stance → Stance → Prop where
  | quiet {s s' : Stance} : s.Quiet own s' → Passes m m' a own s s'
  | deed {g : CogId} {loud : Bool} {s s' : Stance} {x x' : Cog S A V} :
      Deed g a own loud s x s' x' → Passes m m' a own s s'
  | allocate {s : Stance} : s.stage? = some .check →
      Passes m m' a own s (s.restage (.register m.registry.nextContext))
  | grant {g : CogId} {c : ContextId} {s s' : Stance} {x x' : Cog S A V} :
      Grant g c a own s x s' x' → Passes m m' a own s s'
  | launch {c : ContextId} {seat : Option Seat} :
      Passes m m' a own (.start (.launch c) seat) (.body seat)
  | letter {seat : Option Seat} {g : CogId} {view : TaskView} : view.id = m.nextTask →
      m.nextTask.val < m'.nextTask.val → view.state = .queued → view.context = none →
      Passes m m' a own (.body seat) (.enrol seat g view)

theorem Shift.passes (h : Shift m m' (some a)) (hl : m.look a = some (own, s))
    {own' : Option CogId} (hl' : m'.look a = some (own', s')) :
    own' = own ∧ Passes m m' a own s s' := by
  have turns {own₁ : Option CogId} {s₁ s₂ : Stance} (ht : Turns m a own₁ s₁ s₂ m')
      (passes : Passes m m' a own₁ s₁ s₂) : own' = own ∧ Passes m m' a own s s' := by
    cases ht.before.symm.trans hl
    cases ht.after.symm.trans hl'
    exact ⟨rfl, passes⟩
  have births {own₁ cog : Option CogId} {s₁ s₂ first : Stance} {d : ContextId}
      (hb : Births m a own₁ s₁ s₂ d cog first m') (passes : Passes m m' a own₁ s₁ s₂) :
      own' = own ∧ Passes m m' a own s s' := by
    cases hb.before.symm.trans hl
    cases hb.after.symm.trans hl'
    exact ⟨rfl, passes⟩
  cases h with
  | quiet ht hq => exact turns ht (.quiet hq)
  | deed ht _ hd => exact turns ht (.deed hd)
  | allocate ht hs => exact turns ht (.allocate hs)
  | birth hb _ hg => exact births hb (.grant hg)
  | launch hb => exact births hb .launch
  | letter ht hs _ hi =>
    simp only [Machine.issue, Prod.mk.injEq] at hi
    rcases hs with rfl | ⟨g, view, rfl, hid, state, context⟩
    · exact turns ht (.quiet (.same _))
    · exact turns ht (.letter hid (by simp [hi, TaskId.next]) state context)
  | gone _ _ gone => simp [Machine.look, gone] at hl'

section
open Machine

theorem Machine.thread_set {t : Thread S A V} {m₁ : Machine S A V} (k : Control S A V)
    (ht : m.threads.get? a = some t) (hm : m.Stirred m₁ a) :
    (m₁.setControl a k).threads.get? a = some { t with control := k } := by
  obtain ⟨p, hp⟩ := hm
  rw [thread_setControl, if_pos rfl, hp, ht]
  cases p <;> rfl

/-- A thread in the middle of the last part of its await holds the lock. -/
theorem Machine.Ordered.lock_of_contend (ho : m.Ordered) {t : Thread S A V} {aw : Awaiting S A V}
    {phase : Phase S} (ht : m.threads.get? (.context c) = some t) (hg : t.cog = some g)
    (hk : t.control = .awaiting aw phase) (hx : m.cogs.get? g = some x)
    (hs : phase.stance aw.task = .contend aw.task) : x.lock = some (.context c) := by
  have hl := look_eq m _ ht
  have stance : t.control.stance = .contend aw.task := by rw [hk, ← hs]; rfl
  rw [hg, stance] at hl
  obtain ⟨y, hy, lock, -⟩ := ho.locks hl rfl
  cases hx.symm.trans hy
  exact lock

end

end ObjectGroups
