/-
What threads in the middle of an await can rely upon.

An await begins with nothing to rely upon: its thread has the slot, or is
about to start the wait, or is about to take the lock. From there it proceeds
phase by phase, in steps of its own, while others act. A property of the
phases holds in every run if these two keep it (`Machine.follows_act`).
-/
import ObjectGroups.Proofs.Suspension

namespace ObjectGroups

open Machine

variable {S A V : Type} {m m' : Machine S A V} {a b : Agent} {g : CogId} {c : ContextId}
  {x x' : Cog S A V} {aw : Awaiting S A V} {phase : Phase S} {k : Control S A V}
  {t t' : Thread S A V} {P P' : ContextId → CogId → Cog S A V → Awaiting S A V → Phase S → Prop}

/-- The thread of `c`, which works for the cog `g`, is at this phase of the await. -/
structure Machine.Stands (m : Machine S A V) (c : ContextId) (g : CogId) (x : Cog S A V)
    (t : Thread S A V) (aw : Awaiting S A V) (phase : Phase S) : Prop where
  thread : m.threads.get? (.context c) = some t
  home : t.cog = some g
  cog : m.cogs.get? g = some x
  control : t.control = .awaiting aw phase

theorem Machine.Stands.awaits (h : m.Stands c g x t aw phase) : t.control.await? = some aw := by
  rw [h.control]
  rfl

/-- The await in which the thread is about to look at the slot and, if it is free, to ask the guard. -/
def Control.looks? : Control S A V → Option (Awaiting S A V)
  | .awaiting aw (.contend none) => some aw
  | _ => none

theorem Control.of_looks (h : k.looks? = some aw) : k = .awaiting aw (.contend none) := by
  unfold looks? at h
  split at h
  · cases h
    rfl
  · cases h

theorem Machine.Stands.of_looks (looks : (m.threads.get? (.context c)).bind (·.control.looks?) = some aw)
    (home : (m.threads.get? (.context c)).map (·.cog) = some (some g)) (hx : m.cogs.get? g = some x) :
    ∃ t, m.Stands c g x t aw (.contend none) := by
  obtain ⟨t, ht, hk⟩ := Option.bind_eq_some_iff.mp looks
  rw [ht] at home
  exact ⟨t, ht, Option.some.inj home, hx, Control.of_looks hk⟩

/-- The phase of a notified thread. -/
def Phase.rouse : Phase S → Phase S
  | .wait w => .wait w.notify
  | .asleep failure deadline _ => .asleep failure deadline true
  | phase => phase

theorem Control.rouse_awaiting (aw : Awaiting S A V) (phase : Phase S) :
    (Control.awaiting aw phase).rouse = .awaiting aw phase.rouse := by
  cases phase <;> rfl

/-- The thread `c` of the cog is about to begin an await or one of its parts. -/
inductive Phase.Begins (x : Cog S A V) (c : ContextId) (aw : Awaiting S A V) : Phase S → Prop where
  | release : Phase.Begins x c aw .release
  | wait : c ∈ x.scheduler.waiters → Phase.Begins x c aw (.wait (.start aw.guard))
  | reenter : Phase.Begins x c aw (.reenter none)

/-- The thread is in no await, or at the beginning of one of its parts. -/
def Control.Begins (k : Control S A V) (c : ContextId) (x : Cog S A V) : Prop :=
  ∀ aw phase, k.behind = .awaiting aw phase → phase.Begins x c aw

/-- In the middle of an await the thread finds what `P` says. -/
def Control.Follows (k : Control S A V) (c : ContextId) (x : Cog S A V)
    (P : Awaiting S A V → Phase S → Prop) : Prop :=
  k.Begins c x ∨ ∃ aw phase, k = .awaiting aw phase ∧ P aw phase

/-- So does every thread of a cog. -/
def Machine.Follows (m : Machine S A V)
    (P : ContextId → CogId → Cog S A V → Awaiting S A V → Phase S → Prop) : Prop :=
  ∀ c t g x, m.threads.get? (.context c) = some t → t.cog = some g → m.cogs.get? g = some x →
    t.control.Follows c x (P c g x)

namespace Control

theorem Begins.of_behind (h : k.behind = .awaiting aw phase) (hp : phase.Begins x c aw) :
    k.Begins c x := by
  intro aw' phase' e
  rw [h] at e
  cases e
  exact hp

theorem Begins.of_none (h : ∀ aw phase, k.behind ≠ .awaiting aw phase) : k.Begins c x :=
  fun aw phase e => absurd e (h aw phase)

theorem Begins.of_run {seat : Option Seat} {body : Body S A V} (h : k.behind = .run seat body) :
    k.Begins c x := by
  refine .of_none fun aw phase e => ?_
  rw [h] at e
  cases e

/-- A thread whose stance is not that of an await is in none. -/
theorem Begins.of_stance (h : ∀ (aw : Awaiting S A V) (phase : Phase S),
    k.stance ≠ phase.stance aw.task) : k.Begins c x := by
  refine .of_none fun aw phase e => h aw phase ?_
  rw [← k.stance_behind, e]
  rfl

/-- A notification does not move a thread that is at the beginning of a part. -/
theorem Begins.other {p : Bool} (h : k.Begins c x) (hk : ∀ aw phase, k ≠ .awaiting aw phase)
    (hw : c ∈ x.scheduler.waiters → c ∈ x'.scheduler.waiters) :
    (if p then k.rouse else k).Begins c x' := by
  have kept : k.Begins c x' := by
    intro aw phase e
    cases h aw phase e with
    | release => exact .release
    | wait hc => exact .wait (hw hc)
    | reenter => exact .reenter
  cases p with
  | false => exact kept
  | true => cases k with
    | awaiting aw phase => exact absurd rfl (hk aw phase)
    | notify i n after => exact kept
    | _ =>
      refine .of_none ?_
      intro aw phase e
      cases e

theorem Follows.awaiting {P : Awaiting S A V → Phase S → Prop}
    (h : (Control.awaiting aw phase).Follows c x P) : phase.Begins x c aw ∨ P aw phase := by
  rcases h with begins | ⟨aw', phase', e, holds⟩
  · exact .inl (begins aw phase rfl)
  · cases e
    exact .inr holds

end Control

/-! ## While others act -/

/-- The waiters stay enlisted, the actor apart. -/
theorem Deed.waiters {own : Option CogId} {loud : Bool} {s s' : Stance} {d : ContextId}
    (h : Deed g a own loud s x s' x')
    (hd : .context d ≠ a) (hx : d ∈ x.scheduler.waiters) : d ∈ x'.scheduler.waiters := by
  have ne (c : ContextId) (hc : a = .context c) : d ≠ c := fun e => hd (by rw [e, hc])
  cases h <;> simp_all [Scheduler.enqueue, Scheduler.withdraw, Scheduler.markReady,
    Scheduler.mem_addWaiter, Scheduler.mem_removeWaiter, Scheduler.retire]

/-- A waiter stays enlisted while others act. -/
theorem waiters_kept (ho : m.Ordered) {act : Action S A V} (ha : m.act act = some m')
    (hne : act.actor? ≠ some (.context c)) (hx : m.cogs.get? g = some x)
    (hx' : m'.cogs.get? g = some x') (h : c ∈ x.scheduler.waiters) : c ∈ x'.scheduler.waiters := by
  obtain ⟨y, hy, worked⟩ := (shift_act ho ha).cog hx (ho.newCog (by simp [hx]))
  cases hy.symm.trans hx'
  generalize hactor : act.actor? = actor at worked
  have ne {a : Agent} (e : some a = actor) : .context c ≠ a := by
    rintro rfl
    exact hne (hactor.trans e.symm)
  cases worked with
  | idle e =>
    rw [e]
    exact h
  | deed _ hd => exact hd.waiters (ne rfl) h
  | grant _ hg =>
    cases hg with
    | submission => exact h
    | handover => exact (Scheduler.mem_addWaiter ..).mpr (.inr h)

/-- A thread in an await stays at its phase while others act, and may be notified there. -/
theorem Machine.Stands.stirred (hs : m.Stands c g x t aw phase) (h : m.Stirred m' (.context c))
    (hx' : m'.cogs.get? g = some x') :
    ∃ (p : Bool) (t' : Thread S A V), m'.Stands c g x' t' aw (if p then phase.rouse else phase) ∧
      (m'.threads.get? (.context c) = some t.rouse → p = true) := by
  have roused (e : m'.threads.get? (.context c) = some t.rouse) :
      m'.Stands c g x' t.rouse aw phase.rouse :=
    ⟨e, hs.home, hx', (congrArg Control.rouse hs.control).trans (Control.rouse_awaiting aw phase)⟩
  obtain ⟨p, hp⟩ := h
  rw [hs.thread] at hp
  by_cases told : m'.threads.get? (.context c) = some t.rouse
  · exact ⟨true, t.rouse, roused told, fun _ => rfl⟩
  · refine ⟨false, t, ?_, fun e => absurd e told⟩
    cases p with
    | true => exact absurd hp told
    | false => exact ⟨hp, hs.home, hx', hs.control⟩

/-- A thread that does not sleep is not notified. -/
theorem Machine.Stands.still (hs : m.Stands c g x t aw phase) (h : m.Stirred m' (.context c))
    (hx' : m'.cogs.get? g = some x') (hp : phase.rouse = phase) :
    ∃ t', m'.Stands c g x' t' aw phase := by
  obtain ⟨p, t', hs', -⟩ := hs.stirred h hx'
  rw [hp, ite_self] at hs'
  exact ⟨t', hs'⟩

/-! ## In every action -/

/-- A step at a phase of an await leads to another one, or to the beginning of a part, or out. -/
theorem Strides.begins (h : Strides m c g x aw m' phase k) (hx' : m'.cogs.get? g = some x') :
    k.Begins c x' ∨ ∃ phase', k = .awaiting aw phase' ∧ Proceeds m c g x aw m' phase phase' := by
  cases h with
  | hands =>
    refine .inl (.of_none ?_)
    intro aw phase e
    cases e
  | enlists hb hw =>
    obtain ⟨y, hy, hw⟩ := hw
    cases hx'.symm.trans hy
    exact .inl (.of_behind hb (.wait hw))
  | marked hb => exact .inl (.of_behind hb .reenter)
  | proceeds h => exact .inr ⟨_, rfl, h⟩
  | aborts _ hb => exact .inl (.of_run hb)
  | fails _ _ hb => exact .inl (.of_run hb)
  | unwinds _ hb => exact .inl (.of_run hb)
  | resumes _ _ hb => exact .inl (.of_run hb)

namespace Machine

/-- A step of a thread that is not in the middle of an await leaves it at the beginning of one. -/
theorem begins_step (ho : m.Ordered) (ha : m.act (.step (.context c)) = some m')
    (ht : m.threads.get? (.context c) = some t) (hg : t.cog = some g)
    (hx : m.cogs.get? g = some x) (ht' : m'.threads.get? (.context c) = some t')
    (hx' : m'.cogs.get? g = some x') (hk : ∀ aw phase, t.control ≠ .awaiting aw phase)
    (h : t.control.Begins c x) : t'.control.Begins c x' := by
  cases haw : t.control.await? with
  | none =>
    have awaits : t.control.stance.awaits = none := by
      refine Option.eq_none_iff_forall_ne_some.mpr fun k hk => ?_
      obtain ⟨aw, some, -⟩ := Control.await_of_awaits hk
      rw [haw] at some
      cases some
    have suspends := (shift_act ho ha).outside (look_eq m _ ht) awaits (look_eq m' _ ht')
    intro aw phase e
    rw [← Control.stance_behind, e] at suspends
    cases phase <;> first | exact .release | cases suspends
  | some aw =>
    obtain ⟨k, htk, treads⟩ := step_treads ho ht hg hx haw ha
    cases ht'.symm.trans htk
    generalize t.control = control at treads h hk
    cases treads with
    | tells _ _ _ cogs =>
      rw [cogs, hx] at hx'
      cases hx'
      exact h
    | hands hands => cases hands with
      | goesOn =>
        refine .of_none ?_
        intro aw phase e
        cases e
      | enlists hb hw =>
        obtain ⟨y, hy, hw⟩ := hw
        cases hx'.symm.trans hy
        exact .of_behind hb (.wait hw)
      | unwinds _ hb => exact .of_run hb
    | strides => exact absurd rfl (hk _ _)

/-- What the phases of awaits can rely upon is kept by every action if it is kept
by the thread that awaits and by the others. -/
theorem follows_act (ho : m.Ordered) {act : Action S A V} (ha : m.act act = some m')
    (h : m.Follows P)
    (own : ∀ {c g x x' t t' aw phase phase'}, act = .step (.context c) →
      m.Stands c g x t aw phase → phase.Begins x c aw ∨ P c g x aw phase →
      m'.Stands c g x' t' aw phase' → Proceeds m c g x aw m' phase phase' →
      P' c g x' aw phase')
    (other : ∀ {c g x x' t aw phase}, act.actor? ≠ some (.context c) →
      m.Stands c g x t aw phase → phase.Begins x c aw ∨ P c g x aw phase →
      m.Stirred m' (.context c) → m'.cogs.get? g = some x' →
      ∃ t' phase', m'.Stands c g x' t' aw phase' ∧ P' c g x' aw phase') : m'.Follows P' := by
  intro c t' g x' ht' hg' hx'
  have hl' := look_eq m' _ ht'
  rw [hg'] at hl'
  have acts {s₀ : Stance} (hact : act.actor? = some (.context c))
      (hl : m.look (.context c) = some (some g, s₀)) : t'.control.Follows c x' (P' c g x') := by
    obtain rfl := Action.step_of_actor hact
    obtain ⟨t, ht, hg, -⟩ := look_eq_some m _ hl
    obtain ⟨-, x, hx⟩ := ho.home hl
    have before := h c t g x ht hg hx
    by_cases amid : ∃ aw phase, t.control = .awaiting aw phase
    · obtain ⟨aw, phase, hk⟩ := amid
      rw [hk] at before
      obtain ⟨k, hk', strides⟩ := step_strides ht hg hk hx ha
      cases ht'.symm.trans hk'
      rcases strides.begins hx' with begins | ⟨phase', rfl, proceeds⟩
      · exact .inl begins
      · exact .inr ⟨aw, phase', rfl,
          own rfl ⟨ht, hg, hx, hk⟩ before.awaiting ⟨hk', hg, hx', rfl⟩ proceeds⟩
    · have begins := before.resolve_right fun ⟨aw, phase, e, _⟩ => amid ⟨aw, phase, e⟩
      exact .inl (begins_step ho ha ht hg hx ht' hx' (fun aw phase e => amid ⟨aw, phase, e⟩) begins)
  rcases (shift_act ho ha).came hl' with ⟨hact, s₀, hl⟩ | hl | hs
  · exact acts hact hl
  · by_cases hact : act.actor? = some (.context c)
    · exact acts hact hl
    · obtain ⟨t, ht, hg, -⟩ := look_eq_some m _ hl
      obtain ⟨-, x, hx⟩ := ho.home hl
      have before := h c t g x ht hg hx
      have stirred := (shift_act ho ha).other ho (by simp [hl]) hact
      by_cases amid : ∃ aw phase, t.control = .awaiting aw phase
      · obtain ⟨aw, phase, hk⟩ := amid
        rw [hk] at before
        obtain ⟨t₁, phase', hs, holds⟩ :=
          other hact ⟨ht, hg, hx, hk⟩ before.awaiting stirred hx'
        cases ht'.symm.trans hs.thread
        exact .inr ⟨aw, phase', hs.control, holds⟩
      · have begins := before.resolve_right fun ⟨aw, phase, e, _⟩ => amid ⟨aw, phase, e⟩
        obtain ⟨p, hp⟩ := stirred
        rw [ht] at hp
        have told : t'.control = if p then t.control.rouse else t.control := by
          cases ht'.symm.trans hp
          cases p <;> rfl
        rw [told]
        exact .inl (begins.other (fun aw phase e => amid ⟨aw, phase, e⟩)
          (waiters_kept ho ha hact hx hx'))
  · refine .inl (.of_stance fun aw phase e => ?_)
    rw [e] at hs
    rcases hs with hs | hs <;> cases phase <;> cases hs

end Machine

end ObjectGroups
