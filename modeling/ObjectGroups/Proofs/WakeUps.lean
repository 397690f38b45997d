/-
No wake-up is lost.

Take a run in which all guards that are awaited are made of the library's
parts, and in which time passes only while the contexts are at rest. Whenever
all threads have come to rest and the slot of a cog is free, no task of the
cog is suspended with a guard that holds: a sleeper that could go on would
have been told by whoever changed the state, resolved the future or gave the
slot up, or its deadline would have passed.
-/
import ObjectGroups.Proofs.Attention
import ObjectGroups.Proofs.Failures

namespace ObjectGroups

variable {S A V : Type} {start m m' : Machine S A V} {g : CogId} {c : ContextId}
  {x : Cog S A V} {aw : Awaiting S A V} {t : Thread S A V}

namespace Machine

/-- What can come of a machine in which punctual guards are awaited, and time
passes only while every context is at rest. -/
inductive Steady (start : Machine S A V) : Machine S A V → Prop where
  | refl : Steady start start
  | act {m m' : Machine S A V} {x : Action S A V} : Steady start m → m.act x = some m' →
      m'.Punctual → (m'.now = m.now ∨ ∀ c, m.AtRest (.context c)) → Steady start m'

/-- Whether the actions, tried in turn, keep a run steady. -/
def steadily (m : Machine S A V) : List (Action S A V) → Bool
  | [] => true
  | x :: acts => decide ((m.perform x).Punctual ∧ ((m.perform x).now = m.now ∨ m.Still)) &&
      (m.perform x).steadily acts

theorem Steady.foldl {acts : List (Action S A V)} (h : Steady start m) (hs : m.steadily acts = true) :
    Steady start (acts.foldl perform m) := by
  induction acts generalizing m with
  | nil => exact h
  | cons x acts ih =>
    simp only [steadily, Bool.and_eq_true, decide_eq_true_eq] at hs
    obtain ⟨⟨punctual, clock⟩, hs⟩ := hs
    refine ih ?_ hs
    unfold perform at punctual clock ⊢
    cases hx : m.act x with
    | none => exact h
    | some m' =>
      rw [hx] at punctual clock
      exact .act h hx punctual (clock.imp_right fun still c => still _)

/-- The thread of `c` works for the cog and is in the await. -/
def Awaits (m : Machine S A V) (c : ContextId) (g : CogId) (aw : Awaiting S A V) : Prop :=
  ∃ t, m.threads.get? (.context c) = some t ∧ t.cog = some g ∧ t.control.await? = some aw

/-- While others act, the thread stays in its await. -/
theorem Awaits.stays (h : m.Awaits c g aw) (ho : m.Ordered) {act : Action S A V} (ha : m.act act = some m')
    (hact : act.actor? ≠ some (.context c)) : m'.Awaits c g aw := by
  obtain ⟨t, ht, home, hk⟩ := h
  rcases ho.stays ha ht hact with stays | roused
  · exact ⟨t, stays, home, hk⟩
  · exact ⟨t.rouse, roused, home, (Control.await?_rouse _).trans hk⟩

theorem Stands.in_await {phase : Phase S} (h : m.Stands c g x t aw phase) : m.Awaits c g aw :=
  ⟨t, h.thread, h.home, h.awaits⟩

/-- No panic unwinds through the await of a guard of the library. -/
theorem Housed.not_unwinds (hh : m.Housed) (ho : m.Ordered) (hp : aw.guard.library = true) :
    ¬ Unwinds m c g aw := by
  rintro (⟨-, panics⟩ | ⟨hl, unnameable⟩)
  · exact Guard.evaluate_ne_panic hp _ _ _ panics
  · rw [hh.nameable ho hl] at unnameable
    cases unnameable

namespace Steady

theorem reachable (h : Steady start m) : Reachable start m := by
  induction h with
  | refl => exact .refl
  | act _ ha _ _ ih => exact .act ih ha

theorem punctual (h : Steady start m) (hp : start.Punctual) : m.Punctual := by
  cases h with
  | refl => exact hp
  | act _ _ hp _ => exact hp

variable (h : Steady start m) (ho : start.Ordered) (hh : start.Housed) (hp : start.Punctual)
include h ho hh hp

theorem recorded (hr : start.Recorded) : m.Recorded := by
  induction h with
  | refl => exact hr
  | @act n _ _ hn ha _ _ ih =>
    have ordered := ho.reachable hn.reachable
    refine ih.act ordered ha fun c g t aw _ ht _ hk => ?_
    exact (hh.reachable ho hn.reachable).not_unwinds ordered
      (Guard.library_of_timed (hn.punctual hp _ t aw ht hk))

theorem attentive (ha : start.Attentive) : m.Attentive := by
  induction h with
  | refl => exact ha
  | act hn hact _ hclock ih =>
    exact ih.act (ho.reachable hn.reachable) (hh.reachable ho hn.reachable) (hn.punctual hp) hact hclock

end Steady

/-- Nobody is stranded with a guard of the library. -/
theorem Stranded.not_punctual {e : GuardError} (h : Stranded start c g aw e m) :
    aw.guard.punctual ≠ true := by
  cases h with
  | @intro m₀ _ _ _ _ _ hs _ hd =>
    intro hp
    obtain ⟨d, hd', -⟩ := Guard.deadline_eq hp m₀.sight m₀.sight rfl
    cases hd.symm.trans hd'

/-- A thread that attends to its guard and sleeps although the slot is free has a guard that does not hold. -/
theorem Attentive.not_true (h : m.Attentive) (hf : m.Follows (m.Minds start)) (ho : m.Ordered)
    (still : m.Still) (hx : m.cogs.get? g = some x) (free : x.scheduler.active = none)
    (awaits : m.Awaits c g aw) (hp : aw.guard.punctual = true) :
    aw.guard.poll m.sight x.state ≠ .ok true := by
  obtain ⟨t, ht, hg, hk⟩ := awaits
  have before := h c t g x ht hg hx
  have silent := still.not_ringing ho
  have idle := still.not_busy ho hx free
  rcases still.asleep ho ht hg hx hk with ⟨w, hc, hr, hs⟩ | ⟨failure, deadline, hc, hd⟩
  · rw [hc] at before
    obtain ⟨-, within, watched⟩ := Attends.of_begins hp before.awaiting
    exact Wait.not_true_of_blocked within watched hs hr (silent _) idle
  · have hs : m.Stands c g x t aw (.asleep failure deadline false) := ⟨ht, hg, hx, hc⟩
    cases failure with
    | none =>
      rw [hc] at before
      have covered := Attends.of_begins hp before.awaiting
      exact covered.not_true hp (by simp) (silent _) idle hd
    | some e => exact absurd hp (hs.stranded hf ho still free).not_punctual

end Machine

open Machine

/-- In every state of a steady run in which all threads are at rest and the slot
of a cog is free, every suspended task of the cog is in an await, and no guard
that is awaited there holds. -/
theorem no_lost_wake_up (r : Registry) (memory : A) (h : Steady (.empty r memory) m)
    (still : m.Still) (hx : m.cogs.get? g = some x) (free : x.scheduler.active = none) :
    (∀ t, x.scheduler.Suspended t → ∃ c aw, m.Awaits c g aw ∧ aw.task = t) ∧
      ∀ c aw, m.Awaits c g aw → aw.guard.poll m.sight x.state ≠ .ok true := by
  have ho : (Machine.empty r memory : Machine S A V).Ordered := ordered_empty r memory
  have hh : (Machine.empty r memory : Machine S A V).Housed := housed_empty r memory
  have hp : (Machine.empty r memory : Machine S A V).Punctual := fun a t aw ht => by cases ht
  have ordered := ho.reachable h.reachable
  constructor
  · intro t suspended
    obtain ⟨a, s, hl, hs⟩ := (h.recorded ho hh hp (.empty r memory)).suspended hx suspended
    obtain ⟨⟨c, rfl⟩, -⟩ := ordered.home hl
    obtain ⟨th, ht, hg, rfl⟩ := look_eq_some m _ hl
    obtain ⟨aw, hk, htask⟩ := Control.await_of_suspends hs
    exact ⟨c, aw, ⟨th, ht, hg, hk⟩, htask⟩
  · intro c aw awaits
    obtain ⟨th, ht, -, hk⟩ := id awaits
    have minds := h.reachable.minds ho hh fun c t g x ht => by cases ht
    exact (h.attentive ho hh hp (attentive_empty r memory)).not_true minds ordered still hx free awaits
      (h.punctual hp _ th aw ht hk)

/-- A task waits for its cog to change, or for a future and the clock. -/
def lateActions : List (Action Nat Unit Unit) :=
  [.found "cog" 0,
    .arrive (.submit ⟨1⟩ "first"
      (.await (.any [.field "n > 0" fun n => .ok (0 < n), .all [.future ⟨1⟩, .timer (some 5) 5]])
        fun _ => .exit (.ok ()))
      fun _ => .exit (.ok ()))] ++
    List.replicate 9 (.step (.caller 1)) ++ List.replicate 8 (.step (.context ⟨1⟩)) ++ [.pass 7] ++
    List.replicate 7 (.step (.context ⟨1⟩))

/-- The clock has woken it in vain, and it sleeps again. -/
def late : Machine Nat Unit Unit :=
  lateActions.foldl perform (.empty { namePrefix := "cog", admits := fun _ => true } ())

theorem no_lost_wake_up_late :
    ∃ x, late.cogs.get? ⟨1⟩ = some x ∧ x.scheduler.active = none ∧ late.now = 7 ∧ late.Still ∧
      (∃ c aw, late.Awaits c ⟨1⟩ aw ∧ aw.task = ⟨1⟩) ∧
      ∀ c aw, late.Awaits c ⟨1⟩ aw → aw.guard.poll late.sight x.state ≠ .ok true := by
  have steady : Steady (.empty { namePrefix := "cog", admits := fun _ => true } ()) late :=
    .foldl .refl (by decide +kernel)
  have still : late.Still := by decide +kernel
  obtain ⟨x, hx⟩ : ∃ x, late.cogs.get? ⟨1⟩ = some x := Option.isSome_iff_exists.mp (by decide +kernel)
  have free : (late.cogs.get? ⟨1⟩).map (·.scheduler.active) = some none := by decide +kernel
  have state : (late.cogs.get? ⟨1⟩).bind (fun x => (x.scheduler.records.get? ⟨1⟩).map (·.view.state)) =
      some .suspended := by decide +kernel
  rw [hx] at free state
  have free : x.scheduler.active = none := Option.some.inj free
  obtain ⟨awaits, holds⟩ := no_lost_wake_up _ () steady still hx free
  exact ⟨x, hx, free, by decide +kernel, still, awaits _ (Option.map_eq_some_iff.mp state), holds⟩

end ObjectGroups
