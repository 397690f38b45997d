/-
Nobody sleeps through an interrupt of its context.

Outside the lock, a thread in an await looks at the flag of its context before
it sleeps on the parker, and who raises the flag notifies whoever sleeps there.
Under the lock it looks at the flag once more, and then keeps the lock until
it sleeps. The flag may be raised in between; but the wake-up that follows
needs the lock, and so finds the thread asleep.
-/
import ObjectGroups.Proofs.Rest
import ObjectGroups.Proofs.Signals

namespace ObjectGroups

variable {S A V : Type} {m m' : Machine S A V} {g : CogId} {c : ContextId} {x x' : Cog S A V}
  {aw : Awaiting S A V} {phase : Phase S} {t : Thread S A V} {move : Action S A V}

open Machine

/-! ## Sleep in a wait -/

namespace Wait

variable {w : Wait S} {v : Sight} {σ : S} {p : Parker} {next : WaitMove S}

/-- The thread sleeps on its parker, and nobody has notified it. -/
def slumbers (w : Wait S) : Bool :=
  match w.point with
  | .park _ (.asleep false) _ => true
  | _ => false

theorem slumbers_notify (w : Wait S) : w.notify.slumbers = false := by
  obtain ⟨point, frames⟩ := w
  cases point with
  | park d sleep after => cases sleep <;> rfl
  | _ => rfl

/-- A thread that goes to sleep has looked for an interrupt. -/
theorem slumbers_step (h : w.step v σ p = some next) (hs : next.wait.slumbers = true) :
    p.interrupted = false := by
  cases step_paces h with
  | goes hy => cases hy <;> cases hs
  | sleeps hlook => exact (Parker.bare_of_sleeps hlook).1
  | @wakes d sleep after frames r => cases after <;> cases r <;> cases hs
  | _ => cases hs

end Wait

namespace Machine

/-- A thread in an await is told of an interrupt of its context. -/
def Heeds (m : Machine S A V) (c : ContextId) (g : CogId) (_ : Cog S A V) (_ : Awaiting S A V) :
    Phase S → Prop
  | .wait w => w.slumbers = true → m.interrupted c = false
  | .doze _ => m.interrupted c = true → m.Ringing (.scheduler g)
  | .asleep _ _ notified => m.interrupted c = true → notified = true ∨ m.Ringing (.scheduler g)
  | _ => True

theorem Heeds.of_begins (h : phase.Begins x c aw ∨ m.Heeds c g x aw phase) :
    m.Heeds c g x aw phase := by
  rcases h with begins | heeds
  · cases begins with
    | wait => nofun
    | _ => trivial
  · exact heeds

section
variable (ho : m.Ordered) (hh : m.Housed) (hd : m.Addressed) (ha : m.act move = some m')
  (hs : m.Stands c g x t aw phase) (heeds : m.Heeds c g x aw phase)
include ho ha hs

/-- The flag has been up before, or the wake-up that follows it is under way. -/
theorem flag_or_ringing (hh : m.Housed) (hd : m.Addressed) (hi : m'.interrupted c = true) :
    m.interrupted c = true ∨
      ((⟨m, move, m'⟩ : Move S A V).interrupts? = some c ∧ m'.Ringing (.scheduler g)) := by
  rcases raised ho ha hi with before | hit
  · exact .inl before
  · have hl := look_eq m _ hs.thread
    rw [hs.home] at hl
    obtain ⟨y, hy, cog⟩ := (hh.thread hl).1.entry
    obtain ⟨y', hy', rings⟩ := hd.sends ho ha hit
    cases hy.symm.trans hy'
    exact .inr ⟨hit, rings g cog⟩

include heeds

/-- From phase to phase. -/
theorem heeds_own (hact : move = .step (.context c)) (hx' : m'.cogs.get? g = some x') {phase' : Phase S}
    (h : Proceeds m c g x aw m' phase phase') : m'.Heeds c g x' aw phase' := by
  have hl := look_eq m _ hs.thread
  rw [hs.home] at hl
  have silent : m.signals (.context c) = [] := by
    rw [signals_eq hs.thread, hs.control]
    rfl
  -- The thread does not interrupt its own context in an await.
  have before (hi : m'.interrupted c = true) : m.interrupted c = true := by
    rcases raised ho ha hi with before | hit
    · exact before
    · obtain ⟨a, rest, hact', signals⟩ := Move.interrupts?_eq hit
      cases (congrArg Action.actor? hact).symm.trans hact'
      rw [silent] at signals
      cases signals
  have lowered (going : m.interrupted c = false) : m'.interrupted c = false := by
    refine Bool.eq_false_iff.mpr fun hi => ?_
    rw [before hi] at going
    cases going
  have rings (hactive : x'.scheduler.active = x.scheduler.active) (ringing : m.Ringing (.scheduler g)) :
      m'.Ringing (.scheduler g) :=
    ((later_of_own ho ha hs hx' hact hactive (ho.alive_scheduler hl)).ringing ringing).resolve_right id
  have sleeps (hf : ∃ failure, phase = .doze failure)
      (hc : m'.cogs.get? g = some { x with lock := none }) (hi : m'.interrupted c = true) :
      m'.Ringing (.scheduler g) := by
    obtain ⟨failure, rfl⟩ := hf
    cases hx'.symm.trans hc
    exact rings rfl (heeds (before hi))
  cases h with
  | waits _ hm => exact fun hw => lowered (Wait.slumbers_step hm hw)
  | answered _ hp => rcases hp with rfl | rfl <;> trivial
  | taken failure _ _ _ going =>
    intro hi
    rw [lowered going] at hi
    cases hi
  | refused _ _ _ _ going =>
    intro hi
    rw [lowered going] at hi
    cases hi
  | aimed _ hc => exact fun hi => .inr (sleeps ⟨_, rfl⟩ hc hi)
  | aimFailed _ hc => exact fun hi => .inr (sleeps ⟨_, rfl⟩ hc hi)
  | sleeps e hc => exact fun hi => .inr (sleeps ⟨_, rfl⟩ hc hi)
  | _ => trivial

include hh hd

/-- While others act. -/
theorem heeds_other (hne : move.actor? ≠ some (.context c)) (hm : m.Stirred m' (.context c))
    (hx' : m'.cogs.get? g = some x') :
    ∃ t' phase', m'.Stands c g x' t' aw phase' ∧ m'.Heeds c g x' aw phase' := by
  have same (hp : phase.rouse = phase) (heeds' : m'.Heeds c g x' aw phase) :
      ∃ t' phase', m'.Stands c g x' t' aw phase' ∧ m'.Heeds c g x' aw phase' := by
    obtain ⟨t', hs'⟩ := hs.still hm hx' hp
    exact ⟨t', phase, hs', heeds'⟩
  cases phase with
  | wait w =>
    obtain ⟨p, t', hs', roused⟩ := hs.stirred hm hx'
    refine ⟨t', _, hs', ?_⟩
    cases p with
    | true => exact fun hw => absurd hw (by simp [w.slumbers_notify])
    | false =>
      intro hw
      refine Bool.eq_false_iff.mpr fun hi => ?_
      rcases flag_or_ringing ho ha hs hh hd hi with before | ⟨hit, -⟩
      · rw [heeds hw] at before
        cases before
      · -- Whoever raises the flag notifies the sleeper.
        obtain ⟨a, rest, hact, signals⟩ := Move.interrupts?_eq hit
        have hca : Agent.context c ≠ a := fun e => hne (e ▸ hact)
        have sleeps : t.sleepsOn (.context c) (.parker (.own c)) = true := by
          simp [Thread.sleepsOn, hs.control, Agent.context?]
        rcases (aside_act ho ha).signals a hact with none | ⟨first, rest', now, -, sent⟩
        · rw [none] at signals
          cases signals
        · cases signals.symm.trans now
          exact Bool.noConfusion (roused (sent _ t hca hs.thread sleeps))
  | doze failure =>
    have later := later_of_locked ho ha hs hx' hh hne rfl
    refine same rfl fun hi => ?_
    rcases flag_or_ringing ho ha hs hh hd hi with before | ⟨-, rings⟩
    · exact (later.ringing (heeds before)).resolve_right id
    · exact rings
  | asleep failure deadline notified =>
    obtain ⟨p, t', hs', later⟩ := later_of_asleep ho ha hs hx' hh hne rfl
    refine ⟨t', _, hs', fun hi => ?_⟩
    rcases flag_or_ringing ho ha hs hh hd hi with before | ⟨-, rings⟩
    · rcases heeds before with told | ringing
      · exact .inl (by simp [told])
      · rcases later.ringing ringing with rings | told
        · exact .inr rings
        · exact .inl (by simp [told])
    · exact .inr rings
  | _ => exact same rfl trivial

end

theorem Reachable.heeds {r : Registry} {memory : A} (h : Reachable (.empty r memory) m) :
    m.Follows m.Heeds := by
  induction h with
  | refl =>
    intro c t g x ht
    cases ht
  | @act m m' move h ha ih =>
    have ho : m.Ordered := h.ordered
    have hh : m.Housed := h.housed
    refine follows_act ho ha ih ?_ ?_
    · intro c g x x' t t' aw phase phase' hact hs before hs' proceeds
      exact heeds_own ho ha hs (.of_begins before) hact hs'.cog proceeds
    · intro c g x x' t aw phase hne hs before hm hx'
      exact heeds_other ho hh h.addressed ha hs (.of_begins before) hne hm hx'

/-- Who is at rest in an await has not been interrupted. -/
theorem Still.not_interrupted (still : m.Still) (ho : m.Ordered) (hf : m.Follows m.Heeds)
    (ht : m.threads.get? (.context c) = some t) (hg : t.cog = some g) (hx : m.cogs.get? g = some x)
    (hk : t.control.await? = some aw) : m.interrupted c = false := by
  have before := hf c t g x ht hg hx
  rcases still.asleep ho ht hg hx hk with ⟨w, hc, hr, hs⟩ | ⟨failure, deadline, hc, -⟩
  · rw [hc] at before
    have heeds : m.Heeds c g x aw (.wait w) := .of_begins before.awaiting
    obtain ⟨d, after, hp, -⟩ := Wait.asleep_of_blocked hs hr
    exact heeds (by simp [Wait.slumbers, hp])
  · rw [hc] at before
    have heeds : m.Heeds c g x aw (.asleep failure deadline false) := .of_begins before.awaiting
    refine Bool.eq_false_iff.mpr fun hi => ?_
    rcases heeds hi with told | rings
    · cases told
    · exact still.not_ringing ho _ rings

end Machine

end ObjectGroups
