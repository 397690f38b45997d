/-
Nobody who awaits a guard of the library is passed over.

A thread in an await attends to what may make its guard true: outside the lock
it is watched by the parker's wakers, under the lock the slot cannot be given
up, and asleep it is covered until its deadline (`Attends`). Others keep this,
and so does every step of the thread itself, as long as time stands still
while contexts are on their way.
-/
import ObjectGroups.Proofs.Rest

namespace ObjectGroups

open Machine

variable {S A V : Type} {m m' : Machine S A V} {g : CogId} {c : ContextId}
  {x x' : Cog S A V} {aw : Awaiting S A V} {phase : Phase S} {k : Control S A V}
  {t : Thread S A V}

namespace Machine

/-- What a thread in an await of a guard of the library can rely upon. -/
def Attends (m : Machine S A V) (c : ContextId) (g : CogId) (x : Cog S A V)
    (aw : Awaiting S A V) : Phase S → Prop
  | .wait w => c ∈ x.scheduler.waiters ∧ w.Within aw.guard.Part ∧
      w.point.Watched (m.outlook (.parker (.own c)) g x.state) (m.parker (.own c)).permit
  | .contend none => ∀ f ∈ aw.guard.reads, m.Listed (.scheduler g) f
  | .doze none => (m.outlook (.scheduler g) g x.state).Found False aw.guard
  | .asleep none deadline notified =>
    (m.outlook (.scheduler g) g x.state).Covered (notified = true) aw.guard deadline
  | _ => True

/-- Every thread that awaits a guard attends to it. -/
def Attentive (m : Machine S A V) : Prop := m.Follows m.Attends

/-- All guards that are awaited are guards of the library whose deadlines can be relied upon. -/
def Punctual (m : Machine S A V) : Prop :=
  ∀ a t aw, m.threads.get? a = some t → t.control.await? = some aw → aw.guard.punctual = true

instance : Decidable m.Punctual := decidable_of_iff _ (awaited_iff Guard.punctual).symm

theorem Punctual.stands (h : m.Punctual) (hs : m.Stands c g x t aw phase) :
    aw.guard.punctual = true :=
  h _ t aw hs.thread hs.awaits

theorem Attends.of_begins (hp : aw.guard.punctual = true)
    (h : phase.Begins x c aw ∨ m.Attends c g x aw phase) : m.Attends c g x aw phase := by
  rcases h with begins | attends
  · cases begins with
    | wait hc => exact ⟨hc, Wait.Within.start (Guard.Part.self hp), trivial⟩
    | _ => trivial
  · exact attends

end Machine

/-- A wait that is about to ask for a deadline takes that step. -/
theorem Wait.goesOn_of_aims {w : Wait S} (h : w.point.aims = true) (v : Sight) (σ : S) (p : Parker) :
    w.result? = none ∧ ∃ move, w.step v σ p = some move := by
  obtain ⟨point, frames⟩ := w
  cases point with
  | anyAim gs external => exact ⟨rfl, _, rfl⟩
  | _ => cases h

namespace Machine

/-- Time stands still while a thread is about to ask for a deadline. -/
theorem now_of_aims (hclock : m'.now = m.now ∨ ∀ c, m.AtRest (.context c))
    (hs : m.Stands c g x t aw phase)
    (haims : phase = .doze none ∨ ∃ w, phase = .wait w ∧ w.point.aims = true) : m'.now = m.now := by
  rcases hclock with same | rest
  · exact same
  · have blocked := (rest c).blocked_await hs.thread hs.awaits
    rw [step_awaiting hs.thread hs.home hs.control hs.cog] at blocked
    rcases haims with rfl | ⟨w, rfl, hw⟩
    · cases blocked
    · obtain ⟨hr, move, hm⟩ := w.goesOn_of_aims hw m.sight x.state (m.parker (.own c))
      simp [stepAwait, stepWait, hr, hm] at blocked

section
variable (ho : m.Ordered) (hh : m.Housed) {act : Action S A V} (ha : m.act act = some m')
  (hs : m.Stands c g x t aw phase) (hp : aw.guard.punctual = true)
  (attends : m.Attends c g x aw phase) (hx' : m'.cogs.get? g = some x')
include ho hh ha hs hp attends hx'

/-- While others act, a thread in an await goes on to attend to its guard. -/
theorem attends_other (hclock : m'.now = m.now ∨ ∀ c, m.AtRest (.context c))
    (hne : act.actor? ≠ some (.context c)) (hm : m.Stirred m' (.context c)) :
    ∃ t' phase', m'.Stands c g x' t' aw phase' ∧ m'.Attends c g x' aw phase' := by
  have same (hp : phase.rouse = phase) (attends' : m'.Attends c g x' aw phase) :
      ∃ t' phase', m'.Stands c g x' t' aw phase' ∧ m'.Attends c g x' aw phase' := by
    obtain ⟨t', hs'⟩ := hs.still hm hx' hp
    exact ⟨t', phase, hs', attends'⟩
  cases phase with
  | wait w =>
    obtain ⟨hc, within, watched⟩ := attends
    obtain ⟨p, t', hs', permit, later⟩ := later_of_waits ho ha hs hx' hh hne rfl hc
    refine ⟨t', _, hs', waiters_kept ho ha hne hs.cog hx' hc, ?_, ?_⟩
    · cases p with
      | false => exact within
      | true => exact within.notify
    · exact Wait.watched_later within watched later
        (fun hw => now_of_aims hclock hs (.inr ⟨w, rfl, hw⟩)) permit id
  | contend failure =>
    have later := later_of_locked ho ha hs hx' hh hne rfl
    refine same rfl ?_
    cases failure with
    | none => exact fun f hf => later.listed f (attends f hf)
    | some e => trivial
  | doze failure =>
    have later := later_of_locked ho ha hs hx' hh hne rfl
    refine same rfl ?_
    cases failure with
    | none => exact Outlook.Found.later later hp attends (now_of_aims hclock hs (.inl rfl)) id id
    | some e => trivial
  | asleep failure deadline notified =>
    obtain ⟨p, t', hs', later⟩ := later_of_asleep ho ha hs hx' hh hne rfl
    refine ⟨t', _, hs', ?_⟩
    cases failure with
    | none => exact Outlook.Covered.later later attends (by simp +contextual) (by simp +contextual)
    | some e => trivial
  | _ => exact same rfl trivial

/-- From phase to phase, a thread in an await makes itself attend to its guard. -/
theorem attends_own (hact : act = .step (.context c)) {phase' : Phase S}
    (h : Proceeds m c g x aw m' phase phase') : m'.Attends c g x' aw phase' := by
  have hl := look_eq m _ hs.thread
  rw [hs.home] at hl
  have alive := ho.alive_scheduler hl
  have later (hactive : x'.scheduler.active = x.scheduler.active) {w : Waker} (hw : m.alive w = true) :=
    later_of_own ho ha hs hx' hact hactive hw
  have joined {w : Waker} {fs : List FutureId} (hw : m.alive w = true)
      (hf : m'.futures = (m.subscribe w fs).futures) (f : FutureId) (h : f ∈ fs) : m'.Listed w f := by
    have listed := listed_subscriber hw h
    unfold Listed future at listed ⊢
    rwa [hf]
  have same (hc : m'.cogs = m.cogs) : x' = x := by
    rw [hc, hs.cog] at hx'
    exact (Option.some.inj hx').symm
  cases h with
  | @waits w move _ hm parker futures now hc =>
    obtain rfl := same hc
    obtain ⟨hc, within, watched⟩ := attends
    have own := hh.alive_parker hl
    have watched' := Wait.watched_step within watched hm (later rfl own) now (joined own futures)
    rw [← parker] at watched'
    exact ⟨hc, within.step Guard.Part.inherited hm, watched'⟩
  | answered _ hp => rcases hp with rfl | rfl <;> trivial
  | subscribes sources futures =>
    obtain ⟨b, hb⟩ := Guard.sources_eq hp m.sight
    cases sources.symm.trans hb
    exact joined alive futures
  | taken failure active now hc =>
    obtain rfl := same hc
    cases failure with
    | none =>
      have busy : m.Busy g := .inl ⟨x', hs.cog, active⟩
      have found : (m.outlook (.scheduler g) g x'.state).Found False aw.guard :=
        ⟨attends, .inr (.inr (.inl busy))⟩
      exact found.later (later rfl alive) hp now id id
    | some e => trivial
  | refused _ refused now hc =>
    obtain rfl := same hc
    have found : (m.outlook (.scheduler g) g x'.state).Found False aw.guard :=
      ⟨attends, .inr (.inr (.inr refused))⟩
    exact found.later (later rfl alive) hp now id id
  | aimed hd hc =>
    rw [hc] at hx'
    cases hx'
    have covered := Outlook.Found.aim attends hd
    exact covered.later (later rfl alive) False.elim nofun
  | wakes failure deadline notified => cases failure with
    | none => exact fun f hf => (aside_act ho ha).listed alive (attends.listed f hf)
    | some e => trivial
  | _ => trivial

end

theorem attentive_empty (r : Registry) (memory : A) :
    (Machine.empty r memory : Machine S A V).Attentive := by
  intro c t g x ht
  cases ht

theorem Attentive.act (h : m.Attentive) (ho : m.Ordered) (hh : m.Housed) (hp : m.Punctual)
    {act : Action S A V} (ha : m.act act = some m')
    (hclock : m'.now = m.now ∨ ∀ c, m.AtRest (.context c)) : m'.Attentive := by
  refine follows_act ho ha h ?_ ?_
  · intro c g x x' t t' aw phase phase' hact hs before hs' proceeds
    have attends := Attends.of_begins (hp.stands hs) before
    exact attends_own ho hh ha hs (hp.stands hs) attends hs'.cog hact proceeds
  · intro c g x x' t aw phase hne hs before hm hx'
    have attends := Attends.of_begins (hp.stands hs) before
    exact attends_other ho hh ha hs (hp.stands hs) attends hx' hclock hne hm

end Machine

end ObjectGroups
