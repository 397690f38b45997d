/-
Awaits of guards that cannot fail.

A guard is sure if it is a condition on the state that comes to an answer
whatever the state is. An await of such a guard in a context that nobody
interrupts ends in one way only: the task takes the slot on a state on which
the guard holds. It looks at no clock, so it is not passed over even if time
goes by while contexts are on their way: who sleeps in it sleeps while the
slot is taken or its guard is false.
-/
import ObjectGroups.Proofs.WakeUps

namespace ObjectGroups

variable {S A V : Type} {m m' : Machine S A V} {g : CogId} {c : ContextId} {x x' : Cog S A V}
  {aw : Awaiting S A V} {phase : Phase S} {t : Thread S A V} {act : Action S A V} {q : Guard S}

open Machine

/-- A condition on the state that always comes to an answer. -/
def Guard.Sure (q : Guard S) : Prop :=
  ∃ name pred, q = .field name pred ∧ ∀ s, ∃ b, pred s = .ok b

namespace Guard.Sure

theorem poll (h : q.Sure) (s : S) : ∃ b, ∀ v, q.poll v s = .ok b := by
  obtain ⟨name, pred, rfl, total⟩ := h
  obtain ⟨b, hb⟩ := total s
  exact ⟨b, fun _ => hb⟩

theorem sight (h : q.Sure) (v v' : Sight) (s : S) : q.poll v s = q.poll v' s := by
  obtain ⟨b, hb⟩ := h.poll s
  rw [hb, hb]

theorem evaluate (h : q.Sure) (v : Sight) (s : S) : ∃ b, q.evaluate v s = .ok b := by
  obtain ⟨b, hb⟩ := h.poll s
  exact ⟨b, by rw [Guard.evaluate, hb]⟩

theorem sources (h : q.Sure) (v : Sight) : q.sources v = ([], .ok false) := by
  obtain ⟨name, pred, rfl, -⟩ := h
  rfl

theorem deadline (h : q.Sure) (v : Sight) : q.deadline v = .ok none := by
  obtain ⟨name, pred, rfl, -⟩ := h
  rfl

/-- A wait asks the guard, and is over. -/
theorem step (h : q.Sure) (v : Sight) (s : S) (p : Parker) : ∃ b,
    (Wait.start q).step v s p = some { parker := p, wait := ⟨.done (.ok b), []⟩ } := by
  obtain ⟨b, hb⟩ := h.evaluate v s
  obtain ⟨name, pred, rfl, -⟩ := h
  exact ⟨b, by rw [← hb]; rfl⟩

end Guard.Sure

namespace Machine

/-- What a thread in an await of a sure guard has found. -/
def Bides (m : Machine S A V) (_ : ContextId) (g : CogId) (x : Cog S A V) (aw : Awaiting S A V) :
    Phase S → Prop
  | .wait w => w = .start aw.guard ∨ ∃ b, w = ⟨.done (.ok b), []⟩
  | .reenter failure => failure = none
  | .contend failure => failure = none
  | .doze failure => failure = none ∧ (m.Busy g ∨ aw.guard.poll m.sight x.state = .ok false)
  | .asleep failure deadline notified => failure = none ∧ deadline = none ∧
      (notified = true ∨ m.Busy g ∨ aw.guard.poll m.sight x.state = .ok false)
  | .abort => False
  | _ => True

/-- All guards that are awaited are sure. -/
def AllSure (m : Machine S A V) : Prop :=
  ∀ a t aw, m.threads.get? a = some t → t.control.await? = some aw → aw.guard.Sure

theorem AllSure.stands (h : m.AllSure) (hs : m.Stands c g x t aw phase) : aw.guard.Sure :=
  h _ t aw hs.thread hs.awaits

theorem Bides.of_begins (h : phase.Begins x c aw ∨ m.Bides c g x aw phase) : m.Bides c g x aw phase := by
  rcases h with begins | bides
  · cases begins with
    | release => trivial
    | wait => exact .inl rfl
    | reenter => rfl
  · exact bides

/-- What keeps the thread asleep goes on to do so, or the thread is told. -/
theorem sleeps_later {w : Waker} {told : Prop}
    (later : (m.outlook w g x.state).Later (m'.outlook w g x'.state) told) (sure : q.Sure)
    (h : m.Busy g ∨ q.poll m.sight x.state = .ok false) :
    told ∨ m'.Busy g ∨ q.poll m'.sight x'.state = .ok false := by
  have of_busy (busy : m.Busy g) : told ∨ m'.Busy g ∨ q.poll m'.sight x'.state = .ok false := by
    rcases later.busy busy with busy | told
    · exact .inr (.inl busy)
    · exact .inl told
  rcases h with busy | holds
  · exact of_busy busy
  · rcases later.state with busy | same
    · exact of_busy busy
    · have same : x'.state = x.state := same
      exact .inr (.inr (by rw [same, sure.sight _ m.sight, holds]))

section
variable (ho : m.Ordered) (hh : m.Housed) (ha : m.act act = some m')
  (hs : m.Stands c g x t aw phase) (sure : aw.guard.Sure) (hx' : m'.cogs.get? g = some x')
include ho ha hs sure hx'

theorem bides_own (hact : act = .step (.context c)) (calm : m.interrupted c = false)
    (bides : m.Bides c g x aw phase) {phase' : Phase S} (h : Proceeds m c g x aw m' phase phase') :
    m'.Bides c g x' aw phase' := by
  have hl := look_eq m _ hs.thread
  rw [hs.home] at hl
  have later (hactive : x'.scheduler.active = x.scheduler.active) :=
    later_of_own ho ha hs hx' hact hactive (ho.alive_scheduler hl)
  have same (hc : m'.cogs = m.cogs) : x' = x := by
    rw [hc, hs.cog] at hx'
    exact (Option.some.inj hx').symm
  cases h with
  | waits hr hm =>
    rcases bides with rfl | ⟨b, rfl⟩
    · obtain ⟨b, hb⟩ := sure.step m.sight x.state (m.parker (.own c))
      cases hb.symm.trans hm
      exact .inr ⟨b, rfl⟩
    · cases hr
  | answered _ hp => rcases hp with rfl | rfl <;> trivial
  | waitFailed hr he =>
    rcases bides with rfl | ⟨b, rfl⟩
    · cases hr
    · cases hr
      cases he
  | interrupted hr hi =>
    rcases bides with rfl | ⟨b, rfl⟩
    · cases hr
    · cases hr
      rcases hi with e | flag
      · cases e
      · cases calm.symm.trans flag
  | reenters => trivial
  | reentersFailed e => cases bides
  | subscribes => rfl
  | subscribeFailed failed => cases (sure.sources _).symm.trans failed
  | taken failure active _ hc =>
    obtain rfl := same hc
    exact ⟨bides, .inl (.inl ⟨x', hx', active⟩)⟩
  | refused _ refused _ hc =>
    obtain rfl := same hc
    exact ⟨rfl, .inr (by rw [sure.sight _ m.sight, refused])⟩
  | aimed hd hc =>
    cases hd.symm.trans (sure.deadline _)
    rw [hc] at hx'
    cases hx'
    exact ⟨rfl, rfl, .inr ((sleeps_later (later rfl) sure bides.2).resolve_left id)⟩
  | aimFailed hd => cases hd.symm.trans (sure.deadline _)
  | sleeps e => cases bides.1
  | wakes => exact bides.1

include hh

theorem bides_other (hne : act.actor? ≠ some (.context c)) (bides : m.Bides c g x aw phase)
    (hm : m.Stirred m' (.context c)) :
    ∃ t' phase', m'.Stands c g x' t' aw phase' ∧ m'.Bides c g x' aw phase' := by
  have still (hp : phase.rouse = phase) (bides' : m'.Bides c g x' aw phase) :
      ∃ t' phase', m'.Stands c g x' t' aw phase' ∧ m'.Bides c g x' aw phase' := by
    obtain ⟨t', hs'⟩ := hs.still hm hx' hp
    exact ⟨t', phase, hs', bides'⟩
  cases phase with
  | wait w =>
    obtain ⟨p, t', hs', -⟩ := hs.stirred hm hx'
    refine ⟨t', _, hs', ?_⟩
    cases p with
    | false => exact bides
    | true =>
      rcases bides with rfl | ⟨b, rfl⟩
      · exact .inl rfl
      · exact .inr ⟨b, rfl⟩
  | doze failure =>
    have later := later_of_locked ho ha hs hx' hh hne rfl
    exact still rfl ⟨bides.1, (sleeps_later later sure bides.2).resolve_left id⟩
  | asleep failure deadline notified =>
    obtain ⟨p, t', hs', later⟩ := later_of_asleep ho ha hs hx' hh hne rfl
    obtain ⟨hf, hd, watch⟩ := bides
    refine ⟨t', _, hs', hf, hd, ?_⟩
    rcases watch with rfl | sleeps
    · exact .inl (by simp)
    · exact (sleeps_later later sure sleeps).imp_left fun told => by simp [told]
  | _ => exact still rfl bides

end

/-- Awaits of sure guards go on as they should, whatever happens. -/
theorem bides_act (h : m.Follows m.Bides) (ho : m.Ordered) (hh : m.Housed) (sure : m.AllSure)
    (calm : ∀ c, m.interrupted c = false) (ha : m.act act = some m') : m'.Follows m'.Bides := by
  refine follows_act ho ha h ?_ ?_
  · intro c g x x' t t' aw phase phase' hact hs before hs' proceeds
    exact bides_own ho ha hs (sure.stands hs) hs'.cog hact (calm c) (.of_begins before) proceeds
  · intro c g x x' t aw phase hne hs before hm hx'
    exact bides_other ho hh ha hs (sure.stands hs) hx' hne (.of_begins before) hm

/-- At rest a sure guard that is awaited is false if the slot is free. -/
theorem Bides.not_true (h : m.Follows m.Bides) (ho : m.Ordered) (still : m.Still) (hx : m.cogs.get? g = some x)
    (free : x.scheduler.active = none) (awaits : m.Awaits c g aw) (sure : aw.guard.Sure) :
    aw.guard.poll m.sight x.state = .ok false := by
  obtain ⟨t, ht, hg, hk⟩ := awaits
  have before := h c t g x ht hg hx
  have idle := still.not_busy ho hx free
  rcases still.asleep ho ht hg hx hk with ⟨w, hc, hr, hs⟩ | ⟨failure, deadline, hc, -⟩
  · rw [hc] at before
    rcases Bides.of_begins before.awaiting with rfl | ⟨b, rfl⟩
    · obtain ⟨b, hb⟩ := sure.step m.sight x.state (m.parker (.own c))
      cases hs.symm.trans hb
    · cases hr
  · rw [hc] at before
    obtain ⟨-, -, watch⟩ := Bides.of_begins before.awaiting
    rcases watch with told | busy | holds
    · cases told
    · exact absurd busy idle
    · exact holds

/-- A step of an await of a sure guard leads on, or the task takes the slot on a state on which the guard holds. -/
theorem Bides.treads (h : m.Follows m.Bides) (ho : m.Ordered) (hh : m.Housed) (sure : aw.guard.Sure)
    (calm : m.interrupted c = false) (ht : m.threads.get? (.context c) = some t) (hg : t.cog = some g)
    (hx : m.cogs.get? g = some x) (hk : t.control.await? = some aw) (ha : m.act (.step (.context c)) = some m') :
    ∃ k, m'.threads.get? (.context c) = some { t with control := k } ∧ (k.await? = some aw ∨
      (x.scheduler.active = none ∧ aw.guard.poll m.sight x.state = .ok true ∧
        k.behind = .run (some ⟨aw.task, true⟩) (aw.next (.ok ())))) := by
  obtain ⟨k, ht', treads⟩ := step_treads ho ht hg hx hk ha
  refine ⟨k, ht', ?_⟩
  have before := h c t g x ht hg hx
  have hl := look_eq m _ ht
  generalize hc : t.control = control at treads before
  cases treads with
  | tells _ _ hk' => exact .inl hk'
  | hands hands => cases hands with
    | goesOn => exact .inl rfl
    | enlists hk => exact .inl (Control.await?_of_behind hk)
    | unwinds unnameable =>
      have nameable := hh.nameable ho (by rw [hl, hg, hc]; rfl)
      rw [nameable] at unnameable
      cases unnameable
  | strides strides =>
    have bides := Bides.of_begins before.awaiting
    obtain ⟨b, hb⟩ := sure.evaluate m.sight x.state
    cases strides with
    | hands => exact .inl rfl
    | enlists hk => exact .inl (Control.await?_of_behind hk)
    | marked hk => exact .inl (Control.await?_of_behind hk)
    | proceeds => exact .inl rfl
    | aborts hp =>
      rcases hp with rfl | ⟨flag, -⟩
      · cases bides
      · cases calm.symm.trans flag
    | fails _ he =>
      rcases he with rfl | ⟨-, he⟩
      · cases bides
      · cases hb.symm.trans he
    | unwinds he => cases hb.symm.trans he
    | resumes free holds hk => exact .inr ⟨free, holds, hk⟩

end Machine

end ObjectGroups
