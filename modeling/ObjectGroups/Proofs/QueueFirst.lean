/-
Queued tasks go before tasks that resume.

As long as the system is not shut down and every start of a context succeeds,
the slot of a cog is free only while its queue is empty: who puts a task into
the queue or gives the slot up with tasks in the queue keeps the lock until a
new context has the slot, and a context with the slot leaves only when it
finds nothing in the queue. A suspended task looks at the slot with the lock,
so it finds the slot free only if the queue is empty.
-/
import ObjectGroups.Proofs.Arrivals

namespace ObjectGroups

variable {S A V : Type} {m m' : Machine S A V} {a : Agent} {g : CogId} {c : ContextId}
  {own : Option CogId} {s s' : Stance} {x x' : Cog S A V} {loud : Bool}
  {moves : List (Move S A V)}

open Machine

/-- A thread gives up the start of a context, by an error or a panic. -/
def Move.misstarts (v : Move S A V) : Bool :=
  match v.turn with
  | some (_, _, s, s') => s.stage?.isSome && s'.stage?.isNone &&
      (s.newcomer?.all fun c => (v.after.look (.context c)).isNone)
  | none => false

namespace Machine

/-- A thread holds the lock of the cog to give the free slot to a new context. -/
def Grants (m : Machine S A V) (g : CogId) : Prop :=
  ∃ a own s, m.look a = some (own, s) ∧ s.lock own = some g ∧ s.grants = true

/-- The slot of the cog is held by a context that knows it, or about to be given to a new
one, whenever there are tasks in the queue. -/
structure Driven (moves : List (Move S A V)) (m : Machine S A V) (g : CogId) (x : Cog S A V) : Prop where
  held {c : ContextId} : x.scheduler.active = some c → m.Entitled g c
  driven : x.scheduler.queued ≠ [] → x.scheduler.active ≠ none ∨ m.Grants g
  stocked : m.Grants g → x.scheduler.queued ≠ []
  /-- A context that has just been started has something to do. -/
  fresh {c : ContextId} : m.look (.context c) = some (some g, .claim) →
    (∀ t, (c, t) ∉ claims g moves) → x.scheduler.queued ≠ []

end Machine

/-! ## Deeds -/

theorem Scheduler.queued_eq_nil {y : Scheduler S A V} : y.queued = [] ↔ y.queue = [] := by
  simp [Scheduler.queued]

section
variable (h : Deed g a own loud s x s' x')
include h

/-- The slot is somebody's by a deed of its own. -/
theorem Deed.gains (hx' : x'.scheduler.active = some c) :
    x.scheduler.active = some c ∨ (a = .context c ∧ own = some g ∧ s'.slot = true) := by
  cases h <;> simp_all [Stance.slot, Stance.seat?, Scheduler.enqueue, Scheduler.withdraw,
    Scheduler.addWaiter, Scheduler.markReady, Scheduler.removeWaiter, Scheduler.retire,
    Scheduler.active_release]

/-- Who keeps the slot knows it. -/
theorem Deed.keeps (ha : a = .context c) (hown : own = some g) (hs : s.slot = true)
    (hx : x'.scheduler.active = some c) : s'.slot = true := by
  cases h with
  | abort now hst => rcases hst with rfl | ⟨rfl, -⟩ <;> simp [Stance.slot, Stance.seat?] at hs
  | _ =>
    simp_all [Stance.slot, Stance.seat?, Scheduler.retire, Scheduler.addWaiter,
      Scheduler.active_release]

/-- Who begins to start a context for the queue has a task in it. -/
theorem Deed.stocks (hs : s'.grants = true) : x'.scheduler.queued ≠ [] := by
  cases h <;> simp_all [Stance.grants, Scheduler.queued, Scheduler.enqueue]

/-- With tasks in the queue, a deed leaves the slot held, or is the begin of a start. -/
theorem Deed.drives (hstart : s.stage?.isSome → s'.stage?.isSome)
    (hretire : s' = .leave → s = .claim → x.scheduler.queued = [])
    (hstrand : ∀ t, s = .strand t → ∀ c, a = .context c → x.scheduler.active ≠ some c)
    (hx : x.scheduler.queued ≠ [] → x.scheduler.active ≠ none) (hq : x'.scheduler.queued ≠ []) :
    x'.scheduler.active ≠ none ∨ (s'.lock own = some g ∧ s'.grants = true) := by
  cases h <;> simp_all [Stance.stage?, Stance.lock, Stance.grants, Scheduler.queued, Scheduler.enqueue,
    Scheduler.addWaiter, Scheduler.markReady, Scheduler.removeWaiter, Scheduler.retire, Scheduler.active_release]

end

theorem Deed.ends (h : Deed g a own loud s x s' x') (hs : s.grants = true) : s'.stage? = none := by
  cases h with
  | abort now hst => rcases hst with rfl | ⟨rfl, -⟩ <;> cases hs
  | _ => first | rfl | cases hs

/-- A context is between tasks once it has ended one. -/
theorem Deed.ended (h : Deed g a own loud s x .claim x') : ∃ t, s.seat? = some ⟨t, true⟩ := by
  cases h
  exact ⟨_, rfl⟩

/-! ## Threads with the slot -/

/-- The active context knows that it has the slot, whoever acts. -/
theorem Deed.held (h : Deed g a own loud s x s' x') (ht : Turns m a own s s' m')
    (held : ∀ {c}, x.scheduler.active = some c → m.Entitled g c) (hc : x'.scheduler.active = some c) :
    m'.Entitled g c := by
  rcases h.gains hc with old | ⟨rfl, rfl, slot⟩
  · obtain ⟨s₀, hl, slot⟩ := held old
    by_cases hca : .context c = a
    · rw [hca, ht.before] at hl
      cases hl
      exact ⟨s', hca ▸ ht.after, h.keeps hca.symm rfl slot hc⟩
    · exact ⟨s₀, by rw [ht.look, if_neg hca, hl], slot⟩
  · exact ⟨s', ht.after, slot⟩

theorem Grant.held {d : ContextId} (h : Grant g d a own s x s' x')
    (hb : Births m a own s s' d (some g) .claim m') (hc : x'.scheduler.active = some c) :
    m'.Entitled g c := by
  have active : x'.scheduler.active = some d := by cases h <;> rfl
  obtain rfl := Option.some.inj (active.symm.trans hc)
  exact ⟨.claim, hb.born, rfl⟩

/-! ## Threads with the lock -/

theorem Machine.Ordered.no_grants (ho : m.Ordered) (hx : m.cogs.get? g = some x)
    (hlock : x.lock = none) : ¬ m.Grants g := by
  rintro ⟨a, own, s, hl, hs, -⟩
  obtain ⟨y, hy, lock, -⟩ := ho.locks hl hs
  cases hx.symm.trans hy
  rw [hlock] at lock
  cases lock

/-- Nobody touches the queue while another thread has the lock. -/
theorem Queues.kept (h : Queues a g s x s' x') (ho : m.Ordered) (hl : m.look a = some (own, s))
    (hx : m.cogs.get? g = some x) {b : Agent} (hb : b ≠ a) (hlock : x.lock = some b) :
    x'.scheduler.queued = x.scheduler.queued := by
  have held (free : x.lock = none) : x'.scheduler.queued = x.scheduler.queued := by
    rw [hlock] at free
    cases free
  cases h with
  | same _ _ _ _ hq => exact hq
  | take _ _ _ _ free => exact held free
  | offer _ free => exact held free
  | accept _ free => exact held free
  | withdraw _ hs =>
    have mine := ho.lock_of_offers hl hs hx
    rw [hlock] at mine
    exact absurd (Option.some.inj mine) hb
  | forsake _ _ _ hs => rw [hs]

theorem Beside.entitled (h : ∀ b, Beside g (m.look b) (m'.look b)) (hc : m.Entitled g c) :
    m'.Entitled g c := by
  obtain ⟨s, hl, hs⟩ := hc
  rcases (h _).after hl with ⟨s', hl, alike⟩ | rfl | ⟨none, -⟩
  · exact ⟨s', hl, (alike.slot rfl).trans hs⟩
  · cases hs
  · cases none

theorem Beside.grants (h : ∀ b, Beside g (m.look b) (m'.look b)) (hg : m'.Grants g) : m.Grants g := by
  obtain ⟨a, own, s', hl, hs⟩ := hg
  rcases (h a).before hl with ⟨s, hl, alike⟩ | ⟨-, rfl | rfl⟩
  · exact ⟨a, own, s, hl, alike.grants.mp hs⟩
  · cases hs.1
  · cases hs.1

theorem Beside.keepsGrants (h : ∀ b, Beside g (m.look b) (m'.look b)) (hg : m.Grants g) : m'.Grants g := by
  obtain ⟨a, own, s, hl, hs⟩ := hg
  rcases (h a).after hl with ⟨s', hl, alike⟩ | rfl | ⟨-, seat, rfl⟩
  · exact ⟨a, own, s', hl, alike.grants.mpr hs⟩
  · cases hs.1
  · cases hs.1

/-! ## Between tasks -/

/-- A context between tasks takes the head of the queue, or leaves. Once the system has been
shut down it leaves; before that, with the slot, it leaves only an empty queue. -/
theorem Machine.Ordered.claim_cases {act : Action S A V} (ho : m.Ordered) (ha : m.act act = some m')
    (hx : m.cogs.get? g = some x) (hl : m.look (.context c) = some (some g, .claim)) :
    m'.look (.context c) = some (some g, .claim) ∨
      (∃ k rest, m.registry.shutdown = false ∧ x.scheduler.queued = k :: rest ∧
        m'.look (.context c) = some (some g, .body (some ⟨k, true⟩))) ∨
      (m'.look (.context c) = some (some g, .leave) ∧
        (x.scheduler.active = some c → m.registry.shutdown = true ∨ x.scheduler.queued = [])) := by
  rcases ho.kept_or_steps ha hl with same | rfl
  · exact .inl same
  have h : m.step (.context c) = some m' := ha
  obtain ⟨t, ht, hg, hst⟩ := look_eq_some m _ hl
  have after {m₁ : Machine S A V} {k : Control S A V} (hm : m.Stirred m₁ (.context c)) :
      (m₁.setControl (.context c) k).look (.context c) = some (some g, k.stance) := by
    rw [look_setControl, if_pos rfl, hm.look, hl]
    rfl
  have took := step_of ht h
  rw [hg] at took
  generalize t.control = control at hst took
  cases took with
  | @takes d i y k body rest hd hi hy _ _ opened queue =>
    cases hi
    cases hx.symm.trans hy
    exact .inr (.inl ⟨k, rest.map (·.1), opened, by simp [Scheduler.queued, queue], after (.same rfl)⟩)
  | retires hd hi hy _ last =>
    cases hd
    cases hi
    cases hx.symm.trans hy
    rw [← Scheduler.queued_eq_nil] at last
    exact .inr (.inr ⟨after (.broadcast (.same rfl)), last⟩)
  | @tells i n next =>
    rw [after (.same (by simp))]
    exact .inl (congrArg (fun s => some (some g, s)) hst)
  | @starts stage e => cases e <;> cases hst
  | @awaits aw phase => cases phase <;> cases hst
  | _ => cases hst

/-- A context with the slot that leaves finds nothing in the queue. -/
theorem Machine.Ordered.empty_of_leave {act : Action S A V} (ho : m.Ordered) (ha : m.act act = some m')
    (hx : m.cogs.get? g = some x) (hl : m.look (.context c) = some (some g, .claim))
    (hl' : m'.look (.context c) = some (some g, .leave)) (opened : m.registry.shutdown = false) :
    x.scheduler.queued = [] := by
  rcases ho.claim_cases ha hx hl with same | ⟨k, rest, -, -, taken⟩ | ⟨-, empty⟩
  · cases same.symm.trans hl'
  · cases taken.symm.trans hl'
  · have last := empty (ho.holder hl hx rfl).1
    simpa [opened] using last

/-- A task that resumes has found the slot free. -/
theorem Machine.Ordered.free_of_resume {t : TaskId} {act : Action S A V} (ho : m.Ordered)
    (ha : m.act act = some m') (hx : m.cogs.get? g = some x)
    (hl : m.look (.context c) = some (some g, .contend t))
    (hl' : m'.look (.context c) = some (some g, .body (some ⟨t, true⟩))) :
    x.scheduler.active = none := by
  have shift := shift_act ho ha
  rcases ho.kept_or_steps ha hl with same | rfl
  · cases same.symm.trans hl'
  · generalize hact : (Action.step (.context c) : Action S A V).actor? = actor at shift
    cases shift.vantage ho g with
    | aside hb =>
      rcases (hb _).before hl' with ⟨s, hl₀, alike⟩ | ⟨other, -⟩
      · cases hl.symm.trans hl₀
        cases alike.slot rfl
      · exact absurd rfl other
    | deed ht hw hd =>
      cases hact
      cases ht.before.symm.trans hl
      cases ht.after.symm.trans hl'
      cases hw.before.symm.trans hx
      cases hd with
      | resume now free => exact free
    | grant hb _ hg =>
      cases hact
      cases hb.before.symm.trans hl
      cases hg

/-! ## One action -/

section
variable {act : Action S A V} (h : m.Driven moves g x) (ho : m.Ordered) (ha : m.act act = some m')
include h ho ha

theorem Machine.Driven.deed (hact : act.actor? = some a) (ht : Turns m a own s s' m')
    (hw : Works m g x x' m') (hd : Deed g a own loud s x s' x') (opened : m.registry.shutdown = false)
    (hm : (⟨m, act, m'⟩ : Move S A V).misstarts = false)
    (hosting : ∀ c s t active, m.look (.context c) = some (some g, s) →
      s.seat? = some ⟨t, active⟩ → (c, t) ∈ claims g moves) :
    m'.Driven (moves ++ [⟨m, act, m'⟩]) g x' := by
  have starts (hs : s.stage?.isSome) : s'.stage?.isSome := by
    by_contra hs'
    have turn := ht.turn hact
    have unborn : (s.newcomer?.all fun c => (m'.look (.context c)).isNone) = true := by
      cases hc : s.newcomer? with
      | none => rfl
      | some c =>
        obtain ⟨-, absent, -⟩ := ho.newcomer ht.before hc
        simp [ht.absent absent]
    simp [Move.misstarts, turn, hs, unborn] at hm
    simp [hm] at hs'
  have retires (hs' : s' = .leave) (hs : s = .claim) : x.scheduler.queued = [] := by
    subst hs hs'
    cases hd with
    | retire => exact ho.empty_of_leave ha hw.before ht.before ht.after opened
  constructor
  case held => exact hd.held ht h.held
  case driven =>
    intro hq
    by_cases granting : m.Grants g
    · obtain ⟨b, own₁, s₁, hl, hs⟩ := granting
      by_cases hba : b = a
      · rw [hba, ht.before] at hl
        cases hl
        have staged : s.stage?.isSome := by
          cases s <;> first | rfl | cases hs.2
        have ended := starts staged
        simp [hd.ends hs.2] at ended
      · exact .inr ⟨b, own₁, s₁, by rw [ht.look, if_neg hba, hl], hs⟩
    · have stranded (t : TaskId) (hs : s = .strand t) (c : ContextId) (hc : a = .context c) :
          x.scheduler.active ≠ some c := by
        intro active
        obtain ⟨s₀, hl, slot⟩ := h.held active
        rw [← hc, ht.before, hs] at hl
        cases hl
        cases slot
      rcases hd.drives starts retires stranded (fun hx => (h.driven hx).resolve_right granting) hq with
        active | grants
      · exact .inl active
      · exact .inr ⟨a, own, s', ht.after, grants⟩
  case stocked =>
    rintro ⟨b, own₁, s₁, hl, hs⟩
    rcases ht.cases hl with ⟨-, -, rfl⟩ | ⟨hba, hl⟩
    · exact hd.stocks hs.2
    · obtain ⟨y, hy, hlock, -⟩ := ho.locks hl hs.1
      cases hw.before.symm.trans hy
      rw [hd.queues.kept ho ht.before hw.before hba hlock]
      exact h.stocked ⟨b, own₁, s₁, hl, hs⟩
  case fresh =>
    intro c hl first
    have first (t : TaskId) : (c, t) ∉ claims g moves := by
      intro claimed
      refine first t ?_
      rw [claims_snoc]
      exact List.mem_append_left _ claimed
    rcases ht.cases hl with ⟨rfl, rfl, rfl⟩ | ⟨hca, hl⟩
    · obtain ⟨t, seat⟩ := hd.ended
      exact absurd (hosting c s t true ht.before seat) (first t)
    · have before := h.fresh hl first
      have active := (ho.holder hl hw.before rfl).1
      cases hd.queues with
      | same _ _ _ _ hq => exact hq ▸ before
      | take d k hda hd =>
        rw [active] at hd
        cases hd
        exact absurd hda.symm hca
      | offer k _ _ _ _ _ _ _ hq => simp [hq]
      | accept k _ _ _ _ _ _ hq => simp [hq]
      | withdraw k hs =>
        obtain ⟨holds, grants⟩ := Stance.offers_lock hs own
        obtain ⟨y, hy, -, free⟩ := ho.locks ht.before holds
        cases hw.before.symm.trans hy
        rw [free grants] at active
        cases active
      | forsake _ _ _ hs =>
        rw [hs]
        exact before

omit ho ha in
theorem Machine.Driven.grant {d : ContextId} (hb : Births m a own s s' d (some g) .claim m')
    (hw : Works m g x x' m') (hg : Grant g d a own s x s' x') :
    m'.Driven (moves ++ [⟨m, act, m'⟩]) g x' := by
  have active : x'.scheduler.active = some d := by cases hg <;> rfl
  have stocked : x'.scheduler.queued ≠ [] := by
    have queue : x'.scheduler.queued = x.scheduler.queued := by cases hg <;> rfl
    have granting : s.lock own = some g ∧ s.grants = true := by cases hg <;> exact ⟨rfl, rfl⟩
    rw [queue]
    exact h.stocked ⟨a, own, s, hb.before, granting⟩
  constructor
  case held => exact hg.held hb
  case driven => exact fun _ => .inl (by simp [active])
  case stocked => exact fun _ => stocked
  case fresh => exact fun _ _ => stocked

omit ho ha in
theorem Machine.Driven.aside (hb : ∀ b, Beside g (m.look b) (m'.look b))
    (hx : x'.scheduler = x.scheduler) : m'.Driven (moves ++ [⟨m, act, m'⟩]) g x' := by
  constructor
  case held =>
    intro c hc
    rw [hx] at hc
    exact Beside.entitled hb (h.held hc)
  case driven =>
    intro hq
    rw [hx] at hq ⊢
    exact (h.driven hq).imp_right (Beside.keepsGrants hb)
  case stocked =>
    intro granting
    rw [hx]
    exact h.stocked (Beside.grants hb granting)
  case fresh =>
    intro c hl first
    rw [hx]
    rcases (hb _).before hl with ⟨s, hl, alike⟩ | ⟨other, -⟩
    · rw [(alike.claim rfl).mp rfl] at hl
      refine h.fresh hl fun t claimed => first t ?_
      rw [claims_snoc]
      exact List.mem_append_left _ claimed
    · exact absurd rfl other

end

/-! ## Whole runs -/

theorem Machine.Ordered.driven_founded (ho : m.Ordered) (hx : m.cogs.get? g = some x)
    (hs : x.scheduler = {}) (hlock : x.lock = none) : m.Driven moves g x where
  held h := by simp [hs] at h
  driven h := by simp [hs, Scheduler.queued] at h
  stocked granting := absurd granting (ho.no_grants hx hlock)
  fresh hl _ := by
    have active := (ho.holder hl hx rfl).1
    simp [hs] at active

theorem History.driven {r : Registry} {memory : A} (h : History (.empty r memory) moves m)
    (opened : ∀ v ∈ moves, v.before.registry.shutdown = false)
    (hm : ∀ v ∈ moves, v.misstarts = false) (hx : m.cogs.get? g = some x) : m.Driven moves g x := by
  induction h generalizing x with
  | refl => cases hx
  | @act moves m m' act h ha ih =>
    have ho : m.Ordered := h.reachable.ordered
    have driven {x : Cog S A V} (hx : m.cogs.get? g = some x) : m.Driven moves g x :=
      ih (fun v hv => opened v (List.mem_append_left _ hv)) (fun v hv => hm v (List.mem_append_left _ hv)) hx
    have last : (⟨m, act, m'⟩ : Move S A V) ∈ moves ++ [⟨m, act, m'⟩] := by simp
    have shift := shift_act ho ha
    generalize hact : act.actor? = actor at shift
    cases shift.aftermath ho hx with
    | founded _ _ empty free => exact (ho.act ha).driven_founded hx empty free
    | aside hb hy same => exact (driven hy).aside hb same
    | deed ht hw hd =>
      exact (driven hw.before).deed ho ha hact ht hw hd (opened _ last) (hm _ last)
        fun c s t active hl hs => h.hosting hl hs
    | grant hb hw hg => exact (driven hw.before).grant hb hw hg

/-- Queued tasks of the cog go before those that resume. -/
structure QueueFirst (moves : List (Move S A V)) (m : Machine S A V) (g : CogId) (x : Cog S A V) :
    Prop where
  /-- With the lock free, there are tasks in the queue only while a context has the slot. -/
  served : x.lock = none → x.scheduler.queued ≠ [] →
    ∃ c, x.scheduler.active = some c ∧ m.Entitled g c
  /-- A suspended task takes the slot back only if the queue is empty. -/
  resumes {c : ContextId} {t : TaskId} {act : Action S A V} {m' : Machine S A V} :
    m.look (.context c) = some (some g, .contend t) → m.act act = some m' →
      m'.look (.context c) = some (some g, .body (some ⟨t, true⟩)) → x.scheduler.queued = []
  /-- A context that has just been started finds a task, and what it does first is to take it. -/
  begins {c : ContextId} : m.look (.context c) = some (some g, .claim) →
    (∀ t, (c, t) ∉ claims g moves) → ∃ k rest, x.scheduler.queued = k :: rest ∧
      ∀ act m', m.act act = some m' → m'.look (.context c) = m.look (.context c) ∨
        m'.look (.context c) = some (some g, .body (some ⟨k, true⟩))
  /-- A context between tasks has the slot, and leaves only if the queue is empty. -/
  retires {c : ContextId} {act : Action S A V} {m' : Machine S A V} :
    m.look (.context c) = some (some g, .claim) → m.act act = some m' →
      m'.look (.context c) = some (some g, .leave) →
        x.scheduler.active = some c ∧ x.scheduler.queued = []

/-- In every state of a run in which the system is not shut down and no start of a
context fails, queued tasks go first. -/
theorem queue_first (r : Registry) (memory : A) (h : History (.empty r memory) moves m)
    (opened : ∀ v ∈ moves, v.before.registry.shutdown = false) (still : m.registry.shutdown = false)
    (hm : ∀ v ∈ moves, v.misstarts = false) (hx : m.cogs.get? g = some x) : QueueFirst moves m g x := by
  have ho : m.Ordered := h.reachable.ordered
  have driven : m.Driven moves g x := h.driven opened hm hx
  constructor
  case served =>
    intro hlock hq
    have active := (driven.driven hq).resolve_right (ho.no_grants hx hlock)
    obtain ⟨c, hc⟩ := Option.ne_none_iff_exists'.mp active
    exact ⟨c, hc, driven.held hc⟩
  case resumes =>
    intro c t act m' hl ha hl'
    have free := ho.free_of_resume ha hx hl hl'
    -- The lock is its own, so nobody is about to give the slot away.
    by_contra hq
    obtain ⟨b, own, s, hlb, holds, grants⟩ := (driven.driven hq).resolve_left (by simp [free])
    obtain ⟨y, hy, mine, -⟩ := ho.locks hl rfl
    obtain ⟨y', hy', lock, -⟩ := ho.locks hlb holds
    cases hy.symm.trans hy'
    cases mine.symm.trans lock
    cases hl.symm.trans hlb
    cases grants
  case begins =>
    intro c hl first
    obtain ⟨k, rest, hq⟩ := List.exists_cons_of_ne_nil (driven.fresh hl first)
    refine ⟨k, rest, hq, fun act m' ha => ?_⟩
    rcases ho.claim_cases ha hx hl with same | ⟨k', rest', -, hq', taken⟩ | ⟨-, empty⟩
    · exact .inl (same.trans hl.symm)
    · rw [hq] at hq'
      cases hq'
      exact .inr taken
    · have last := empty (ho.holder hl hx rfl).1
      simp [still, hq] at last
  case retires =>
    intro c act m' hl ha hl'
    exact ⟨(ho.holder hl hx rfl).1, ho.empty_of_leave ha hx hl hl' still⟩

/-- The first task awaits, and a second context has been started for the second one. -/
def relievedActions : List (Action Nat Unit Unit) :=
  [.found "cog" 0,
    .arrive (.submit ⟨1⟩ "first" (.await (.field "n > 0" fun n => .ok (0 < n)) fun _ => .exit (.ok ()))
      fun _ => .submit ⟨1⟩ "second" (.access (· + 1) (fun _ => .exit (.ok ())) (.exit (.ok ())))
        fun _ => .exit (.ok ()))] ++
    List.replicate 9 (.step (.caller 1)) ++ List.replicate 6 (.step (.context ⟨1⟩))

def granting : Registry := { namePrefix := "cog", admits := fun _ => true }

def relieved : Machine Nat Unit Unit := relievedActions.foldl perform (.empty granting ())

theorem queue_first_relieved :
    ∃ x, relieved.cogs.get? ⟨1⟩ = some x ∧
      QueueFirst ((Machine.empty granting ()).moves relievedActions) relieved ⟨1⟩ x ∧
      x.scheduler.queued = [⟨2⟩] ∧ x.scheduler.active = some ⟨2⟩ ∧ relieved.Entitled ⟨1⟩ ⟨2⟩ := by
  have opened : ∀ v ∈ (Machine.empty granting ()).moves relievedActions,
      v.before.registry.shutdown = false := by decide +kernel
  have started : ∀ v ∈ (Machine.empty granting ()).moves relievedActions, v.misstarts = false := by
    decide +kernel
  have books : (relieved.cogs.get? ⟨1⟩).map (fun x => (x.lock, x.scheduler.queued, x.scheduler.active)) =
      some (none, [⟨2⟩], some ⟨2⟩) := by decide +kernel
  obtain ⟨x, hx, books⟩ := Option.map_eq_some_iff.mp books
  simp only [Prod.mk.injEq] at books
  obtain ⟨hlock, queued, active⟩ := books
  have queueFirst := queue_first granting () (history_moves _ relievedActions) opened
    (by decide +kernel) started hx
  obtain ⟨c, hc, entitled⟩ := queueFirst.served hlock (by simp [queued])
  cases active.symm.trans hc
  exact ⟨x, hx, queueFirst, queued, active, entitled⟩

end ObjectGroups
