/-
What the action of one thread means to another that waits.

The futures keep a waiter on their lists until they are resolved, and whoever
resolves one is about to wake all on its list. A wake-up under way stays so or
reaches the sleeper. Whoever leaves the slot free tells all who wait in the
scheduler. So a waiter that depends on futures, on the slot or on a wake-up is
never passed over (`Outlook.Later`).
-/
import ObjectGroups.Proofs.Phases
import ObjectGroups.Proofs.Waits

namespace ObjectGroups

variable {S A V : Type} {m m' : Machine S A V} {a b : Agent} {g : CogId} {c : ContextId}
  {own : Option CogId} {s s' : Stance} {x x' : Cog S A V} {actor : Option Agent}

open Machine

/-! ## Futures -/

namespace Future

variable (f : Future V) (alive : Waker → Bool) {w w' : Waker}

/-- The waker need not be woken any more, or is on the list. -/
def Lists (w : Waker) : Prop := f.resolved = true ∨ w ∈ f.waiters

@[simp] theorem resolved_subscribe (w : Waker) : (f.subscribe alive w).resolved = f.resolved := by
  unfold subscribe
  split <;> rfl

theorem lists_subscribe (hw : alive w' = true) (h : f.Lists w') : (f.subscribe alive w).Lists w' := by
  unfold Lists subscribe at *
  split
  · exact h
  · next hr =>
    have listed := h.resolve_left hr
    refine .inr ?_
    dsimp only
    split
    · simpa [hw] using listed
    · simp [hw, listed]

theorem lists_subscriber (w : Waker) : (f.subscribe alive w).Lists w := by
  unfold Lists subscribe
  split
  · next hr => exact .inl hr
  · refine .inr ?_
    dsimp only
    split
    · next hc => simpa using hc
    · simp

end Future

namespace Machine

/-- The future is resolved, or will wake `w` when it is. -/
def Listed (m : Machine S A V) (w : Waker) (f : FutureId) : Prop := (m.future f).Lists w

theorem future_put {f f' : FutureId} {y : Future (ObjectGroups.Settled V)}
    (h : m'.futures = m.futures.put f y) : m'.future f' = if f' = f then y else m.future f' := by
  unfold future
  rw [h, Table.get?_put]
  split <;> rfl

/-- Registering with one future after the other. -/
theorem future_subscribe (alive : Waker → Bool) (w : Waker) (fs : List FutureId)
    (table : Table FutureId (Future V)) (P : FutureId → Future V → Prop)
    (hold : ∀ f y, P f y → P f (y.subscribe alive w)) (f : FutureId) (h : P f ((table.get? f).getD {})) :
    P f (((fs.foldl (fun t f => t.put f (((t.get? f).getD {}).subscribe alive w)) table).get? f).getD {}) := by
  induction fs generalizing table with
  | nil => exact h
  | cons f' fs ih =>
    refine ih _ ?_
    rw [Table.get?_put]
    split
    · next e =>
      rw [← e]
      exact hold f _ h
    · exact h

theorem resolved_subscribe (m : Machine S A V) (w : Waker) (fs : List FutureId) (f : FutureId) :
    ((m.subscribe w fs).future f).resolved = (m.future f).resolved :=
  future_subscribe m.alive w fs m.futures (fun _ y => y.resolved = (m.future f).resolved)
    (fun _ y hy => (y.resolved_subscribe m.alive w).trans hy) f rfl

theorem listed_subscribe {w w' : Waker} {fs : List FutureId} {f : FutureId}
    (hw : m.alive w' = true) (h : m.Listed w' f) : (m.subscribe w fs).Listed w' f :=
  future_subscribe m.alive w fs m.futures (fun _ y => y.Lists w')
    (fun _ y hy => y.lists_subscribe m.alive hw hy) f h

/-- Who has registered is on the lists. -/
theorem listed_subscriber {w : Waker} {fs : List FutureId} (hw : m.alive w = true) {f : FutureId}
    (hf : f ∈ fs) : (m.subscribe w fs).Listed w f := by
  have joined (fs : List FutureId) (table : Table FutureId (Future (ObjectGroups.Settled V))) (hf : f ∈ fs) :
      Future.Lists (((fs.foldl (fun t f =>
        t.put f (((t.get? f).getD {}).subscribe m.alive w)) table).get? f).getD {}) w := by
    induction fs generalizing table with
    | nil => cases hf
    | cons f' fs ih =>
      rcases List.mem_cons.mp hf with rfl | hf
      · refine future_subscribe m.alive w fs _ (fun _ y => y.Lists w)
          (fun _ y hy => y.lists_subscribe m.alive hw hy) f ?_
        rw [Table.get?_put_self]
        exact Future.lists_subscriber ..
      · exact ih _ hf
  exact joined fs m.futures hf

end Machine

theorem Aside.resolved (h : Aside m m' actor) {f : FutureId}
    (hf : (m.future f).resolved = true) : (m'.future f).resolved = true := by
  have futures := h.futures
  cases futures with
  | same e =>
    unfold future at hf ⊢
    rwa [e]
  | resolve f' v _ e =>
    rw [future_put e]
    split
    · rfl
    · exact hf
  | join w fs e =>
    have same : m'.future f = (m.subscribe w fs).future f := by
      unfold future
      rw [e]
    rwa [same, resolved_subscribe]

theorem Aside.listed (h : Aside m m' actor) {w : Waker} (hw : m.alive w = true) {f : FutureId}
    (hf : m.Listed w f) : m'.Listed w f := by
  have futures := h.futures
  cases futures with
  | same e =>
    unfold Listed future at hf ⊢
    rwa [e]
  | resolve f' v _ e =>
    unfold Listed
    rw [future_put e]
    split
    · exact .inl rfl
    · exact hf
  | join w' fs e =>
    have same : m'.future f = (m.subscribe w' fs).future f := by
      unfold future
      rw [e]
    unfold Listed
    rw [same]
    exact listed_subscribe hw hf

/-- Who resolves a future is about to wake all on its list. -/
theorem Aside.news (h : Aside m m' actor) {w : Waker} {f : FutureId} (hl : m.Listed w f)
    (hf : (m.future f).resolved = false) (hf' : (m'.future f).resolved = true) : m'.Ringing w := by
  have changed (e : (m'.future f).resolved = (m.future f).resolved) : m'.Ringing w := by
    rw [e, hf] at hf'
    cases hf'
  have futures := h.futures
  cases futures with
  | same e =>
    refine changed ?_
    unfold future
    rw [e]
  | @resolve a f' v _ e signals =>
    by_cases hff : f = f'
    · subst hff
      have waits : w ∈ (m.future f).waiters := by
        rcases hl with hr | hw
        · rw [hf] at hr
          cases hr
        · exact hw
      refine ⟨a, ?_⟩
      rw [signals]
      exact List.mem_map_of_mem waits
    · refine changed ?_
      rw [future_put e, if_neg hff]
  | join w' fs e =>
    refine changed ?_
    rw [← resolved_subscribe m w' fs f]
    unfold future
    rw [e]

/-! ## Wake-ups under way -/

/-- A wake-up under way stays so, or is sent by the actor. -/
theorem ringing_kept (ho : m.Ordered) (shift : Shift m m' actor) (aside : Aside m m' actor)
    {w : Waker} (h : m.Ringing w) :
    m'.Ringing w ∨ ∃ a, actor = some a ∧ m.Sent m' a (.wake w) := by
  obtain ⟨a, ha⟩ := h
  have there : (m.look a).isSome := by
    cases ht : m.threads.get? a with
    | none => simp [Machine.signals, ht] at ha
    | some t => simp [look, ht]
  by_cases hact : actor = some a
  · rcases aside.signals a hact with none | ⟨sent, rest, before, after, done⟩
    · rw [none] at ha
      cases ha
    · rw [before] at ha
      rcases List.mem_cons.mp ha with rfl | hr
      · exact .inr ⟨a, hact, done⟩
      · exact .inl ⟨a, after ▸ hr⟩
  · exact .inl ⟨a, (shift.other ho there hact).signals ▸ ha⟩

/-! ## The slot -/

/-- Somebody has the slot of the cog, or is about to hand it to a new context. -/
def Machine.Busy (m : Machine S A V) (g : CogId) : Prop :=
  (∃ x, m.cogs.get? g = some x ∧ x.scheduler.active ≠ none) ∨
    ∃ a stage t, m.look a = some (some g, .hand stage t)

/-- Who hands the slot on either does so or goes on to wait. -/
theorem hand_kept (ho : m.Ordered) (hh : m.Housed) {stage : Stage} {k : TaskId}
    (hl : m.look (.context c) = some (some g, .hand stage k))
    (h : m.act (.step (.context c)) = some m') {seat : Option Seat}
    (hl' : m'.look (.context c) = some (own, .body seat)) : False := by
  obtain ⟨t, ht, hg, hst⟩ := look_eq_some m _ hl
  obtain ⟨aw, hk, rfl⟩ := Control.await_of_suspends (k := k) (by rw [hst]; rfl)
  have none {control : Control S A V} (ht' : m'.threads.get? (.context c) = some { t with control })
      (hk' : control.await? = some aw) : False := by
    rw [look_eq m' _ ht'] at hl'
    rw [Control.await?_body (congrArg Prod.snd (Option.some.inj hl'))] at hk'
    cases hk'
  obtain ⟨-, x, hx⟩ := ho.home hl
  obtain ⟨control, ht', treads⟩ := step_treads ho ht hg hx hk h
  generalize hc : t.control = before at treads
  cases treads with
  | tells _ _ hk' => exact none ht' hk'
  | hands hands =>
    rw [hc] at hst
    cases hst
    cases hands with
    | goesOn => exact none ht' rfl
    | enlists hb => exact none ht' (Control.await?_of_behind hb)
    | unwinds unnameable =>
      rw [hh.nameable ho hl] at unnameable
      cases unnameable
  | @strides phase =>
    rw [hc] at hst
    cases phase <;> cases hst

theorem Deed.busy {loud : Bool} (h : Deed g a own loud s x s' x')
    (hx : x.scheduler.active ≠ none) : x'.scheduler.active ≠ none ∨ loud = true ∨
      (own = some g ∧ ∃ stage t, s' = .hand stage t) := by
  cases h with
  | retire => exact .inr (.inl rfl)
  | suspend => exact .inr (.inl rfl)
  | strand => exact .inr (.inl rfl)
  | handOver => exact .inr (.inr ⟨rfl, _, _, rfl⟩)
  | resume now => exact .inl (by simp)
  | _ =>
    refine .inl ?_
    simpa [Scheduler.enqueue, Scheduler.withdraw, Scheduler.addWaiter, Scheduler.markReady,
      Scheduler.removeWaiter] using hx

/-- Who ends with a broadcast has found the lock free or holds it. -/
theorem Deed.loud_lock {loud : Bool} (h : Deed g a own loud s x s' x') (hl : loud = true) :
    x.lock = none ∨ s.lock own = some g := by
  cases h with
  | handFailed => exact .inr rfl
  | _ => first | exact .inl ‹_› | cases hl

/-- How a thread goes on that is about to hand the slot on. -/
theorem Shift.hand (h : Shift m m' (some a)) {stage : Stage} {k : TaskId}
    (hl : m.look a = some (some g, .hand stage k)) :
    (∃ stage', m'.look a = some (some g, .hand stage' k)) ∨ m'.Busy g ∨
      (∃ x, m.cogs.get? g = some x ∧ Tells m g x a m') ∨
      ∃ seat, m'.look a = some (some g, .body seat) := by
  cases h with
  | quiet ht hq =>
    cases ht.before.symm.trans hl
    cases hq <;> exact .inl ⟨_, ht.after⟩
  | deed ht hw hd htells =>
    cases ht.before.symm.trans hl
    cases hd with
    | handFailed => exact .inr (.inr (.inl ⟨_, hw.before, htells rfl⟩))
    | unwindHand => exact .inr (.inr (.inr ⟨_, ht.after⟩))
    | abort now hs => rcases hs with hs | ⟨hs, -⟩ <;> cases hs
  | allocate ht =>
    cases ht.before.symm.trans hl
    exact .inl ⟨_, ht.after⟩
  | birth hb hw hg =>
    cases hb.before.symm.trans hl
    cases hg
    refine .inr (.inl (.inl ⟨_, hw.here, ?_⟩))
    simp [Scheduler.grant, Scheduler.addWaiter]
  | launch hb => cases hb.before.symm.trans hl
  | letter ht => cases ht.before.symm.trans hl
  | gone hl₀ hs =>
    cases hl₀.symm.trans hl
    rcases hs with hs | ⟨-, seat, hs⟩ <;> cases hs

/-- Whoever leaves the slot free tells all who wait in the scheduler. -/
theorem busy_kept (ho : m.Ordered) (hh : m.Housed) {act : Action S A V} (ha : m.act act = some m')
    (h : m.Busy g) : m'.Busy g ∨ ∃ a x, act.actor? = some a ∧ m.cogs.get? g = some x ∧
      (∀ b, x.lock = some b → b = a) ∧ Tells m g x a m' := by
  have shift := shift_act ho ha
  rcases h with ⟨x, hx, active⟩ | ⟨a, stage, k, hl⟩
  · obtain ⟨x', hx', worked⟩ := shift.cog hx (ho.newCog (by simp [hx]))
    generalize hactor : act.actor? = actor at worked
    cases worked with
    | idle e =>
      refine .inl (.inl ⟨x', hx', ?_⟩)
      rw [e]
      exact active
    | @deed a own loud s s' ht hd htells =>
      rcases hd.busy active with active | hloud | ⟨rfl, stage, k, rfl⟩
      · exact .inl (.inl ⟨x', hx', active⟩)
      · refine .inr ⟨a, x, rfl, hx, fun b hb => ?_, htells hloud⟩
        rcases hd.loud_lock hloud with hn | hs
        · rw [hn] at hb
          cases hb
        · obtain ⟨y, hy, hlock, -⟩ := ho.locks ht.before hs
          cases hy.symm.trans hx
          rw [hlock] at hb
          exact (Option.some.inj hb).symm
      · exact .inl (.inr ⟨a, stage, k, ht.after⟩)
    | grant _ hg =>
      refine .inl (.inl ⟨x', hx', ?_⟩)
      cases hg <;> simp [Scheduler.grant, Scheduler.addWaiter]
  · by_cases hact : act.actor? = some a
    · have shift := hact ▸ shift
      rcases shift.hand hl with ⟨stage', hl'⟩ | busy | ⟨x, hx, tells⟩ | ⟨seat, hl'⟩
      · exact .inl (.inr ⟨a, stage', k, hl'⟩)
      · exact .inl busy
      · refine .inr ⟨a, x, hact, hx, fun b hb => ?_, tells⟩
        obtain ⟨y, hy, hlock, -⟩ := ho.locks hl rfl
        cases hy.symm.trans hx
        rw [hlock] at hb
        exact (Option.some.inj hb).symm
      · obtain ⟨⟨c, rfl⟩, -⟩ := ho.home hl
        obtain rfl := Action.step_of_actor hact
        exact (hand_kept ho hh hl ha hl').elim
    · have stirred := shift.other ho (by simp [hl]) hact
      exact .inl (.inr ⟨a, stage, k, stirred.look ▸ hl⟩)

/-! ## What a waiter is told -/

namespace Machine

/-- What a waiter of the cog `g` with the state `σ` depends on, if it is woken through `w`. -/
def outlook (m : Machine S A V) (w : Waker) (g : CogId) (σ : S) : Outlook S where
  sight := m.sight
  state := σ
  listed := m.Listed w
  ringing := m.Ringing w
  busy := m.Busy g

variable {act : Action S A V} {told : Prop}

theorem outlook_later (ho : m.Ordered) (ha : m.act act = some m') (hx : m.cogs.get? g = some x)
    (hx' : m'.cogs.get? g = some x') {w : Waker} (hw : m.alive w = true)
    (hr : m.Ringing w → m'.Ringing w ∨ told) (hb : m.Busy g → m'.Busy g ∨ told) :
    (m.outlook w g x.state).Later (m'.outlook w g x'.state) told where
  now := (aside_act ho ha).now
  resolved _ := (aside_act ho ha).resolved
  listed _ := (aside_act ho ha).listed hw
  news _ := (aside_act ho ha).news
  ringing := hr
  busy := hb
  state := by
    rcases (ho.exclusive hx).state ha hx' with same | ⟨d, k, rfl, runs⟩
    · exact .inr same
    · obtain ⟨e, -, -, active, -⟩ := (ho.exclusive hx).body runs
      exact .inl (.inl ⟨x, hx, by simp [active]⟩)

/-! ## A thread in an await -/

section
variable {t : Thread S A V} {aw : Awaiting S A V} {phase : Phase S} (ho : m.Ordered)
  (ha : m.act act = some m') (hs : m.Stands c g x t aw phase) (hx' : m'.cogs.get? g = some x')
include ho ha hs hx'

/-- What a thread in an await does to its own outlook while it leaves the slot alone. -/
theorem later_of_own (hact : act = .step (.context c))
    (hactive : x'.scheduler.active = x.scheduler.active) {w : Waker} (hw : m.alive w = true) :
    (m.outlook w g x.state).Later (m'.outlook w g x'.state) False := by
  subst hact
  have others {b : Agent} (hb : (m.look b).isSome) (hbc : b ≠ .context c) : m.Stirred m' b :=
    (shift_act ho ha).other ho hb fun e => hbc (Option.some.inj e).symm
  refine outlook_later ho ha hs.cog hx' hw ?_ ?_
  · rintro ⟨b, hb⟩
    refine .inl ⟨b, ?_⟩
    cases htb : m.threads.get? b with
    | none => simp [Machine.signals, htb] at hb
    | some tb =>
      have hbc : b ≠ .context c := by
        rintro rfl
        cases hs.thread.symm.trans htb
        rw [signals_eq htb, hs.control] at hb
        cases hb
      rw [(others (by simp [look_eq m _ htb]) hbc).signals]
      exact hb
  · rintro (⟨y, hy, active⟩ | ⟨b, stage, l, hl⟩)
    · cases hs.cog.symm.trans hy
      exact .inl (.inl ⟨x', hx', hactive ▸ active⟩)
    · have hbc : b ≠ .context c := by
        rintro rfl
        rw [look_eq m _ hs.thread, hs.control] at hl
        have stance : phase.stance aw.task = .hand stage l := congrArg Prod.snd (Option.some.inj hl)
        cases phase <;> cases stance
      exact .inl (.inr ⟨b, stage, l, (others (by simp [hl]) hbc).look.trans hl⟩)

variable (hh : m.Housed) (hne : act.actor? ≠ some (.context c))
include hh hne

/-- A thread that waits for its guard outside the lock is told through its parker. -/
theorem later_of_waits {w : Wait S} (hp : phase = .wait w) (hw : c ∈ x.scheduler.waiters) :
    ∃ (p : Bool) (t' : Thread S A V), m'.Stands c g x' t' aw (.wait (if p then w.notify else w)) ∧
      ((m.parker (.own c)).permit = true → (m'.parker (.own c)).permit = true) ∧
      (m.outlook (.parker (.own c)) g x.state).Later (m'.outlook (.parker (.own c)) g x'.state)
        ((m'.parker (.own c)).permit = true ∧ p = true) := by
  subst hp
  have hl := look_eq m _ hs.thread
  rw [hs.home] at hl
  have present : (m.look (.context c)).isSome := by simp [hl]
  have aside := aside_act ho ha
  obtain ⟨p, t', hs', roused⟩ := hs.stirred ((shift_act ho ha).other ho present hne) hx'
  have stands : m'.Stands c g x' t' aw (.wait (if p then w.notify else w)) := by
    cases p <;> exact hs'
  have sleeps : t.sleepsOn (.context c) (.parker (.own c)) = true := by
    simp [Thread.sleepsOn, hs.control, Agent.context?]
  refine ⟨p, t', stands, aside.permit c hne present (hh.lends hl),
    outlook_later ho ha hs.cog hx' (hh.alive_parker hl) ?_ ?_⟩
  · intro ringing
    rcases ringing_kept ho (shift_act ho ha) aside ringing with h | ⟨a, hact, permit, told⟩
    · exact .inl h
    · have hca : Agent.context c ≠ a := fun e => hne (e ▸ hact)
      exact .inr ⟨permit, roused (told _ t hca hs.thread sleeps)⟩
  · intro busy
    rcases busy_kept ho hh ha busy with h | ⟨a, y, hact, hy, -, tells⟩
    · exact .inl h
    · cases hs.cog.symm.trans hy
      have hca : Agent.context c ≠ a := fun e => hne (e ▸ hact)
      obtain ⟨permit, told⟩ := tells.waiter c hw hca
      exact .inr ⟨permit, roused (told t hs.thread sleeps)⟩

/-- A thread that sleeps in the scheduler is told through its condition variable. -/
theorem later_of_asleep {failure : Option GuardError} {deadline : Option Instant} {notified : Bool}
    (hp : phase = .asleep failure deadline notified) :
    ∃ (p : Bool) (t' : Thread S A V),
      m'.Stands c g x' t' aw (.asleep failure deadline (p || notified)) ∧
      (m.outlook (.scheduler g) g x.state).Later (m'.outlook (.scheduler g) g x'.state)
        (p = true) := by
  subst hp
  have hl := look_eq m _ hs.thread
  rw [hs.home] at hl
  obtain ⟨p, t', hs', roused⟩ := hs.stirred ((shift_act ho ha).other ho (by simp [hl]) hne) hx'
  have stands : m'.Stands c g x' t' aw (.asleep failure deadline (p || notified)) := by
    cases p <;> exact hs'
  have sleeps : t.sleepsOn (.context c) (.slot g) = true := by
    simp [Thread.sleepsOn, hs.control, hs.home]
  refine ⟨p, t', stands, outlook_later ho ha hs.cog hx' (ho.alive_scheduler hl) ?_ ?_⟩
  · intro ringing
    rcases ringing_kept ho (shift_act ho ha) (aside_act ho ha) ringing with h | ⟨a, hact, sent⟩
    · exact .inl h
    · have hca : Agent.context c ≠ a := fun e => hne (e ▸ hact)
      have hosted : m.cogExists g = true := ho.alive_scheduler hl
      obtain ⟨-, told⟩ := sent hosted
      exact .inr (roused (told _ t hca hs.thread sleeps))
  · intro busy
    rcases busy_kept ho hh ha busy with h | ⟨a, y, hact, hy, -, tells⟩
    · exact .inl h
    · have hca : Agent.context c ≠ a := fun e => hne (e ▸ hact)
      exact .inr (roused (tells.slot _ t hca hs.thread sleeps))

/-- Nobody gives the slot up or wakes the scheduler while a thread holds its lock. -/
theorem later_of_locked (hp : phase.stance aw.task = .contend aw.task) :
    (m.outlook (.scheduler g) g x.state).Later (m'.outlook (.scheduler g) g x'.state) False := by
  have hl := look_eq m _ hs.thread
  rw [hs.home] at hl
  have lock := ho.lock_of_contend hs.thread hs.home hs.control hs.cog hp
  refine outlook_later ho ha hs.cog hx' (ho.alive_scheduler hl) ?_ ?_
  · intro ringing
    rcases ringing_kept ho (shift_act ho ha) (aside_act ho ha) ringing with h | ⟨a, -, sent⟩
    · exact .inl h
    · have hosted : m.cogExists g = true := ho.alive_scheduler hl
      obtain ⟨unlocked, -⟩ := sent hosted
      simp [Machine.unlocked, hs.cog, lock] at unlocked
  · intro busy
    rcases busy_kept ho hh ha busy with h | ⟨a, y, hact, hy, holder, -⟩
    · exact .inl h
    · cases hs.cog.symm.trans hy
      exact absurd (holder _ lock) fun e => hne (e ▸ hact)

end

end Machine

end ObjectGroups
