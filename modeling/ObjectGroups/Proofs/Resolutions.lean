/-
A future that is waited for cannot be resolved unnoticed.

Waiting for a future is looking at it, registering with it, looking again and
parking, over and over (`WaitPoint.future?`). It ends with `true` only when the
future is resolved, and with an interrupt only when its parker has been
interrupted. A thread that parks has registered before it has looked for the
last time: whoever has resolved the future since is about to wake the parker,
or has left a permit there, which nobody else takes (`Notices`).
-/
import ObjectGroups.Proofs.Permits

namespace ObjectGroups

variable {S A V : Type} {m m' n : Machine S A V} {a b : Agent} {c : ContextId} {f : FutureId}
  {p : ParkerId} {w : Wait S} {x : WaitPoint S} {frames : List (Bool × List (Guard S))} {spot : Spot}
  {move : Action S A V} {t : Thread S A V}

open Machine

/-! ## Waiting for a future -/

/-- The future that is waited for at this point. -/
def WaitPoint.future? : WaitPoint S → Option FutureId
  | .enter (.future f) => some f
  | .future f => some f
  | .join f => some f
  | .recheck f => some f
  | .park none _ (.future f) => some f
  | _ => none

namespace Wait

variable {v : Sight} {σ : S} {q : Parker} {next : WaitMove S}

/-- A wait for a future goes on with it, or has its answer. -/
theorem future?_step (h : step v σ q ⟨x, frames⟩ = some next) (hx : x.future? = some f) :
    ∃ y, next.wait = ⟨y, frames⟩ ∧ (y.future? = some f ∨
      (y = .done (.ok true) ∧ v.resolved f = true) ∨
      (y = .done (.error .interrupted) ∧ q.interrupted = true)) := by
  cases step_paces h with
  | goes hy =>
    refine ⟨_, rfl, ?_⟩
    cases hy with
    | answers hr => cases hr with
      | resolved hf | resolvedSince hf =>
        cases hx
        exact .inr (.inl ⟨rfl, hf⟩)
      | _ => cases hx
    | future | joins | parksFuture =>
      cases hx
      exact .inl rfl
    | _ => cases hx
  | joins =>
    cases hx
    exact ⟨_, rfl, .inl rfl⟩
  | @sleeps d sleep after =>
    refine ⟨_, rfl, .inl ?_⟩
    cases d with
    | none => cases after <;> exact hx
    | some d => cases hx
  | @wakes d sleep after frames r q' look =>
    obtain ⟨rfl, rfl⟩ : d = none ∧ after = .future f := by
      cases d with
      | none => cases after with
        | future =>
          cases hx
          exact ⟨rfl, rfl⟩
        | _ => cases hx
      | some d => cases hx
    refine ⟨_, rfl, ?_⟩
    cases r with
    | ok u => exact .inl rfl
    | error e =>
      obtain ⟨rfl, flag⟩ := Parker.look_error look
      exact .inr (.inr ⟨rfl, flag⟩)
  | _ => cases hx

/-- Who comes to a future is about to look at it. -/
theorem future?_entered (h : step v σ q ⟨x, frames⟩ = some next) (hx : x.future? = none)
    (hf : next.wait.point.future? = some f) :
    next.wait.point = .enter (.future f) ∨ next.wait.point = .future f := by
  have enters {y : WaitPoint S} {g : Guard S} (hy : y = .enter g) (hf : y.future? = some f) :
      y = .enter (.future f) := by
    subst hy
    cases g with
    | future =>
      cases hf
      rfl
    | _ => cases hf
  cases step_paces h with
  | goes hy => cases hy with
    | future | joins | parksFuture => cases hx
    | parksTimer | parksNever => cases hf
    | @parksAny gs external d | parksUser g d => cases d <;> cases hf
    | _ => cases hf
  | joins => cases hx
  | @sleeps d sleep after => cases d with
    | none => cases after with
      | future => cases hx
      | _ => cases hf
    | some d => cases hf
  | @wakes d sleep after frames r => cases after with
    | future g => cases r with
      | ok u =>
        cases hf
        exact .inr rfl
      | error e => cases hf
    | user g plan => cases hf
    | _ => cases r <;> cases hf
  | descends | passes => exact .inl (enters rfl hf)
  | _ => cases hf

/-- What comes after a wait for a future is none of its business. -/
theorem step_alone (h : step v σ q ⟨x, frames⟩ = some next) (hx : x.future? = some f) :
    step v σ q ⟨x, []⟩ = some { next with wait := ⟨next.wait.point, []⟩ } := by
  cases x with
  | enter g => cases g with
    | future g =>
      cases h
      rfl
    | _ => cases hx
  | park d sleep after =>
    simp only [step] at h ⊢
    split at h
    · cases h
    · next look =>
      cases h
      rfl
    · next look =>
      cases h
      rfl
  | future | join | recheck =>
    cases h
    rfl
  | _ => cases hx

end Wait

/-- The parker with which the thread waits for a guard without a task. -/
def Control.holds? : Control S A V → Option ParkerId
  | .hold _ _ p _ _ => some p
  | _ => none

@[simp] theorem Control.holds?_waiting (w : Wait S) (k : Control S A V) :
    (k.waiting w).holds? = k.holds? := by
  cases k with
  | awaiting aw phase => cases phase <;> rfl
  | _ => rfl

@[simp] theorem Control.holds?_rouse (k : Control S A V) : k.rouse.holds? = k.holds? := by
  cases k with
  | awaiting aw phase => cases phase <;> rfl
  | _ => rfl

namespace Machine

/-- The parker with which the thread waits for a guard, and where the wait stands. -/
def wait? (m : Machine S A V) (a : Agent) : Option (ParkerId × Wait S) :=
  (m.threads.get? a).bind (·.control.wait? a)

theorem wait?_eq (h : m.wait? a = some (p, w)) :
    ∃ t, m.threads.get? a = some t ∧ t.control.wait? a = some (p, w) := Option.bind_eq_some_iff.mp h

def holds? (m : Machine S A V) (a : Agent) : Option ParkerId :=
  (m.threads.get? a).bind (·.control.holds?)

/-- If the thread waits with the parker `p` for a guard without a task, the parker is its own: it is
that of no other context, and nobody else parks on it. -/
def keepsApart (m : Machine S A V) (a : Agent) (p : ParkerId) : Bool :=
  m.holds? a ≠ some p ||
    (match p with
      | .own c => a = .context c
      | .loose _ => true) &&
    m.threads.all fun e => e.1 = a || (m.spot? e.1).all (·.parker ≠ p)

/-! ## A parker of one's own -/

/-- A thread parks on what bodies can get hold of, or on the parker of its context. -/
theorem spot?_lends (h : m.spot? a = some spot) :
    m.lends spot.parker = true ∨ ∃ c, a = .context c ∧ spot.parker = .own c := by
  obtain ⟨t, ht, admitted, hs⟩ := spot?_eq h
  cases hk : t.control with
  | park seat q deadline sleep next =>
    rw [hk] at admitted hs
    cases hs
    exact .inl admitted
  | hold seat g q w next =>
    rw [hk] at admitted hs
    obtain ⟨lent, -⟩ := Bool.and_eq_true_iff.mp
      (show (m.lends q && (m.cogs.get? g).isSome) = true from admitted)
    rw [Wait.spot?_eq (p := q) hs]
    exact .inl lent
  | awaiting aw phase => cases phase with
    | wait w =>
      rw [hk] at hs
      obtain ⟨c, hc, hs⟩ := Option.bind_eq_some_iff.mp hs
      cases a with
      | context d =>
        cases hc
        exact .inr ⟨c, rfl, Wait.spot?_eq hs⟩
      | caller n => cases hc
    | _ =>
      rw [hk] at hs
      cases hs
  | _ =>
    rw [hk] at hs
    cases hs

/-- The parker with which the thread waits is its own. -/
structure Owns (m : Machine S A V) (a : Agent) (p : ParkerId) : Prop where
  context : ∀ c, p = .own c → a = .context c
  sole : ∀ b spot, m.spot? b = some spot → spot.parker = p → b = a

theorem Ordered.owns (ho : m.Ordered) (hh : m.Housed)
    (apart : m.holds? a = some p → m.keepsApart a p = true) (hw : m.wait? a = some (p, w)) :
    m.Owns a p := by
  obtain ⟨t, ht, hw⟩ := wait?_eq hw
  cases hk : t.control with
  | hold seat g q w' next =>
    rw [hk] at hw
    cases hw
    have holds : m.holds? a = some p := by simp [holds?, ht, hk, Control.holds?]
    have apart := apart holds
    simp only [keepsApart, holds, ne_eq, not_true_eq_false, decide_false, Bool.false_or,
      Bool.and_eq_true] at apart
    obtain ⟨mine, others⟩ := apart
    refine ⟨fun c e => ?_, fun b spot hs e => ?_⟩
    · subst e
      simpa using mine
    · obtain ⟨t', ht', -, -⟩ := spot?_eq hs
      have other := List.all_eq_true.mp others _ (Table.mem_of_get? ht')
      simp only [hs, Option.all_some, Bool.or_eq_true, decide_eq_true_eq] at other
      exact other.resolve_right (by simpa using e)
  | awaiting aw phase => cases phase with
    | wait w' =>
      rw [hk] at hw
      obtain ⟨c, hc, e⟩ := Option.map_eq_some_iff.mp hw
      cases e
      have hl := look_eq m _ ht
      obtain ⟨g, d, -, hg, rfl, -⟩ := ho.home_of_hosts hl (by rw [hk]; rfl)
      cases hc
      refine ⟨fun d e => by cases e; rfl, fun b spot hs e => ?_⟩
      rcases spot?_lends hs with lent | ⟨d, rfl, hd⟩
      · rw [e, hh.lends (hg ▸ hl)] at lent
        cases lent
      · cases hd.symm.trans e
        rfl
    | _ =>
      rw [hk] at hw
      cases hw
  | _ =>
    rw [hk] at hw
    cases hw

section
variable (owns : m.Owns a p) (ht : m.threads.get? a = some t) (hh : m.Housed)
include owns ht

theorem Owns.alive (hh : m.Housed) : m.alive (.parker p) = true := by
  cases p with
  | loose n => rfl
  | own c =>
    obtain rfl := owns.context c rfl
    exact hh.alive_parker (look_eq m _ ht)

/-- Nobody else takes a permit from a thread's own parker. -/
theorem Owns.permit (ho : m.Ordered) (hact : move.actor? ≠ some a)
    (sways : (⟨m, move, m'⟩ : Move S A V).Sways p) (h : (m.parker p).permit = true) :
    (m'.parker p).permit = true := by
  cases sways with
  | unparked _ _ _ _ after =>
    have after : m'.parker p = (m.parker p).unpark := after
    rw [after]
    rfl
  | taken _ takes =>
    refine absurd ?_ hact
    simp only [Move.takes, Option.any_eq_true] at takes
    obtain ⟨⟨spot, r⟩, lands, taken⟩ := takes
    obtain ⟨b, x, hb, hs, -⟩ := Move.lands?_eq lands
    simp only [Bool.and_eq_true, decide_eq_true_eq] at taken
    exact owns.sole b spot hs taken.1.1 ▸ hb
  | renewed _ _ renews =>
    obtain ⟨c, hc, rfl⟩ : ∃ c, (⟨m, move, m'⟩ : Move S A V).enters? = some c ∧ .own c = p := by
      simpa [Move.renews] using renews
    obtain rfl := owns.context c rfl
    obtain ⟨⟨b, own, s, s'⟩, turn, enters⟩ := Option.bind_eq_some_iff.mp hc
    obtain ⟨-, hl, -⟩ := Move.acts turn
    have stage := Stance.enters_eq enters
    obtain ⟨-, absent, -⟩ := ho.newcomer hl (show s.newcomer? = some c by simp [Stance.newcomer?, stage])
    rw [look_eq m _ ht] at absent
    cases absent
  | raised _ _ _ _ after =>
    have after : m'.parker p = (m.parker p).interrupt := after
    rw [after]
    exact h
  | kept _ _ _ _ same =>
    have same : m'.parker p = m.parker p := same
    rw [same]
    exact h

end

/-! ## What a thread that waits for a future notices -/

/-- What a waiter depends on that is woken through the parker `p`, the state `σ` of its cog apart. -/
def lookout (m : Machine S A V) (p : ParkerId) (σ : S) : Outlook S where
  sight := m.sight
  state := σ
  listed := m.Listed (.parker p)
  ringing := m.Ringing (.parker p)
  busy := True

/-- Who waits for a future at this point will be told of it. -/
def Notices (m : Machine S A V) (p : ParkerId) (x : WaitPoint S) : Prop :=
  x.future?.isSome = true → ∀ σ, x.Watched (m.lookout p σ) (m.parker p).permit

theorem lookout_later (told : Prop) (ho : m.Ordered) (ha : m.act move = some m')
    (alive : m.alive (.parker p) = true)
    (hr : m.Ringing (.parker p) → m'.Ringing (.parker p) ∨ told) (σ σ' : S) :
    (m.lookout p σ).Later (m'.lookout p σ') told where
  now := (aside_act ho ha).now
  resolved _ := (aside_act ho ha).resolved
  listed _ := (aside_act ho ha).listed alive
  news _ := (aside_act ho ha).news
  ringing := hr
  busy _ := .inl trivial
  state := .inl trivial

theorem within_future (hx : x.future? = some f) : (⟨x, []⟩ : Wait S).Within (Guard.future f).Part := by
  refine ⟨?_, nofun⟩
  have part : (Guard.future f : Guard S).Part (.future f) := .self rfl
  cases x with
  | enter g => cases g with
    | future =>
      cases hx
      exact part
    | _ => cases hx
  | park d sleep after => cases d with
    | none => cases after with
      | future =>
        cases hx
        exact ⟨rfl, part⟩
      | _ => cases hx
    | some d => cases hx
  | future | join | recheck =>
    cases hx
    exact part
  | _ => cases hx

/-- A step of the wait keeps this. -/
theorem Notices.step {σ : S} {next : WaitMove S} (frames : List (Bool × List (Guard S)))
    (h : m.Notices p x)
    (hstep : Wait.step m.sight σ (m.parker p) ⟨x, frames⟩ = some next)
    (later : ∀ σ σ', (m.lookout p σ).Later (m'.lookout p σ') False) (now : m'.now = m.now)
    (joined : ∀ f ∈ next.joins, m'.Listed (.parker p) f) (parker : m'.parker p = next.parker) :
    m'.Notices p next.wait.point := by
  intro going σ'
  obtain ⟨f, hf⟩ := Option.isSome_iff_exists.mp going
  cases hx : x.future? with
  | none => rcases Wait.future?_entered hstep hx hf with e | e <;> rw [e] <;> trivial
  | some f₀ =>
    have watched := Wait.watched_step (o := m.lookout p σ) (within_future hx) (h (by simp [hx]) σ)
      (Wait.step_alone hstep hx) (later σ σ') now joined
    rwa [parker]

/-- So does whatever others do, if it leaves the parker its permit. -/
theorem Notices.others {notified : Bool} (told : Prop) (h : m.Notices p w.point)
    (later : ∀ σ σ', (m.lookout p σ).Later (m'.lookout p σ') told)
    (permit : (m.parker p).permit = true → (m'.parker p).permit = true)
    (ht : told → (m'.parker p).permit = true ∧ notified = true) :
    m'.Notices p (if notified then w.notify else w).point := by
  intro going σ
  have same : (if notified then w.notify else w).point =
      (if notified then Wait.notify ⟨w.point, []⟩ else ⟨w.point, []⟩).point := by
    obtain ⟨point, frames⟩ := w
    cases notified with
    | false => rfl
    | true => cases point <;> rfl
  have before : w.point.future?.isSome = true := by
    obtain ⟨point, frames⟩ := w
    cases notified with
    | false => exact going
    | true => cases point with
      | park d sleep after => cases d <;> cases after <;> exact going
      | _ => exact going
  obtain ⟨f, hf⟩ := Option.isSome_iff_exists.mp before
  rw [same]
  refine Wait.watched_later (o := m.lookout p σ) (within_future hf) (h before σ) (later σ σ)
    (fun aims => ?_) permit ht
  cases hw : w.point with
  | anyAim =>
    rw [hw] at before
    cases before
  | _ =>
    rw [hw] at aims
    cases aims

end Machine

/-! ## Waits along a run -/

theorem Control.wait?_rouse (a : Agent) (k : Control S A V) :
    k.rouse.wait? a = (k.wait? a).map fun (p, w) => (p, w.notify) := by
  cases k with
  | awaiting aw phase => cases phase with
    | wait w => cases a <;> rfl
    | _ => rfl
  | _ => rfl

/-- Who waits for a guard sleeps on the parker that it waits with. -/
theorem Control.sleepsOn_wait (h : t.control.wait? a = some (p, w)) : t.sleepsOn a (.parker p) = true := by
  unfold Thread.sleepsOn
  cases hk : t.control with
  | hold seat g q w next =>
    rw [hk] at h
    cases h
    simp
  | awaiting aw phase => cases phase with
    | wait w =>
      rw [hk] at h
      obtain ⟨c, hc, e⟩ := Option.map_eq_some_iff.mp h
      cases e
      simp [hc]
    | _ =>
      rw [hk] at h
      cases h
  | _ =>
    rw [hk] at h
    cases h

namespace Machine

/-- A thread that waits takes the next step of its wait. -/
theorem step_wait (ht : m.threads.get? a = some t)
    (hw : t.control.wait? a = some (p, w)) (hr : w.result? = none) (h : m.step a = some m') :
    ∃ σ next, w.step m.sight σ (m.parker p) = some next ∧ m'.wait? a = some (p, next.wait) := by
  have now {m₁ : Machine S A V} {k : Control S A V} {w' : Wait S} (hm : m.Stirred m₁ a)
      (hk : k = t.control.waiting w') : (m₁.setControl a k).wait? a = some (p, w') := by
    unfold wait?
    rw [thread_set k ht hm, hk]
    exact Control.wait?_waiting hw w'
  have took := step_of ht h
  generalize hk : t.control = k at *
  cases took with
  | answers ended =>
    cases hw
    cases ended.symm.trans hr
  | waits _ _ _ hstep =>
    cases hw
    exact ⟨_, _, hstep, now (.same rfl) rfl⟩
  | awaits ha _ _ took =>
    subst ha
    cases took with
    | waits _ hstep =>
      cases hw
      exact ⟨_, _, hstep, now (.same rfl) rfl⟩
    | interrupted ended | waitFails ended | promised ended | hinted ended =>
      cases hw
      cases ended.symm.trans hr
    | _ => cases hw
  | _ => cases hw

/-- A thread that parks in a wait does so for a cog, which has a state. -/
theorem Ordered.state (ho : m.Ordered) (hw : m.wait? a = some (p, w)) (hs : m.spot? a = some spot) :
    Nonempty S := by
  obtain ⟨t, ht, hw⟩ := wait?_eq hw
  obtain ⟨t', ht', admitted, -⟩ := spot?_eq hs
  cases ht.symm.trans ht'
  cases hk : t.control with
  | hold seat g q w' next =>
    rw [hk] at admitted
    obtain ⟨-, there⟩ := Bool.and_eq_true_iff.mp
      (show (m.lends q && (m.cogs.get? g).isSome) = true from admitted)
    obtain ⟨x, -⟩ := Option.isSome_iff_exists.mp there
    exact ⟨x.state⟩
  | awaiting aw phase => cases phase with
    | wait w' =>
      obtain ⟨-, -, x, -⟩ := ho.home_of_hosts (look_eq m _ ht) (by rw [hk]; rfl)
      exact ⟨x.state⟩
    | _ =>
      rw [hk] at hw
      cases hw
  | _ =>
    rw [hk] at hw
    cases hw

/-- Who sends no signals leaves those of others under way. -/
theorem Ringing.others {u : Waker} (h : m.Ringing u) (ho : m.Ordered) (shift : Shift m m' (some a))
    (silent : m.signals a = []) : m'.Ringing u := by
  obtain ⟨b, hb⟩ := h
  have hba : b ≠ a := by
    rintro rfl
    rw [silent] at hb
    cases hb
  have there : (m.look b).isSome := by
    cases ht : m.threads.get? b with
    | none => simp [Machine.signals, ht] at hb
    | some t => simp [look, ht]
  exact ⟨b, (shift.other ho there fun e => hba (Option.some.inj e).symm).signals ▸ hb⟩

/-- While others act, a thread goes on waiting, at most notified. -/
theorem wait?_others (ho : m.Ordered) (ha : m.act move = some m') (hact : move.actor? ≠ some a)
    (ht : m.threads.get? a = some t) (hw : t.control.wait? a = some (p, w)) :
    ∃ notified : Bool, m'.wait? a = some (p, if notified then w.notify else w) ∧
      (m'.threads.get? a = some t.rouse → notified = true) := by
  have notified : t.control.rouse.wait? a = some (p, w.notify) := by
    rw [Control.wait?_rouse, hw]
    rfl
  by_cases told : m'.threads.get? a = some t.rouse
  · exact ⟨true, by simp [wait?, told, notified], fun _ => rfl⟩
  · have stays := (ho.stays ha ht hact).resolve_right told
    exact ⟨false, by simp [wait?, stays, hw], fun h => absurd h told⟩

end Machine

section
variable {reg : Registry} {memory : A} {moves since : List (Move S A V)}

/-- A thread that waits for a future with a parker of its own notices when it is resolved. -/
theorem History.notices (h : History (.empty reg memory) moves m)
    (apart : m.holds? a = some p → ∀ v ∈ moves, v.before.keepsApart a p = true)
    (hw : m.wait? a = some (p, w)) : m.Notices p w.point := by
  induction h generalizing w with
  | refl => cases hw
  | @act moves m m' move h ha ih =>
    have ho := h.reachable.ordered
    have hh := h.reachable.housed
    obtain ⟨t', ht', hw'⟩ := wait?_eq hw
    have begins (hf : t'.control.behind.fresh = true) : m'.Notices p w.point := by
      intro _ σ
      have begins := Control.fresh_wait (Control.fresh_of_behind hf) hw'
      obtain ⟨point, frames⟩ := w
      cases point with
      | enter g => trivial
      | _ => cases begins
    -- What the thread waits with it has waited with before.
    have goesOn {t : Thread S A V} {w₀ : Wait S} (ht : m.threads.get? a = some t)
        (hw₀ : t.control.wait? a = some (p, w₀)) (hh' : m.holds? a = some p → m'.holds? a = some p) :
        m.Notices p w₀.point ∧ m.Owns a p := by
      have waiting : m.wait? a = some (p, w₀) := by simp [wait?, ht, hw₀]
      refine ⟨ih (fun holds v hv => apart (hh' holds) v (List.mem_append_left _ hv)) waiting, ?_⟩
      exact ho.owns hh (fun holds => apart (hh' holds) ⟨m, move, m'⟩ (by simp)) waiting
    by_cases hact : move.actor? = some a
    · obtain rfl := Action.step_of_actor hact
      cases (parks_step ho h.reachable.enlisted ha).ways t' ht' with
      | fresh hf => exact begins hf
      | tells t g n ht hk => exact begins (h.reachable.plain.told ht hk)
      | dozes _ _ _ _ none => cases none.symm.trans hw'
      | waits t q w₀ σ next ht _ hw₀ hstep e futures parker now =>
        subst e
        cases (Control.wait?_waiting hw₀ next.wait).symm.trans hw'
        obtain ⟨notices, owns⟩ := goesOn ht hw₀ fun holds => by
          simpa [holds?, ht, ht'] using holds
        have silent : m.signals a = [] :=
          (signals_eq ht).trans (Control.wait?_quiet none hw₀ w₀).1
        have later := lookout_later (S := S) False ho ha (owns.alive ht hh)
          fun ringing => .inl (ringing.others ho (shift_act ho ha) silent)
        refine Notices.step w₀.frames notices hstep later now (fun f hf => ?_) parker
        have joined := listed_subscriber (owns.alive ht hh) hf
        unfold Listed future at joined ⊢
        rwa [futures]
    · rcases (shift_act ho ha).apart hact with ⟨roused, hr⟩ | new
      · rw [ht'] at hr
        obtain ⟨t, ht, e⟩ := Option.map_eq_some_iff.mp hr.symm
        obtain ⟨w₀, hw₀⟩ : ∃ w₀, t.control.wait? a = some (p, w₀) := by
          subst e
          cases roused with
          | false => exact ⟨w, hw'⟩
          | true =>
            obtain ⟨⟨q, w₀⟩, hw₀, e⟩ :=
              Option.map_eq_some_iff.mp ((Control.wait?_rouse a t.control).symm.trans hw')
            cases e
            exact ⟨w₀, hw₀⟩
        obtain ⟨notices, owns⟩ := goesOn ht hw₀ fun holds => by
          subst e
          cases roused <;> simpa [holds?, ht, ht'] using holds
        obtain ⟨notified, hn, told⟩ := wait?_others ho ha hact ht hw₀
        cases hn.symm.trans hw
        refine Notices.others ((m'.parker p).permit = true ∧ notified = true) notices
          (lookout_later _ ho ha (owns.alive ht hh) fun ringing => ?_)
          (owns.permit ht ho hact (h.reachable.sways ha p)) id
        rcases ringing_kept ho (shift_act ho ha) (aside_act ho ha) ringing with
          ringing | ⟨b, hb, permit, sent⟩
        · exact .inl ringing
        · have hab : a ≠ b := by
            rintro rfl
            exact hact hb
          exact .inr ⟨permit, told (sent a t hab ht (Control.sleepsOn_wait hw₀))⟩
      · exact begins (new t' ht').fresh

/-- What the answer of a wait for the future `f` with the parker `p`, come to in the move `v`,
rests on. -/
def Grounds (moves : List (Move S A V)) (v : Move S A V) (p : ParkerId) (f : FutureId) (r : Answer) :
    Prop :=
  (r = .ok true ∧ (v.before.future f).resolved = true) ∨
    (r = .error .interrupted ∧ (v.before.parker p).interrupted = true ∧
      ∃ u ∈ moves, u.raises p = true)

theorem Wait.future?_notify (x : WaitPoint S) (frames : List (Bool × List (Guard S))) :
    ∃ y, Wait.notify ⟨x, frames⟩ = ⟨y, frames⟩ ∧ y.future? = x.future? := by
  cases x with
  | park d sleep after => exact ⟨_, rfl, by cases d <;> cases after <;> rfl⟩
  | _ => exact ⟨_, rfl, rfl⟩

/-- A parker that is interrupted in the course of a run has got an interrupt in it. -/
theorem History.interrupt_sent (h : History (.empty reg memory) moves n) (hs : History n since m)
    {v : Move S A V} (hv : v ∈ since) (flag : (v.before.parker p).interrupted = true) :
    ∃ u ∈ moves ++ since, u.raises p = true := by
  obtain ⟨earlier, later, rfl⟩ := List.append_of_mem hv
  obtain ⟨before, -⟩ := hs.at_move
  obtain ⟨pre, u, post, all, raises, -⟩ := ((h.trans before).interrupted_iff p).mp flag
  refine ⟨u, ?_, raises⟩
  rw [← List.append_assoc, all]
  simp

/-- A wait for the same thing throughout, as `key` tells, goes on until it has an answer, if each step of
its own goes on with it, or comes to `true` where `C` holds, or to an interrupt. -/
theorem History.goes_on {κ : Type} {key : WaitPoint S → Option κ} {i : κ} {C : Machine S A V → Prop}
    (h : History (.empty reg memory) moves n) (hs : History n since m) (ended : ∀ r, key (.done r) ≠ some i)
    (rung : ∀ y, ∃ y', Wait.notify ⟨y, frames⟩ = ⟨y', frames⟩ ∧ key y' = key y)
    (steps : ∀ {k : Machine S A V} {σ : S} {y : WaitPoint S} {next : WaitMove S},
      Wait.step k.sight σ (k.parker p) ⟨y, frames⟩ = some next → key y = some i →
        ∃ y', next.wait = ⟨y', frames⟩ ∧ (key y' = some i ∨ (y' = .done (.ok true) ∧ C k) ∨
          (y' = .done (.error .interrupted) ∧ (k.parker p).interrupted = true)))
    (hn : n.wait? a = some (p, ⟨x, frames⟩)) (hx : key x = some i) :
    (∃ y, m.wait? a = some (p, ⟨y, frames⟩) ∧ key y = some i) ∨
      ∃ v ∈ since, ∃ r, v.act = .step a ∧ v.after.wait? a = some (p, ⟨.done r, frames⟩) ∧
        ((r = .ok true ∧ C v.before) ∨ (r = .error .interrupted ∧ (v.before.parker p).interrupted = true ∧
          ∃ u ∈ moves ++ since, u.raises p = true)) := by
  suffices goes : (∃ y, m.wait? a = some (p, ⟨y, frames⟩) ∧ key y = some i) ∨
      ∃ v ∈ since, ∃ r, v.act = .step a ∧ v.after.wait? a = some (p, ⟨.done r, frames⟩) ∧
        ((r = .ok true ∧ C v.before) ∨ (r = .error .interrupted ∧ (v.before.parker p).interrupted = true)) by
    refine goes.imp_right ?_
    rintro ⟨v, hv, r, hact, hw, grounds⟩
    refine ⟨v, hv, r, hact, hw, grounds.imp_right ?_⟩
    rintro ⟨hr, flag⟩
    exact ⟨hr, flag, h.interrupt_sent hs hv flag⟩
  induction hs with
  | refl => exact .inl ⟨x, hn, hx⟩
  | @act since m m' move hs ha ih =>
    have ho := (h.trans hs).reachable.ordered
    rcases ih with ⟨y, hw, hy⟩ | ⟨v, hv, answered⟩
    · obtain ⟨t, ht, hw⟩ := wait?_eq hw
      by_cases hact : move.actor? = some a
      · obtain rfl := Action.step_of_actor hact
        have unanswered : Wait.result? (⟨y, frames⟩ : Wait S) = none := by
          cases y with
          | done r => exact absurd hy (ended r)
          | _ => rfl
        obtain ⟨σ, next, hstep, hw'⟩ := step_wait ht hw unanswered ha
        obtain ⟨y', e, hy' | answer⟩ := steps hstep hy
        · exact .inl ⟨y', e ▸ hw', hy'⟩
        · refine .inr ⟨⟨m, .step a, m'⟩, by simp, ?_⟩
          rcases answer with ⟨rfl, holds⟩ | ⟨rfl, flag⟩
          · exact ⟨_, rfl, e ▸ hw', .inl ⟨rfl, holds⟩⟩
          · exact ⟨_, rfl, e ▸ hw', .inr ⟨rfl, flag⟩⟩
      · obtain ⟨notified, hw', -⟩ := wait?_others ho ha hact ht hw
        cases notified with
        | false => exact .inl ⟨y, hw', hy⟩
        | true =>
          obtain ⟨y', e, same⟩ := rung y
          exact .inl ⟨y', e ▸ hw', same.trans hy⟩
    · exact .inr ⟨v, List.mem_append_left _ hv, answered⟩

/-- A wait for a future goes on until it has come to an answer, for which there are grounds. -/
theorem History.answers (h : History (.empty reg memory) moves n) (hs : History n since m)
    (hn : n.wait? a = some (p, ⟨x, frames⟩)) (hx : x.future? = some f) :
    (∃ y, m.wait? a = some (p, ⟨y, frames⟩) ∧ y.future? = some f) ∨
      ∃ v ∈ since, ∃ r, v.act = .step a ∧ v.after.wait? a = some (p, ⟨.done r, frames⟩) ∧
        Grounds (moves ++ since) v p f r :=
  h.goes_on (C := fun k => (k.future f).resolved = true) hs (by simp [WaitPoint.future?])
    (Wait.future?_notify · frames) Wait.future?_step hn hx

/-- How a thread fares that waits for the future `f` with the parker `p`, in a run that has led to
`m`. -/
structure Unmissed (start : Machine S A V) (moves : List (Move S A V)) (m : Machine S A V) (a : Agent)
    (p : ParkerId) (f : FutureId) : Prop where
  /-- A wait that is under way goes on until it has come to an answer: `true` of a future that is
  resolved, or an interrupt of a parker that has been interrupted. -/
  answers {n : Machine S A V} {earlier since : List (Move S A V)} {x : WaitPoint S}
    {frames : List (Bool × List (Guard S))} : moves = earlier ++ since → History start earlier n →
      History n since m → n.wait? a = some (p, ⟨x, frames⟩) → x.future? = some f →
        (∃ y, m.wait? a = some (p, ⟨y, frames⟩) ∧ y.future? = some f) ∨
          ∃ v ∈ since, ∃ r, v.act = .step a ∧ v.after.wait? a = some (p, ⟨.done r, frames⟩) ∧
            Grounds moves v p f r
  /-- Once all wake-ups for the parker have been delivered, a thread that is parked has a permit if
  the future is resolved, and is not blocked if it is or the parker has been interrupted. Outside of
  awaits this asks for a parker of its own. -/
  rests {x : WaitPoint S} {frames : List (Bool × List (Guard S))} {spot : Spot} :
    m.wait? a = some (p, ⟨x, frames⟩) → x.future? = some f → m.spot? a = some spot →
      (m.holds? a = some p → ∀ v ∈ moves, v.before.keepsApart a p = true) →
        ¬ m.Ringing (.parker p) →
          ((m.future f).resolved = true → (m.parker p).permit = true) ∧
            (m.step a = none → (m.future f).resolved = false ∧ (m.parker p).interrupted = false)

/-- A wait for a future never misses its resolution, whatever else happens to its parker. -/
theorem resolution_unmissed (h : History (.empty reg memory) moves m) (a : Agent) (p : ParkerId)
    (f : FutureId) : Unmissed (.empty reg memory) moves m a p f where
  answers := by
    rintro n earlier since x frames rfl before after hn hx
    exact before.answers after hn hx
  rests := by
    intro x frames spot hw hx hs apart silent
    obtain ⟨t, ht, hwt⟩ := wait?_eq hw
    obtain ⟨t', ht', -, hst⟩ := spot?_eq hs
    cases ht.symm.trans ht'
    have here : (⟨x, frames⟩ : Wait S).spot? p = some spot :=
      (Control.spot?_wait hwt ⟨x, frames⟩).1.symm.trans hst
    obtain ⟨σ⟩ := h.reachable.ordered.state hw hs
    have notices := h.notices apart hw (by simp [hx]) σ
    cases x with
    | park d sleep after => cases d with
      | none => cases after with
        | future =>
          cases hx
          cases here
          have blocked (hb : m.step a = none) :=
            h.reachable.bare.blocked h.reachable.ordered hs hb
          obtain ⟨-, unresolved | ringing | ⟨permit, awake⟩⟩ := notices
          · have unresolved : (m.future f).resolved = false := unresolved
            refine ⟨fun resolved => ?_, fun hb => ⟨unresolved, ?_⟩⟩
            · rw [unresolved] at resolved
              cases resolved
            · have bare : m.parker p = {} := (blocked hb).2.1
              rw [bare]
          · exact absurd ringing silent
          · exact ⟨fun _ => permit, fun hb => absurd (blocked hb).1 awake⟩
        | _ => cases hx
      | some d => cases hx
    | _ => cases here

end

/-- One caller waits for a future with a parker of its own. A second one wakes it for nothing, and a
third one resolves the future while it sleeps again. -/
def raceActions : List (Action Unit Unit Unit) :=
  [.found "cog" (),
    .arrive (.request (.wait ⟨1⟩ (.future ⟨1⟩) (.loose 0)) fun _ => .exit (.ok ())),
    .arrive (.request (.wake (.parker (.loose 0))) fun _ => .exit (.ok ())),
    .arrive (.request .newFuture fun f => .request (.resolve f (.ok ())) fun _ => .exit (.ok ()))] ++
    [1, 1, 1, 1, 1, 1, 2, 2, 1, 3, 1, 1, 1, 1, 3, 3].map fun n => .step (.caller n)

def race : Machine Unit Unit Unit :=
  raceActions.foldl perform (.empty { namePrefix := "cog", admits := fun _ => true } ())

def raceMoves : List (Move Unit Unit Unit) :=
  (Machine.empty { namePrefix := "cog", admits := fun _ => true } ()).moves raceActions

theorem resolution_unmissed_raced :
    Unmissed (.empty { namePrefix := "cog", admits := fun _ => true } ()) raceMoves race (.caller 1)
      (.loose 0) ⟨1⟩ ∧
    (race.wait? (.caller 1)).bind (·.2.point.future?) = some ⟨1⟩ ∧
    race.spot? (.caller 1) = some ⟨.loose 0, none, .asleep true⟩ ∧
    (race.future ⟨1⟩).resolved = true ∧ (race.parker (.loose 0)).permit = true ∧
    (raceMoves.all fun v => v.before.keepsApart (.caller 1) (.loose 0)) = true ∧
    (race.threads.all fun e => e.2.control.signals.isEmpty) = true :=
  ⟨resolution_unmissed (history_moves _ raceActions) _ _ _, by decide +kernel, by decide +kernel,
    by decide +kernel, by decide +kernel, by decide +kernel, by decide +kernel⟩

end ObjectGroups
