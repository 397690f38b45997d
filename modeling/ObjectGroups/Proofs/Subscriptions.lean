/-
Futures are written once, and wake each of their waiters once.

The list of waiters is pruned whenever somebody registers: it holds no waker
twice, and who is on it stays there unless found to be gone (`Enrolled`). The
first call to `resolve` fixes the value and takes the list, both in one step.
From then on the list is in the hands of the calling thread, which wakes one
after the other (`Rounds`) while everybody else goes on, registers in vain,
looks at the value, or calls `resolve` too.

Anybody may register a waker that is alive, so that a run is a `Chronicle`
here, in which this happens besides all that the machine does.
-/
import ObjectGroups.Proofs.Resolutions

namespace ObjectGroups

variable {S A V : Type} {m m' n : Machine S A V} {a b : Agent} {g : CogId} {c : ContextId} {f : FutureId}
  {p : ParkerId} {w w' : Waker} {t : Thread S A V} {x : ObjectGroups.Settled V}

open Machine

/-! ## The list of waiters -/

namespace Future

variable (y : Future V) (alive : Waker → Bool)

theorem subscribe_resolved (h : y.resolved = true) (w : Waker) : y.subscribe alive w = y := by
  unfold subscribe
  rw [if_pos h]

/-- Who registers is on the list, and of the others those that are alive. -/
theorem mem_subscribe (h : y.resolved = false) :
    w' ∈ (y.subscribe alive w).waiters ↔ w' = w ∨ (w' ∈ y.waiters ∧ alive w' = true) := by
  unfold subscribe
  rw [if_neg (by simp [h])]
  dsimp only
  split
  · next there =>
    have there : w ∈ y.waiters ∧ alive w = true := by simpa using there
    rw [List.mem_filter]
    exact ⟨.inr, by rintro (rfl | h) <;> assumption⟩
  · rw [List.mem_append, List.mem_filter, List.mem_singleton]
    exact or_comm

theorem nodup_subscribe (h : y.waiters.Nodup) (w : Waker) : (y.subscribe alive w).waiters.Nodup := by
  unfold subscribe
  split
  · exact h
  · dsimp only
    split
    · exact h.filter _
    · next absent =>
      refine List.nodup_append.mpr ⟨h.filter _, List.nodup_singleton w, fun u hu v hv => ?_⟩
      rintro rfl
      rw [List.mem_singleton] at hv
      subst hv
      exact absent (by simpa using hu)

/-- To register once more makes no difference. -/
theorem subscribe_subscribe (w : Waker) :
    (y.subscribe alive w).subscribe alive w = y.subscribe alive w := by
  by_cases hr : y.resolved = true
  · rw [y.subscribe_resolved alive hr, y.subscribe_resolved alive hr]
  · have open' : y.value.isSome = false := by simpa [resolved] using hr
    by_cases there : w ∈ y.waiters
    · by_cases living : alive w = true <;> simp [subscribe, resolved, open', there, living]
    · by_cases living : alive w = true <;> simp [subscribe, resolved, open', there, living]

end Future

namespace Machine

/-- Registering concerns the futures that are named. -/
theorem future_subscribe_eq (m : Machine S A V) (w : Waker) (fs : List FutureId) (f : FutureId) :
    (m.subscribe w fs).future f =
      if f ∈ fs then (m.future f).subscribe m.alive w else m.future f := by
  suffices h : ∀ table : Table FutureId (Future (ObjectGroups.Settled V)),
      ((fs.foldl (fun t f => t.put f (((t.get? f).getD {}).subscribe m.alive w)) table).get? f).getD {} =
        if f ∈ fs then ((table.get? f).getD {}).subscribe m.alive w else (table.get? f).getD {} from
    h m.futures
  induction fs with
  | nil => intro table; rfl
  | cons f' fs ih =>
    intro table
    rw [List.foldl_cons, ih, Table.get?_put]
    by_cases hf : f = f'
    · subst hf
      simp [Future.subscribe_subscribe]
    · simp [hf]

end Machine

/-! ## What a step does to futures -/

/-- The futures with which a wait registers at this point. -/
def WaitPoint.joins (v : Sight) : WaitPoint S → List FutureId
  | .join f => [f]
  | .enter (.any gs) => (Guard.sources v (.any gs)).1
  | _ => []

theorem Wait.joins_step {u : Wait S} {v : Sight} {σ : S} {q : Parker} {next : WaitMove S}
    (h : u.step v σ q = some next) : next.joins = u.point.joins v := by
  cases step_paces h with
  | goes hy => cases hy with
    | answers hr => cases hr <;> rfl
    | _ => rfl
  | subscribes hs | subscribeFailed hs => exact (congrArg Prod.fst hs).symm
  | _ => rfl

theorem Wait.joins_result {u : Wait S} {r : Answer} (h : u.result? = some r) (v : Sight) :
    u.point.joins v = [] := by
  obtain ⟨point, frames⟩ := u
  cases point with
  | done r => rfl
  | _ => cases h

namespace Control

/-- The waker that the thread `a` of the cog `own` is about to register, and with which futures. -/
def joins? (v : Sight) (a : Agent) (own : Option CogId) : Control S A V → Option (Waker × List FutureId)
  | .awaiting aw .subscribe => own.map fun g => (.scheduler g, (aw.guard.sources v).1)
  | k => (k.wait? a).map fun (p, u) => (.parker p, u.point.joins v)

/-- The future that a thread is about to resolve, and with what. -/
def attempts? : Control S A V → Option (FutureId × ObjectGroups.Settled V)
  | .run _ (.request (.resolve f x) _) => some (f, x)
  | _ => none

end Control

theorem Calm.futures (h : Calm m m') : m'.futures = m.futures := by
  have outside := h.outside
  simp only [Machine.outside, Prod.mk.injEq] at outside
  exact outside.2.1

namespace Machine

def joins? (m : Machine S A V) (a : Agent) : Option (Waker × List FutureId) :=
  (m.threads.get? a).bind fun t => t.control.joins? m.sight a t.cog

/-- The machine once the waker, if there is one, has been registered. -/
def registering (m : Machine S A V) : Option (Waker × List FutureId) → Machine S A V
  | some (w, fs) => m.subscribe w fs
  | none => m

theorem joins?_eq (ht : m.threads.get? a = some t) :
    m.joins? a = t.control.joins? m.sight a t.cog := by
  simp [joins?, ht]

theorem futures_strike (m : Machine S A V) (c : ContextId) : (m.strike c).futures = m.futures := by
  obtain ⟨_, h⟩ := m.strike_eq c
  rw [h]

theorem futures_body {own : Option CogId} {seat : Option Seat} {body : Body S A V}
    (hk : (Control.run seat body).attempts? = none) (h : m.BodyStep a own seat body m') :
    m'.futures = m.futures := by
  cases h with
  | resolves => cases hk
  | _ => rfl

theorem futures_start {own : Option CogId} {stage : Stage} {e : Errand S A V}
    (h : m.StartStep a own e stage m') : m'.futures = m.futures := by
  have struck {c : ContextId} {m' : Machine S A V} (h : Calm (m.strike c) m') : m'.futures = m.futures :=
    h.futures.trans (futures_strike m c)
  cases h with
  | closed => exact (calm_startFailed (.same rfl rfl)).futures
  | panics => exact struck (calm_startUnwound (.same rfl rfl))
  | refused => exact struck (calm_startFailed (.same rfl rfl))
  | @granted d =>
    have calm {m₁ : Machine S A V} (h : Calm m m₁) : (m₁.startSucceeded a own d e).futures = m.futures :=
      (calm_startSucceeded h).futures
    exact calm (.same rfl rfl)
  | _ => rfl

theorem futures_await {y : Cog S A V} {aw : Awaiting S A V} {phase : Phase S}
    (h : m.AwaitStep c g y aw phase m') :
    m'.futures =
      (m.registering ((Control.awaiting aw phase).joins? m.sight (.context c) (some g))).futures := by
  cases h with
  | @waits u move _ moves =>
    show _ = (m.subscribe _ (u.point.joins m.sight)).futures
    rw [← Wait.joins_step moves]
    rfl
  | @interrupted u r answer | @waitFails u r e answer | @promised u answer | @hinted u b answer =>
    show _ = (m.subscribe _ (u.point.joins m.sight)).futures
    rw [Wait.joins_result answer]
    rfl
  | @subscribes fs b sources | @subscribeFails fs p sources =>
    show _ = (m.subscribe _ (aw.guard.sources m.sight).1).futures
    rw [sources]
    rfl
  | handsOver => exact (calm_handedOver (.same rfl rfl)).futures
  | aborts | abandons => exact calm_abort.futures
  | _ => rfl

/-- Only who resolves or registers changes futures. -/
theorem step_futures (ht : m.threads.get? a = some t) (hk : t.control.attempts? = none)
    (h : m.step a = some m') : m'.futures = (m.registering (m.joins? a)).futures := by
  have took := step_of ht h
  rw [joins?_eq ht]
  generalize t.control = k at hk took ⊢
  cases took with
  | runs took => exact futures_body hk took
  | starts took => exact futures_start took
  | awaits ha hg _ took =>
    subst ha
    rw [hg]
    exact futures_await took
  | joins | retires => exact Calm.futures (.setControl (.broadcast (.same rfl rfl)))
  | completes => exact Calm.futures (.announceEnd (.broadcast (.same rfl rfl)))
  | strands => exact Calm.futures (.announceEnd (.report (.broadcast (.same rfl rfl))))
  | leaves => exact futures_strike _ _
  | tells => exact Calm.futures (.setControl (.deliver (.same rfl rfl)))
  | sends took => cases took <;> rfl
  | @answers seat g q u next r answer =>
    show _ = (m.subscribe _ (u.point.joins m.sight)).futures
    rw [Wait.joins_result answer]
    rfl
  | @waits seat g q u next y move _ _ _ moves =>
    show _ = (m.subscribe _ (u.point.joins m.sight)).futures
    rw [← Wait.joins_step moves]
    rfl
  | _ => rfl

end Machine

/-! ## Runs in which wakers are registered from outside as well -/

/-- What can happen where somebody who has a waker may register it at any time. -/
inductive Cause (S A V : Type) where
  | act (move : Action S A V)
  | subscribe (w : Waker) (fs : List FutureId)

def Machine.undergo (m : Machine S A V) : Cause S A V → Option (Machine S A V)
  | .act move => m.act move
  | .subscribe w fs => if m.alive w then some (m.subscribe w fs) else none

structure Event (S A V : Type) where
  before : Machine S A V
  cause : Cause S A V
  after : Machine S A V

/-- The events that have led from one machine to another. -/
inductive Chronicle (start : Machine S A V) : List (Event S A V) → Machine S A V → Prop where
  | refl : Chronicle start [] start
  | undergo {events : List (Event S A V)} {m m' : Machine S A V} {cause : Cause S A V} :
      Chronicle start events m → m.undergo cause = some m' →
        Chronicle start (events ++ [⟨m, cause, m'⟩]) m'

namespace Event

variable (f) (w : Waker) (a) (e : Event S A V)

def actor? : Option Agent :=
  match e.cause with
  | .act move => move.actor?
  | .subscribe _ _ => none

/-- The thread that calls `resolve` on the future, and with what. -/
def attempt? : Option (Agent × ObjectGroups.Settled V) :=
  e.actor?.bind fun a => (e.before.threads.get? a).bind fun t => t.control.attempts?.bind fun (f', x) =>
    if f' = f then some (a, x) else none

/-- The waker that is registered, and with which futures. -/
def joins? : Option (Waker × List FutureId) :=
  match e.cause with
  | .act move => move.actor?.bind e.before.joins?
  | .subscribe w fs => some (w, fs)

/-- The waker is registered with the future. -/
def registers : Bool := e.joins?.any fun (w', fs) => w' = w && fs.contains f

/-- Some waker is registered with the future, and this one is found to be gone. -/
def drops : Bool := !e.before.alive w && e.joins?.any fun (_, fs) => fs.contains f

/-- The signal that the thread sends. -/
def sends? : Option Signal :=
  if e.actor? = some a then (e.before.signals a).head? else none

end Event

section
variable {events : List (Event S A V)} {e : Event S A V}

theorem Control.attempts?_eq {k : Control S A V} (h : k.attempts? = some (f, x)) :
    ∃ seat next, k = .run seat (.request (.resolve f x) next) := by
  unfold attempts? at h
  split at h
  · next seat f' y next =>
    cases h
    exact ⟨seat, next, rfl⟩
  · cases h

theorem Event.step_of_actor (h : e.actor? = some a) : e.cause = .act (.step a) := by
  obtain ⟨before, cause, after⟩ := e
  cases cause with
  | act move => exact congrArg Cause.act (Action.step_of_actor h)
  | subscribe => cases h

theorem Event.attempt?_eq (h : e.attempt? f = some (a, x)) : e.cause = .act (.step a) ∧
    ∃ t seat next, e.before.threads.get? a = some t ∧
      t.control = .run seat (.request (.resolve f x) next) := by
  obtain ⟨b, hb, h⟩ := Option.bind_eq_some_iff.mp h
  obtain ⟨t, ht, h⟩ := Option.bind_eq_some_iff.mp h
  obtain ⟨⟨f', y⟩, hk, h⟩ := Option.bind_eq_some_iff.mp h
  obtain ⟨hf, e'⟩ : f' = f ∧ some (b, y) = some (a, x) := by simpa using h
  subst hf
  cases e'
  obtain ⟨seat, next, hc⟩ := Control.attempts?_eq hk
  exact ⟨e.step_of_actor hb, t, seat, next, ht, hc⟩

theorem Machine.step_resolve {seat : Option Seat} {next : Option (ObjectGroups.Settled V) → Body S A V}
    (ht : m.threads.get? a = some t) (hk : t.control = .run seat (.request (.resolve f x) next)) :
    m.step a = some (match (m.future f).value with
      | some _ => m.setControl a (.run seat (next (some x)))
      | none => { m with futures := m.futures.put f { value := some x } }.setControl a
          (.signal seat ((m.future f).waiters.map .wake) (next none))) := by
  simp only [step, ht, hk, stepBody, stepRequest, Future.resolve]
  cases (m.future f).value <;> rfl

theorem Machine.futures_idle {move : Action S A V} (ha : m.act move = some m')
    (hact : move.actor? = none) : m'.futures = m.futures := by
  cases move with
  | step a => cases hact
  | count n =>
    simp only [Machine.act] at ha
    split at ha <;> cases ha
    rfl
  | _ =>
    cases ha
    rfl

/-- What becomes of a future. -/
theorem Machine.undergo_future {cause : Cause S A V} (h : m.undergo cause = some m') (f : FutureId) :
    m'.future f = match (⟨m, cause, m'⟩ : Event S A V).attempt? f, (⟨m, cause, m'⟩ : Event S A V).joins? with
      | some (_, x), _ => if (m.future f).resolved then m.future f else { value := some x }
      | none, some (w, fs) => if f ∈ fs then (m.future f).subscribe m.alive w else m.future f
      | none, none => m.future f := by
  have same {m m' : Machine S A V} (h : m'.futures = m.futures) : m'.future f = m.future f := by
    unfold future
    rw [h]
  cases cause with
  | subscribe w fs =>
    simp only [undergo] at h
    split at h <;> cases h
    exact future_subscribe_eq m w fs f
  | act move =>
    cases hact : move.actor? with
    | none =>
      simp only [Event.attempt?, Event.joins?, Event.actor?, hact, Option.bind_none]
      exact same (futures_idle h hact)
    | some a =>
      obtain rfl := Action.step_of_actor hact
      have h : m.step a = some m' := h
      cases ht : m.threads.get? a with
      | none => simp [step, ht] at h
      | some t =>
        simp only [Event.attempt?, Event.joins?, Event.actor?, Action.actor?, Option.bind_some, ht]
        cases hk : t.control.attempts? with
        | none =>
          simp only [Option.bind_none]
          rw [same (step_futures ht hk h)]
          cases hj : m.joins? a with
          | none => rfl
          | some j => exact future_subscribe_eq m j.1 j.2 f
        | some y =>
          obtain ⟨f', x⟩ := y
          obtain ⟨seat, next, hc⟩ := Control.attempts?_eq hk
          have idle : m.joins? a = none := by
            rw [joins?_eq ht, hc]
            rfl
          rw [step_resolve ht hc] at h
          have put (hv : (m.future f').value = none) : m'.futures = m.futures.put f' { value := some x } := by
            rw [hv] at h
            cases h
            rfl
          have kept (hv : (m.future f').resolved = true) : m'.futures = m.futures := by
            obtain ⟨z, hz⟩ := Option.isSome_iff_exists.mp hv
            rw [hz] at h
            cases h
            rfl
          simp only [idle, Option.bind_some]
          by_cases hf : f' = f
          · subst hf
            simp only [if_true]
            cases hr : (m.future f').resolved with
            | true => exact same (kept hr)
            | false =>
              rw [future_put (put (by simpa [Future.resolved] using hr)), if_pos rfl]
              rfl
          · simp only [if_neg hf]
            cases hr : (m.future f').resolved with
            | true => exact same (kept hr)
            | false =>
              rw [future_put (put (by simpa [Future.resolved] using hr)), if_neg (Ne.symm hf)]

theorem Machine.Ordered.subscribe (ho : m.Ordered) (w : Waker) (fs : List FutureId) :
    (m.subscribe w fs).Ordered where
  home := ho.home
  alone := ho.alone
  holder := ho.holder
  locks := ho.locks
  locker := ho.locker
  berth {t p q} hp hq :=
    have same (p : Berth) : (m.subscribe w fs).Berthed t p → m.Berthed t p := by cases p <;> exact id
    ho.berth (same p hp) (same q hq)
  queued := ho.queued
  newTask {t p} hp :=
    have same (p : Berth) : (m.subscribe w fs).Berthed t p → m.Berthed t p := by cases p <;> exact id
    ho.newTask (same p hp)
  newContext := ho.newContext
  newcomer := ho.newcomer
  newCaller := ho.newCaller
  newCog := ho.newCog

end

namespace Chronicle

variable {start : Machine S A V} {events earlier later : List (Event S A V)} {e : Event S A V}

theorem ordered (ho : start.Ordered) (h : Chronicle start events m) : m.Ordered := by
  induction h with
  | refl => exact ho
  | @undergo events m m' cause h hu ih => cases cause with
    | act move => exact ih.act hu
    | subscribe w fs =>
      simp only [Machine.undergo] at hu
      split at hu <;> cases hu
      exact ih.subscribe w fs

/-- An event comes of what the events before it have led to. -/
theorem at_event (h : Chronicle start (earlier ++ e :: later) m) :
    Chronicle start earlier e.before ∧ e.before.undergo e.cause = some e.after ∧
      Chronicle e.after later m := by
  generalize all : earlier ++ e :: later = events at h
  induction h generalizing later with
  | refl => simp at all
  | @undergo events n n' cause h hu ih =>
    rcases List.eq_nil_or_concat later with rfl | ⟨init, last, rfl⟩
    · obtain ⟨rfl, last⟩ := List.append_inj' all rfl
      obtain rfl := List.singleton_inj.mp last
      exact ⟨h, hu, .refl⟩
    · rw [List.concat_eq_append, ← List.cons_append, ← List.append_assoc] at all
      obtain ⟨rfl, hlast⟩ := List.append_inj' all rfl
      obtain rfl := List.singleton_inj.mp hlast
      obtain ⟨before, at', after⟩ := ih rfl
      exact ⟨before, at', List.concat_eq_append ▸ .undergo after hu⟩

end Chronicle

/-! ## The value and the waiters -/

section
variable {reg : Registry} {memory : A} {events earlier since : List (Event S A V)} {e : Event S A V}

namespace Future

theorem value_subscribe (y : Future V) (alive : Waker → Bool) (w : Waker) :
    (y.subscribe alive w).value = y.value := by
  unfold subscribe
  split <;> rfl

end Future

/-- A value is given once, by a call to `resolve`. -/
theorem Machine.undergo_value {cause : Cause S A V} (h : m.undergo cause = some m') (f : FutureId) :
    (m'.future f).value =
      (m.future f).value.or (((⟨m, cause, m'⟩ : Event S A V).attempt? f).map (·.2)) := by
  have future := undergo_future h f
  cases hat : (⟨m, cause, m'⟩ : Event S A V).attempt? f with
  | some y =>
    simp only [hat] at future
    rw [future]
    cases hv : (m.future f).value <;> simp [Future.resolved, hv]
  | none =>
    rw [Option.map_none, Option.or_none]
    cases hj : (⟨m, cause, m'⟩ : Event S A V).joins? with
    | none =>
      simp only [hat, hj] at future
      rw [future]
    | some j =>
      simp only [hat, hj] at future
      rw [future]
      split
      · exact (m.future f).value_subscribe _ _
      · rfl

/-- A future has the value of the first call to `resolve`. -/
theorem Chronicle.value (h : Chronicle (.empty reg memory) events m) (f : FutureId) :
    (m.future f).value = ((events.filterMap (·.attempt? f)).head?).map (·.2) := by
  induction h with
  | refl => rfl
  | @undergo events m m' cause h hu ih =>
    rw [List.filterMap_append, List.head?_append, Option.map_or, ← ih, Machine.undergo_value hu f]
    cases hat : (⟨m, cause, m'⟩ : Event S A V).attempt? f <;> simp [hat]

/-- Who is on the list of waiters. -/
structure Enrolled (events : List (Event S A V)) (f : FutureId) (y : Future (ObjectGroups.Settled V)) :
    Prop where
  distinct : y.waiters.Nodup
  emptied : y.resolved = true → y.waiters = []
  listed : y.resolved = false → ∀ w, w ∈ y.waiters ↔ Since events (·.registers f w) (·.drops f w)

theorem Chronicle.enrolled (h : Chronicle (.empty reg memory) events m) (f : FutureId) :
    Enrolled events f (m.future f) := by
  induction h with
  | refl =>
    exact ⟨.nil, fun _ => rfl, fun _ w => ⟨nofun, fun ⟨_, _, _, all, _⟩ => by simp at all⟩⟩
  | @undergo events m m' cause h hu ih =>
    have future := Machine.undergo_future hu f
    -- Whoever is not registered with the future leaves its list alone.
    have aside (hm : m'.future f = m.future f)
        (hj : ∀ w fs, (⟨m, cause, m'⟩ : Event S A V).joins? = some (w, fs) → f ∉ fs) :
        Enrolled (events ++ [⟨m, cause, m'⟩]) f (m'.future f) := by
      rw [hm]
      refine ⟨ih.distinct, ih.emptied, fun hr w => ?_⟩
      have registers : (⟨m, cause, m'⟩ : Event S A V).registers f w = false := by
        unfold Event.registers
        cases hjoin : (⟨m, cause, m'⟩ : Event S A V).joins? with
        | none => rfl
        | some j => simp [hj j.1 j.2 hjoin]
      have drops : (⟨m, cause, m'⟩ : Event S A V).drops f w = false := by
        unfold Event.drops
        cases hjoin : (⟨m, cause, m'⟩ : Event S A V).joins? with
        | none => simp
        | some j => simp [hj j.1 j.2 hjoin]
      rw [since_snoc, registers, drops, ih.listed hr w]
      simp
    cases hat : (⟨m, cause, m'⟩ : Event S A V).attempt? f with
    | some y =>
      simp only [hat] at future
      rw [future]
      split
      · next hr =>
        exact ⟨ih.distinct, ih.emptied, fun open' => absurd (open'.symm.trans hr) nofun⟩
      · exact ⟨.nil, fun _ => rfl, nofun⟩
    | none =>
      simp only [hat] at future
      cases hj : (⟨m, cause, m'⟩ : Event S A V).joins? with
      | none =>
        simp only [hj] at future
        exact aside future fun w fs e => by cases hj.symm.trans e
      | some j =>
        obtain ⟨w, fs⟩ := j
        simp only [hj] at future
        by_cases hf : f ∈ fs
        · rw [if_pos hf] at future
          rw [future]
          have same := (m.future f).resolved_subscribe m.alive w
          refine ⟨(m.future f).nodup_subscribe m.alive ih.distinct w, fun hr => ?_, fun hr w' => ?_⟩
          · rw [same] at hr
            rw [(m.future f).subscribe_resolved m.alive hr]
            exact ih.emptied hr
          · rw [same] at hr
            have registers : (⟨m, cause, m'⟩ : Event S A V).registers f w' = decide (w' = w) := by
              simp [Event.registers, hj, hf, eq_comm]
            have drops : (⟨m, cause, m'⟩ : Event S A V).drops f w' = !m.alive w' := by
              simp [Event.drops, hj, hf]
            rw [since_snoc, registers, drops, (m.future f).mem_subscribe m.alive hr, ih.listed hr w']
            simp [and_comm]
        · rw [if_neg hf] at future
          exact aside future fun w' fs' e => by
            cases hj.symm.trans e
            exact hf

end

/-! ## Waking them -/

/-- What those sleep on whom the waker wakes. -/
def Waker.channel? : Waker → Option Channel
  | .parker p => some (.parker p)
  | .scheduler g => some (.slot g)
  | .counter _ => none

/-- The thread `a` has woken `w`, and nobody else. -/
structure Woken (m : Machine S A V) (a : Agent) (w : Waker) (m' : Machine S A V) : Prop where
  threads : ∀ b t, b ≠ a → m.threads.get? b = some t →
    m'.threads.get? b = some (if w.channel?.any (t.sleepsOn b) then t.rouse else t)
  parkers : ∀ p, m'.parker p = if w = .parker p then (m.parker p).unpark else m.parker p
  counters : ∀ n, m'.counters.get? n =
    if w = .counter n then (m.counters.get? n).map (· + 1) else m.counters.get? n

/-- Nobody sleeps in the scheduler of a cog that is gone. -/
theorem Machine.Ordered.cogExists (ho : m.Ordered) (ht : m.threads.get? a = some t)
    (hs : t.sleepsOn a (.slot g) = true) : m.cogExists g = true := by
  have hg : t.cog = some g := by
    unfold Thread.sleepsOn at hs
    cases hk : t.control with
    | awaiting aw phase =>
      rw [hk] at hs
      cases phase with
      | asleep => simpa using hs
      | wait => cases a <;> simp [Agent.context?] at hs
      | _ => cases hs
    | _ =>
      rw [hk] at hs
      simp at hs
  have hl := look_eq m _ ht
  rw [hg] at hl
  obtain ⟨-, x, hx⟩ := ho.home hl
  unfold Machine.cogExists
  rw [hx]
  refine Bool.or_eq_true_iff.mpr (.inr (List.any_eq_true.mpr ⟨_, Table.mem_of_get? ht, ?_⟩))
  simpa using hg

theorem woken_step (ho : m.Ordered) {seat : Option Seat} {rest : List Signal} {next : Body S A V}
    (ht : m.threads.get? a = some t) (hk : t.control = .signal seat (.wake w :: rest) next)
    (h : m.step a = some m') :
    Woken m a w m' ∧ m'.threads.get? a = some { t with control := .signal seat rest next } := by
  simp only [step, ht, hk, stepSignal] at h
  cases w with
  | parker p =>
    cases h
    refine ⟨⟨fun b u hb hu => ?_, fun q => ?_, fun n => rfl⟩, thread_set _ ht (.unpark (.same rfl))⟩
    · rw [thread_setControl, if_neg hb, thread_unpark, hu]
      rfl
    · refine (parker_unpark m p q).trans ?_
      simp [eq_comm]
  | counter n =>
    cases h
    refine ⟨⟨fun b u hb hu => ?_, fun q => rfl, fun k => ?_⟩, thread_set _ ht (.same rfl)⟩
    · rw [thread_setControl, if_neg hb]
      exact hu
    · refine (Table.get?_modify m.counters n k (· + 1)).trans ?_
      by_cases hn : k = n
      · simp [hn]
      · simp [hn, Ne.symm hn]
  | scheduler g =>
    dsimp only at h
    split at h
    · next gone =>
      cases h
      refine ⟨⟨fun b u hb hu => ?_, fun q => rfl, fun k => rfl⟩, thread_set _ ht (.same rfl)⟩
      have awake : u.sleepsOn b (.slot g) = false := by
        by_contra hs
        rw [ho.cogExists hu (by simpa using hs)] at gone
        cases gone
      rw [thread_setControl, if_neg hb, hu]
      simp [Waker.channel?, awake]
    · split at h <;> cases h
      refine ⟨⟨fun b u hb hu => ?_, fun q => rfl, fun k => rfl⟩,
        thread_set _ ht (.notifyAll (.same rfl))⟩
      rw [thread_setControl, if_neg hb, thread_notifyAll, hu]
      rfl

/-- How far the thread `a` has come in waking `ws`, after which it goes on with `b`. -/
inductive Rounds (a : Agent) (seat : Option Seat) (ws : List Waker) (b : Body S A V) :
    List (Event S A V) → Machine S A V → Prop where
  | underWay {m : Machine S A V} {since : List (Event S A V)} {sent rest : List Waker}
      {t : Thread S A V} : ws = sent ++ rest → since.filterMap (·.sends? a) = sent.map .wake →
        m.threads.get? a = some t → t.control = .signal seat (rest.map .wake) b →
          Rounds a seat ws b since m
  | through {m : Machine S A V} {call later : List (Event S A V)} {e : Event S A V} {t : Thread S A V} :
      call.filterMap (·.sends? a) = ws.map .wake → e.cause = .act (.step a) →
        e.after.threads.get? a = some t → t.control = .run seat b →
          Rounds a seat ws b (call ++ e :: later) m

section
variable {reg : Registry} {memory : A} {events earlier since : List (Event S A V)} {e : Event S A V}

theorem Event.sends?_other (h : e.actor? ≠ some a) : e.sends? a = none := if_neg h

/-- Each of them is woken once. -/
theorem Chronicle.rounds {seat : Option Seat} {ws : List Waker} {next : Body S A V} (ho : n.Ordered)
    (h : Chronicle n since m) (ht : n.threads.get? a = some t)
    (hk : t.control = .signal seat (ws.map .wake) next) : Rounds a seat ws next since m := by
  induction h with
  | refl => exact .underWay (List.nil_append ws).symm rfl ht hk
  | @undergo since m m' cause h hu ih =>
    cases ih with
    | through sent he hte hke =>
      rw [List.append_assoc, List.cons_append]
      exact .through sent he hte hke
    | @underWay _ _ sent rest u e hsent hu' hku =>
      have ho := h.ordered ho
      -- While others act the thread has the same left to do.
      have others (hact : (⟨m, cause, m'⟩ : Event S A V).actor? ≠ some a) (hs : m.Stirred m' a) :
          Rounds a seat ws next (since ++ [⟨m, cause, m'⟩]) m' := by
        obtain ⟨p, hp⟩ := hs
        rw [hu'] at hp
        refine .underWay (t := if p then u.rouse else u) e ?_ hp ?_
        · rw [List.filterMap_append, hsent, List.filterMap_cons, Event.sends?_other hact]
          exact List.append_nil _
        · cases p
          · exact hku
          · rw [if_pos rfl, Thread.rouse_control, hku]
            rfl
      cases cause with
      | subscribe w fs =>
        simp only [Machine.undergo] at hu
        split at hu <;> cases hu
        exact others nofun (.same rfl)
      | act move =>
        by_cases hact : move.actor? = some a
        · obtain rfl := Action.step_of_actor hact
          have sends : (⟨m, .act (.step a), m'⟩ : Event S A V).sends? a = (rest.map Signal.wake).head? := by
            show (if (some a : Option Agent) = some a then (m.signals a).head? else none) = _
            rw [if_pos rfl, signals_eq hu', hku]
            rfl
          have hstep : m.step a = some m' := hu
          cases rest with
          | nil =>
            simp only [step, hu', hku, List.map_nil, stepSignal] at hstep
            cases hstep
            refine .through (by rw [hsent, e, List.append_nil]) rfl (thread_set _ hu' (.same rfl)) rfl
          | cons w rest =>
            obtain ⟨-, ht'⟩ := woken_step ho hu' hku hstep
            have all : ws = (sent ++ [w]) ++ rest := by rw [e, List.append_assoc]; rfl
            refine .underWay all ?_ ht' rfl
            rw [List.filterMap_append, hsent, List.filterMap_cons, sends]
            simp
        · exact others hact ((shift_act ho hu).other ho (by simp [look_eq m _ hu']) hact)

/-! ## Written once -/

/-- How a future fares in a run that has led to `m`. -/
structure WrittenOnce (events : List (Event S A V)) (m : Machine S A V) (f : FutureId) : Prop where
  /-- The value is that of the first call to `resolve`. -/
  value : (m.future f).value = ((events.filterMap (·.attempt? f)).head?).map (·.2)
  /-- Nobody is twice on the list of waiters, nobody once the future is resolved, and before that
  those who have registered and have not been found to be gone since. -/
  enrolled : Enrolled events f (m.future f)
  /-- The first call wakes each of them once, one after the other, and then tells of success. -/
  first {earlier since : List (Event S A V)} {e : Event S A V} {a : Agent} {x : ObjectGroups.Settled V} :
    events = earlier ++ e :: since → e.attempt? f = some (a, x) →
      earlier.filterMap (·.attempt? f) = [] → ∃ t seat next ws,
        e.before.threads.get? a = some t ∧ t.control = .run seat (.request (.resolve f x) next) ∧
          ws.Nodup ∧ (∀ w, w ∈ ws ↔ Since earlier (·.registers f w) (·.drops f w)) ∧
            Rounds a seat ws (next none) since m
  /-- Any other call hands its value back, and that is all. -/
  refused {earlier since : List (Event S A V)} {e : Event S A V} {a : Agent} {x : ObjectGroups.Settled V} :
    events = earlier ++ e :: since → e.attempt? f = some (a, x) →
      earlier.filterMap (·.attempt? f) ≠ [] → ∃ t seat next,
        e.before.threads.get? a = some t ∧ t.control = .run seat (.request (.resolve f x) next) ∧
          e.after = e.before.setControl a (.run seat (next (some x)))
  /-- Who looks sees the value of the first call. -/
  seen {earlier since : List (Event S A V)} {e : Event S A V} {a : Agent} {t : Thread S A V}
    {seat : Option Seat} {next : Option (ObjectGroups.Settled V) → Body S A V} :
    events = earlier ++ e :: since → e.cause = .act (.step a) → e.before.threads.get? a = some t →
      t.control = .run seat (.request (.peek f) next) → e.after = e.before.setControl a
        (.run seat (next (((earlier.filterMap (·.attempt? f)).head?).map (·.2))))
  /-- Who registers, and so has the waker in hand, is on the list then along with others that are
  alive; after the first call registering makes no difference. -/
  registered {earlier since : List (Event S A V)} {e : Event S A V} {w : Waker} :
    events = earlier ++ e :: since → e.registers f w = true →
      if earlier.filterMap (·.attempt? f) = [] then
        w ∈ (e.after.future f).waiters ∧
          ∀ w' ∈ (e.after.future f).waiters, w' = w ∨ e.before.alive w' = true
      else e.after.future f = e.before.future f
  /-- A wake-up reaches who it is for. -/
  woken {earlier since : List (Event S A V)} {e : Event S A V} {a : Agent} {w : Waker} :
    events = earlier ++ e :: since → e.sends? a = some (.wake w) → Woken e.before a w e.after

theorem Chronicle.resolved_iff (h : Chronicle (.empty reg memory) events m) (f : FutureId) :
    (m.future f).resolved = false ↔ events.filterMap (·.attempt? f) = [] := by
  rw [Future.resolved, h.value f]
  cases events.filterMap (·.attempt? f) <;> simp

theorem Event.registers_eq (h : e.registers f w = true) :
    e.attempt? f = none ∧ ∃ fs, e.joins? = some (w, fs) ∧ f ∈ fs := by
  unfold registers at h
  cases hj : e.joins? with
  | none => simp [hj] at h
  | some j =>
    obtain ⟨w', fs⟩ := j
    obtain ⟨rfl, hf⟩ : w' = w ∧ f ∈ fs := by simpa [hj] using h
    refine ⟨Option.eq_none_iff_forall_ne_some.mpr fun (a, x) hat => ?_, fs, rfl, hf⟩
    obtain ⟨hc, t, seat, next, ht, hk⟩ := e.attempt?_eq hat
    have idle : e.joins? = e.before.joins? a := by
      unfold joins?
      rw [hc]
      rfl
    rw [idle, joins?_eq ht, hk] at hj
    cases hj

theorem Event.sends?_eq {s : Signal} (h : e.sends? a = some s) : e.cause = .act (.step a) ∧
    ∃ t seat rest next, e.before.threads.get? a = some t ∧ t.control = .signal seat (s :: rest) next := by
  unfold sends? at h
  split at h
  · next hact =>
    refine ⟨e.step_of_actor hact, ?_⟩
    obtain ⟨rest, hs⟩ := List.head?_eq_some_iff.mp h
    cases ht : e.before.threads.get? a with
    | none => simp [Machine.signals, ht] at hs
    | some t =>
      rw [signals_eq ht] at hs
      cases hk : t.control with
      | signal seat signals next =>
        rw [hk] at hs
        exact ⟨t, seat, rest, next, rfl, by rw [hk, ← show signals = s :: rest from hs]⟩
      | _ =>
        rw [hk] at hs
        cases hs
  · cases h

/-- A future is written once, and wakes each of its waiters once. -/
theorem written_once (h : Chronicle (.empty reg memory) events m) (f : FutureId) :
    WrittenOnce events m f where
  value := h.value f
  enrolled := h.enrolled f
  first := by
    rintro earlier since e a x rfl hat none
    obtain ⟨before, hu, after⟩ := h.at_event
    obtain ⟨hc, t, seat, next, ht, hk⟩ := e.attempt?_eq hat
    have unresolved := (before.resolved_iff f).mpr none
    have enrolled := before.enrolled f
    refine ⟨t, seat, next, _, ht, hk, enrolled.distinct, enrolled.listed unresolved, ?_⟩
    have ho := (before.undergo hu).ordered (ordered_empty reg memory)
    have hv : (e.before.future f).value = Option.none := by simpa [Future.resolved] using unresolved
    rw [hc] at hu
    have hstep : e.before.step a = some e.after := hu
    rw [step_resolve ht hk, hv] at hstep
    refine after.rounds ho (t := { t with control := .signal seat _ (next Option.none) }) ?_ rfl
    rw [← Option.some.inj hstep]
    exact thread_set _ ht (.same rfl)
  refused := by
    rintro earlier since e a x rfl hat some
    obtain ⟨before, hu, -⟩ := h.at_event
    obtain ⟨hc, t, seat, next, ht, hk⟩ := e.attempt?_eq hat
    refine ⟨t, seat, next, ht, hk, ?_⟩
    obtain ⟨y, hv⟩ : ∃ y, (e.before.future f).value = Option.some y := by
      have resolved : (e.before.future f).resolved = true := by
        simpa using mt (before.resolved_iff f).mp some
      exact Option.isSome_iff_exists.mp resolved
    rw [hc] at hu
    have hstep : e.before.step a = Option.some e.after := hu
    rw [step_resolve ht hk, hv] at hstep
    exact (Option.some.inj hstep).symm
  seen := by
    rintro earlier since e a t seat next rfl hc ht hk
    obtain ⟨before, hu, -⟩ := h.at_event
    rw [hc] at hu
    have hstep : e.before.step a = some e.after := hu
    simp only [step, ht, hk, stepBody, stepRequest, before.value f] at hstep
    exact (Option.some.inj hstep).symm
  registered := by
    rintro earlier since e w rfl hr
    obtain ⟨before, hu, -⟩ := h.at_event
    obtain ⟨hat, fs, hj, hf⟩ := e.registers_eq hr
    have future := Machine.undergo_future hu f
    simp only [hat, hj, if_pos hf] at future
    rw [future]
    split
    · next none =>
      have unresolved := (before.resolved_iff f).mpr none
      refine ⟨(Future.mem_subscribe _ _ unresolved).mpr (.inl rfl), fun w' hw' => ?_⟩
      exact ((Future.mem_subscribe _ _ unresolved).mp hw').imp_right (·.2)
    · next some =>
      have resolved := mt (before.resolved_iff f).mp some
      exact Future.subscribe_resolved _ _ (by simpa using resolved) w
  woken := by
    rintro earlier since e a w rfl hs
    obtain ⟨before, hu, -⟩ := h.at_event
    obtain ⟨hc, t, seat, rest, next, ht, hk⟩ := e.sends?_eq hs
    rw [hc] at hu
    exact (woken_step (before.ordered (ordered_empty reg memory)) ht hk hu).1

end

namespace Machine

/-- What comes of the causes, tried in turn. -/
def endure (m : Machine S A V) (cause : Cause S A V) : Machine S A V := (m.undergo cause).getD m

def events (m : Machine S A V) : List (Cause S A V) → List (Event S A V)
  | [] => []
  | cause :: causes => match m.undergo cause with
    | some m' => ⟨m, cause, m'⟩ :: m'.events causes
    | none => m.events causes

theorem chronicle_events {start : Machine S A V} {earlier : List (Event S A V)}
    (h : Chronicle start earlier m) (causes : List (Cause S A V)) :
    Chronicle start (earlier ++ m.events causes) (causes.foldl endure m) := by
  induction causes generalizing m earlier with
  | nil => simpa [events] using h
  | cons cause causes ih =>
    simp only [events, List.foldl_cons, endure]
    cases hu : m.undergo cause with
    | none => exact ih h
    | some m' =>
      rw [List.append_cons]
      exact ih (h.undergo hu)

end Machine

/-- Three wakers are registered with a future, one of them twice. One goes, and is found to be gone.
Then two callers resolve the future, the second before the first one has woken anybody. -/
def rivalCauses : List (Cause Unit Unit Unit) :=
  let counter (n : Nat) : Cause Unit Unit Unit := .subscribe (.counter n) [⟨1⟩]
  let resolver (x : ObjectGroups.Settled Unit) : Cause Unit Unit Unit :=
    .act (.arrive (.request (.resolve ⟨1⟩ x) fun _ => .request (.peek ⟨1⟩) fun _ => .exit (.ok ())))
  [.act (.count 0), .act (.count 1), .act (.count 2), counter 0, counter 1, counter 0,
    .act (.forget 1), counter 2, resolver (.ok ()), resolver (.error .interrupted)] ++
  ([1, 2, 2, 1, 1, 1, 1].map fun n => .act (.step (.caller n))) ++ [counter 0]

def rivals : Machine Unit Unit Unit :=
  rivalCauses.foldl endure (.empty { namePrefix := "cog", admits := fun _ => true } ())

def rivalEvents : List (Event Unit Unit Unit) :=
  (Machine.empty { namePrefix := "cog", admits := fun _ => true } ()).events rivalCauses

theorem written_once_rivals : WrittenOnce rivalEvents rivals ⟨1⟩ ∧
    ((rivalEvents.filterMap (·.attempt? ⟨1⟩)).map (·.1)) = [.caller 1, .caller 2] ∧
    (rivalEvents.filterMap (·.sends? (.caller 1))) = [.wake (.counter 0), .wake (.counter 2)] ∧
    rivals.counters = [(0, 1), (2, 1)] ∧ (rivals.future ⟨1⟩).value.any (·.isOk) = true :=
  ⟨written_once (chronicle_events .refl rivalCauses) _, by decide +kernel, by decide +kernel,
    by decide +kernel, by decide +kernel⟩

end ObjectGroups
