/-
What an action does to the registry.

A context gets its number, is entered, and then either has its thread or is
struck off again, each in one step of the thread that starts it (`Registers`);
what that thread is told in the end, `Errand.Told` says. An entry goes when the
thread of its context ends. Nobody else touches the registry, but for the calls
that close it and let go of it.

Along with the registry goes whoever waits until no context is live. It sleeps
only while some context is, since it looks before it does, and the last entry
that is struck off notifies all who wait.
-/
import ObjectGroups.Proofs.Signals

namespace ObjectGroups

variable {S A V : Type} {m m' m₁ : Machine S A V} {a b : Agent} {g : CogId} {c : ContextId}
  {own : Option CogId} {k : Control S A V} {t : Thread S A V} {stage : Stage} {e : Errand S A V}
  {act : Action S A V} {actor : Option Agent} {res : Exit RuntimeError ContextId}

open Machine

/-- The thread sleeps until no context is live, and nobody has notified it. -/
def Control.vigil : Control S A V → Bool
  | .idle _ _ (.asleep false) _ _ => true
  | _ => false

/-- What the thread goes on with when the start of the context has come to `res`. -/
inductive Errand.Told : Errand S A V → Exit RuntimeError ContextId → Control S A V → Prop where
  | submission {seat : Option Seat} {g : CogId} {view : TaskView}
      {next : Exit RuntimeError TaskId → Body S A V} {res : Exit RuntimeError ContextId}
      {k : Control S A V} : k.behind = .run seat (next (res.map fun _ => view.id)) →
      Told (.submission seat g view next) res k
  /-- The await goes on all the same. -/
  | handover {aw : Awaiting S A V} {res : Exit RuntimeError ContextId} {k : Control S A V} :
      (∀ p, res ≠ .panic p) → k.behind = .awaiting aw (.wait (.start aw.guard)) →
      Told (.handover aw) res k
  | unwinds {aw : Awaiting S A V} {p : Payload} {k : Control S A V} :
      k.behind = .run (some ⟨aw.task, false⟩) (aw.next (.panic p)) → Told (.handover aw) (.panic p) k
  | direct {seat : Option Seat} {label : String} {waker : Waker} {main : Body S A V}
      {next : Exit RuntimeError ContextId → Body S A V} {res : Exit RuntimeError ContextId} :
      Told (.direct seat label waker main next) res (.run seat (next res))

theorem Errand.Told.vigil (h : e.Told res k) : k.behind.vigil = false := by
  cases h with
  | submission hk | handover _ hk | unwinds hk => rw [hk]; rfl
  | direct => rfl

theorem Control.New.vigil (h : k.New) : k.behind.vigil = false := by
  rcases h with rfl | ⟨body, rfl⟩ <;> rfl

/-- A notified thread does not go on sleeping, unless it has something to tell first. -/
theorem Control.vigil_rouse (h : k.rouse.behind.vigil = true) : k.vigil = false ∧ k.behind.vigil = true := by
  cases k with
  | notify i n after => exact ⟨rfl, h⟩
  | awaiting aw phase => cases phase <;> cases h
  | idle seat deadline sleep => cases sleep <;> cases h
  | _ => cases h

namespace Machine

/-! ## The registry is left alone -/

@[simp] theorem registry_setControl (m : Machine S A V) (a : Agent) (k : Control S A V) :
    (m.setControl a k).registry = m.registry := rfl

@[simp] theorem registry_broadcast (m : Machine S A V) (g : CogId) :
    (m.broadcast g).registry = m.registry := by
  obtain ⟨_, _, h⟩ := m.broadcast_eq g
  rw [h]

@[simp] theorem registry_deliver (m : Machine S A V) (g : CogId) (n : Notice) :
    (m.deliver g n).registry = m.registry := by
  unfold deliver
  split <;> rfl

@[simp] theorem registry_strike (m : Machine S A V) (c : ContextId) :
    (m.strike c).registry = m.registry.strike c := by
  obtain ⟨_, h⟩ := m.strike_eq c
  rw [h]

@[simp] theorem registry_handedOver (m : Machine S A V) (a : Agent) (c : ContextId) (g : CogId)
    (aw : Awaiting S A V) : (m.handedOver a c g aw).registry = m.registry :=
  registry_broadcast m g

/-! ## What an action does to it -/

/-- Everybody else who waits until no context is live is notified if none is. -/
def Warns (m : Machine S A V) (a : Agent) (m' : Machine S A V) : Prop :=
  m'.registry.live = [] → ∀ b t, b ≠ a → m.threads.get? b = some t → t.control.vigil = true →
    m'.threads.get? b = some t.rouse

/-- What an action does to the registry, and which thread takes it if one does. -/
inductive Registers (m m' : Machine S A V) : Option Agent → Prop where
  /-- A thread that begins to wait until no context is live has found one that is. -/
  | keeps {actor : Option Agent} : m'.registry = m.registry →
      (∀ a t, actor = some a → m'.threads.get? a = some t → t.control.behind.vigil = true →
        (t.control.vigil = true ∧ m.registry.live ≠ []) ∨
          ∃ t₀ i n, m.threads.get? a = some t₀ ∧ t₀.control = .notify i n t.control) →
      (∀ a t c e, actor = some a → m.threads.get? a = some t → t.control ≠ .starting (.launch c) e) →
      Registers m m' actor
  | numbers {a : Agent} {t : Thread S A V} {e : Errand S A V} : m.threads.get? a = some t →
      t.control = .starting .check e → m.registry.shutdown = false →
      m'.registry = { m.registry with nextContext := m.registry.nextContext.next } →
      m'.threads.get? a =
        some { t with control := .starting (.register m.registry.nextContext) e } →
      Registers m m' (some a)
  | enters {a : Agent} {t : Thread S A V} {e : Errand S A V} (c : ContextId) :
      m.threads.get? a = some t → t.control = .starting (.register c) e →
      m'.registry = m.registry.enter c →
      m'.threads.get? a = some { t with control := .starting (.launch c) e } →
      Registers m m' (some a)
  /-- The context has its thread. -/
  | starts {a : Agent} {t : Thread S A V} {e : Errand S A V} {k : Control S A V} (c : ContextId) :
      m.threads.get? a = some t → t.control = .starting (.launch c) e →
      Registry.nameable (((m.contexts.get? c).map (·.name)).getD "") = true →
      m.registry.admits c = true → m'.registry = m.registry.countStarted →
      (m'.look (.context c)).isSome → m'.threads.get? a = some { t with control := k } →
      e.Told (.ok c) k → Registers m m' (some a)
  /-- The system panics over the name of the context, or does not grant it a thread. -/
  | fails {a : Agent} {t : Thread S A V} {e : Errand S A V} {k : Control S A V}
      {res : Exit RuntimeError ContextId} (c : ContextId) :
      m.threads.get? a = some t → t.control = .starting (.launch c) e →
      (Registry.nameable (((m.contexts.get? c).map (·.name)).getD "") = false ∧
          res = .panic Registry.namePanic) ∨
        (Registry.nameable (((m.contexts.get? c).map (·.name)).getD "") = true ∧
          m.registry.admits c = false ∧ res = .error (.spawn m.registry.refusal)) →
      m'.registry = m.registry.strike c → m'.threads.get? a = some { t with control := k } →
      e.Told res k → m.Warns a m' → Registers m m' (some a)
  | leaves {t : Thread S A V} (c : ContextId) : m.threads.get? (.context c) = some t →
      t.control = .leave → m'.registry = m.registry.strike c →
      m'.threads.get? (.context c) = none → m.Warns (.context c) m' →
      Registers m m' (some (.context c))
  | closes {a : Agent} {t : Thread S A V} {seat : Option Seat} {next : Body S A V} :
      m.threads.get? a = some t → (∀ c e, t.control ≠ .starting (.launch c) e) →
      m.registry.shutdown = false → m'.registry = { m.registry with shutdown := true } →
      m'.threads.get? a = some { t with control := .sweep seat next } → Registers m m' (some a)
  | released : m'.registry = { m.registry with held := false } → Registers m m' none

/-! ## One function at a time -/

section
variable (ho : m.Ordered) (hl : m.look a = some (own, e.stance stage))
include ho hl

/-- The start has failed: the thread goes on, and is told so. -/
theorem told_failed (m₁ : Machine S A V) (err : RuntimeError) :
    ∃ m₂ k, m₁.startFailed a own err e = m₂.setControl a k ∧ e.Told (.error err) k ∧
      m₂.registry = m₁.registry ∧ m₂.contexts = m₁.contexts ∧ ∀ b, m₁.Stirred m₂ b := by
  cases e with
  | submission seat g view next => exact ⟨_, _, rfl, .submission rfl, rfl, rfl, fun b => .same rfl⟩
  | handover aw =>
    obtain ⟨g, c, -, rfl, rfl, -⟩ := ho.home_of_hosts hl rfl
    let m₂ := m₁.report (.queueNotStarted (((m₁.cogs.get? g).map (·.name)).getD "") err)
    have calm : Calm m₁ (m₂.broadcast g) := .broadcast (.same rfl rfl)
    refine ⟨_, _, rfl, .handover (by simp) (behind_announce ..), registry_broadcast m₂ g, ?_,
      fun b => (Stirred.broadcast (show m₁.Stirred m₂ b from .same rfl)).trans (.same rfl)⟩
    exact congrArg (fun outside => outside.2.2.1) calm.outside
  | direct seat label waker main next => exact ⟨_, _, rfl, .direct, rfl, rfl, fun b => .same rfl⟩

theorem told_unwound (m₁ : Machine S A V) (p : Payload) :
    ∃ m₂ k, m₁.startUnwound a own p e = m₂.setControl a k ∧ e.Told (.panic p) k ∧
      m₂.registry = m₁.registry ∧ ∀ b, m₁.Stirred m₂ b := by
  cases e with
  | submission seat g view next => exact ⟨_, _, rfl, .submission rfl, rfl, fun b => .same rfl⟩
  | handover aw =>
    obtain ⟨g, c, -, rfl, rfl, -⟩ := ho.home_of_hosts hl rfl
    exact ⟨_, _, rfl, .unwinds rfl, rfl, fun b => .same rfl⟩
  | direct seat label waker main next => exact ⟨_, _, rfl, .direct, rfl, fun b => .same rfl⟩

theorem told_succeeded (m₁ : Machine S A V) (d : ContextId) :
    ∃ m₂ k, m₁.startSucceeded a own d e = m₂.setControl a k ∧ e.Told (.ok d) k ∧
      m₂.registry = m₁.registry ∧ ∀ b, m₁.Stirred m₂ b := by
  cases e with
  | submission seat g view next =>
    have told (b : Agent) : m₁.Stirred ((m₁.onScheduler g (·.grant d)).broadcast g) b :=
      .broadcast (.same rfl)
    exact ⟨_, _, rfl, .submission (behind_announce ..), registry_broadcast _ g,
      fun b => (told b).trans (.same rfl)⟩
  | handover aw =>
    obtain ⟨g, c, -, rfl, rfl, -⟩ := ho.home_of_hosts hl rfl
    have told (b : Agent) : m₁.Stirred ((m₁.onScheduler g (·.grant d)).broadcast g) b :=
      .broadcast (.same rfl)
    exact ⟨_, _, rfl, .handover (by simp) (behind_announce ..), registry_broadcast _ g,
      fun b => (told b).trans (.same rfl)⟩
  | direct seat label waker main next => exact ⟨_, _, rfl, .direct, rfl, fun b => .same rfl⟩

end

/-- Who waits until no context is live, and is told as the last entry goes. -/
theorem warns_strike (m₁ : Machine S A V) (same : m₁.registry.live = m.registry.live)
    (hb : ∀ b, b ≠ a → m₁.threads.get? b = m.threads.get? b) (hm : ∀ b, b ≠ a → (m₁.strike c).Stirred m' b)
    (hr : m'.registry = m.registry.strike c) : m.Warns a m' := by
  intro none b t hba ht vigil
  have sleeps : t.sleepsOn b .idle = true := by
    cases hk : t.control with
    | idle => simp [Thread.sleepsOn, hk]
    | _ =>
      rw [hk] at vigil
      cases vigil
  have empty : (m₁.registry.strike c).live.isEmpty = true := by
    rw [hr] at none
    simpa [Registry.strike, same] using none
  obtain ⟨p, hp⟩ := hm b hba
  rw [thread_strike, hb b hba, ht] at hp
  cases p <;> simpa [empty, sleeps] using hp

namespace Registers

/-- The thread goes on, and no context is started. -/
theorem calm (ht : m.threads.get? a = some t) (hs : ∀ c e, t.control ≠ .starting (.launch c) e)
    (hr : m₁.registry = m.registry) (hk : k.behind.vigil = false) :
    Registers m (m₁.setControl a k) (some a) := by
  refine .keeps hr ?_ ?_
  · intro b t' hb ht' vigil
    cases hb
    rw [thread_setControl, if_pos rfl] at ht'
    obtain ⟨t₁, -, rfl⟩ := Option.map_eq_some_iff.mp ht'
    rw [hk] at vigil
    cases vigil
  · intro b t' c e hb ht'
    cases hb
    cases ht.symm.trans ht'
    exact hs c e

/-- The thread ends, and is no context. -/
theorem departs (ht : m.threads.get? a = some t) (hs : ∀ c e, t.control ≠ .starting (.launch c) e)
    (hr : m'.registry = m.registry) (gone : m'.threads.get? a = none) : Registers m m' (some a) := by
  refine .keeps hr ?_ ?_
  · intro b t' hb ht'
    cases hb
    cases gone.symm.trans ht'
  · intro b t' c e hb ht'
    cases hb
    cases ht.symm.trans ht'
    exact hs c e

theorem announceEnd {outcome : TaskOutcome} {view : Option TaskView} (ht : m.threads.get? a = some t)
    (hs : ∀ c e, t.control ≠ .starting (.launch c) e) (hr : m₁.registry = m.registry)
    (hk : k.behind.vigil = false) : Registers m (m₁.announceEnd a g outcome view k) (some a) := by
  have behind : (announce g (.finished outcome) view k).behind.vigil = false := by
    rwa [behind_announce]
  unfold Machine.announceEnd
  cases view with
  | none => exact calm ht hs hr behind
  | some v =>
    have same : (m₁.notifyAll (.task g v.id)).registry = m.registry := hr
    exact calm ht hs same behind

end Registers

theorem registers_start (ho : m.Ordered) (ht : m.threads.get? a = some t)
    (hk : t.control = .starting stage e) (h : m.StartStep a t.cog e stage m') : Registers m m' (some a) := by
  have hl : m.look a = some (t.cog, e.stance stage) := look_starting m a ht hk
  -- A start that fails strikes the entry off before the thread is told.
  have fails {c : ContextId} {m₂ : Machine S A V} {k : Control S A V} {res : Exit RuntimeError ContextId}
      (hs : stage = .launch c)
      (hres : (Registry.nameable (((m.contexts.get? c).map (·.name)).getD "") = false ∧
          res = .panic Registry.namePanic) ∨
        (Registry.nameable (((m.contexts.get? c).map (·.name)).getD "") = true ∧
          m.registry.admits c = false ∧ res = .error (.spawn m.registry.refusal)))
      (told : e.Told res k) (hr : m₂.registry = (m.strike c).registry)
      (hm : ∀ b, (m.strike c).Stirred m₂ b) : Registers m (m₂.setControl a k) (some a) := by
    have struck : m₂.registry = m.registry.strike c := by rw [hr, registry_strike]
    refine .fails c ht (hs ▸ hk) hres struck (thread_set _ ht ((Stirred.same rfl).strike.trans (hm a))) told ?_
    exact warns_strike m rfl (fun b _ => rfl) (fun b hb => (hm b).setControl hb) struck
  cases h with
  | closed =>
    obtain ⟨m₂, k, he, told, registry, -⟩ := told_failed ho hl m .shutDown
    rw [he]
    exact .calm ht (by simp [hk]) registry told.vigil
  | numbers opened => exact .numbers ht hk opened rfl (thread_set _ ht (.same rfl))
  | enters => exact .enters _ ht hk rfl (thread_set _ ht (.same rfl))
  | @panics c unnameable =>
    obtain ⟨m₂, k, he, told, registry, hm⟩ := told_unwound ho hl (m.strike c) Registry.namePanic
    rw [he]
    exact fails rfl (.inl ⟨unnameable, rfl⟩) told registry hm
  | @refused c nameable refused =>
    obtain ⟨m₂, k, he, told, registry, -, hm⟩ := told_failed ho hl (m.strike c) (.spawn m.registry.refusal)
    rw [he]
    exact fails rfl (.inr ⟨nameable, refused, rfl⟩) told registry hm
  | @granted c nameable granted =>
    have absent := ho.unlaunched hl (e.stage?_stance _)
    have hca : Agent.context c ≠ a := fun h => by simp [← h, absent] at hl
    let m₁ : Machine S A V := { m with
      threads := m.threads.put (.context c) (m.newcomer t.cog e).2.2
      registry := m.registry.countStarted }
    obtain ⟨m₂, k, he, told, registry, hm⟩ := told_succeeded ho hl m₁ c
    have here : m₁.threads.get? a = some t := by
      show (m.threads.put (.context c) (m.newcomer t.cog e).2.2).get? a = some t
      rw [Table.get?_put, if_neg (Ne.symm hca), ht]
    have born : (m₁.look (.context c)).isSome := by simp [m₁, look]
    refine .starts c ht hk nameable granted ?_ ?_ ?_ told
    · exact (congrArg Machine.registry he).trans registry
    · show ((m₁.startSucceeded a t.cog c e).look (.context c)).isSome
      rw [he, look_setControl, if_neg hca, (hm _).look]
      exact born
    · show (m₁.startSucceeded a t.cog c e).threads.get? a = some { t with control := k }
      rw [he]
      exact thread_set k here (hm a)

theorem registers_await (ht : m.threads.get? (.context c) = some t) {x : Cog S A V} {aw : Awaiting S A V}
    {phase : Phase S} (hk : t.control = .awaiting aw phase) (h : m.AwaitStep c g x aw phase m') :
    Registers m m' (some (.context c)) := by
  cases h with
  | handsOver => exact .calm ht (by simp [hk]) (registry_broadcast _ g) (by rw [behind_announce]; rfl)
  | marks | returns | resumes | fails => exact .calm ht (by simp [hk]) rfl (by rw [behind_announce]; rfl)
  | aborts | abandons => exact .announceEnd ht (by simp [hk]) rfl rfl
  | _ => exact .calm ht (by simp [hk]) rfl rfl

theorem registers_leave (ht : m.threads.get? (.context c) = some t) (hk : t.control = .leave) :
    Registers m ({ m with threads := m.threads.remove (.context c) }.strike c) (some (.context c)) := by
  let m₁ : Machine S A V := { m with threads := m.threads.remove (.context c) }
  have removed (b : Agent) (hb : b ≠ .context c) : m₁.threads.get? b = m.threads.get? b := by
    show (m.threads.remove (.context c)).get? b = _
    rw [Table.get?_remove, if_neg hb]
  refine .leaves c ht hk (registry_strike m₁ c) ?_ ?_
  · show (m₁.strike c).threads.get? (.context c) = none
    rw [thread_strike]
    simp [m₁]
  · exact warns_strike m₁ rfl removed (fun b _ => .same rfl) (registry_strike m₁ c)

theorem registers_step (ho : m.Ordered) (h : m.step a = some m') : Registers m m' (some a) := by
  obtain ⟨t, ht, took⟩ := step_cases h
  generalize hk : t.control = control at took
  have go {m₁ : Machine S A V} {k : Control S A V} (hs : ∀ c e, control ≠ .starting (.launch c) e)
      (hr : m₁.registry = m.registry) (hv : k.behind.vigil = false) :
      Registers m (m₁.setControl a k) (some a) := .calm ht (hk ▸ hs) hr hv
  cases took with
  | runs took => cases took with
    | quits => exact .departs ht (by simp [hk]) rfl (Table.get?_remove_self ..)
    | closes opened => exact .closes ht (by simp [hk]) opened rfl (thread_set _ ht (.same rfl))
    | _ => exact go (by simp) rfl rfl
  | joins => exact go (by simp) (registry_broadcast ..) (by rw [behind_announce]; rfl)
  | starts took => exact registers_start ho ht hk took
  | awaits ha _ _ took =>
    subst ha
    exact registers_await ht hk took
  | retires => exact go (by simp) (registry_broadcast ..) rfl
  | completes | strands => exact .announceEnd ht (by simp [hk]) (registry_broadcast ..) rfl
  | leaves ha =>
    subst ha
    exact registers_leave ht hk
  | departs => exact .departs ht (by simp [hk]) rfl (Table.get?_remove_self ..)
  | tells =>
    refine .keeps (registry_deliver ..) ?_ ?_
    · intro b t' hb ht' _
      cases hb
      cases ht'.symm.trans (thread_set _ ht (.same (threads_deliver ..)))
      exact .inr ⟨t, _, _, ht, hk⟩
    · intro b t' c e hb ht'
      cases hb
      cases ht.symm.trans ht'
      simp [hk]
  | sends took =>
    have still : ∀ c e, t.control ≠ .starting (.launch c) e := by simp [hk]
    cases took <;> exact .calm ht still rfl rfl
  | idles turn =>
    refine .keeps rfl (fun b t' hb ht' _ => ?_) ?_
    · cases hb
      cases ht'.symm.trans (thread_set _ ht (.same rfl))
      exact .inl ⟨rfl, by simpa using boundedTurn_sleeps turn⟩
    · intro b t' c e hb ht'
      cases hb
      cases ht.symm.trans ht'
      simp [hk]
  | _ => exact go (by simp) rfl rfl

theorem registers_act (ho : m.Ordered) (ha : m.act act = some m') : Registers m m' act.actor? := by
  have calm {m₁ : Machine S A V} (hr : m₁.registry = m.registry) : Registers m m₁ none :=
    .keeps hr (fun _ _ h => by cases h) fun _ _ _ _ h => by cases h
  cases act with
  | step a => exact registers_step ho ha
  | release =>
    cases ha
    exact .released rfl
  | count n =>
    simp only [Machine.act] at ha
    split at ha <;> cases ha
    exact calm rfl
  | _ =>
    cases ha
    exact calm rfl

end Machine

end ObjectGroups
