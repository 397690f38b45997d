/-
What threads are about to send.

Whoever interrupts a context first raises its flag and then wakes whom the
context may sleep with, which for one that hosts tasks is the scheduler of its
cog. Between the two anything may happen. But the wake-up is on its way by
then: among what a thread has still to send, an interrupt of a context of a
cog is followed by a wake-up of the scheduler of that cog (`Addressed`).
-/
import ObjectGroups.Proofs.Interrupts

namespace ObjectGroups

variable {S A V : Type} {m m' m₁ : Machine S A V} {a b : Agent} {g : CogId} {c : ContextId}
  {own : Option CogId} {s : Stance} {k : Control S A V} {actor : Option Agent}
  {move : Action S A V} {signals : List Signal}

open Machine

/-- The signals that a thread has still to send, maybe after it has told the listeners. -/
def Control.pending (k : Control S A V) : List Signal := k.behind.signals

@[simp] theorem Control.pending_rouse (k : Control S A V) : k.rouse.pending = k.pending := by
  cases k with
  | awaiting aw p => cases p <;> rfl
  | _ => rfl

@[simp] theorem Machine.pending_announce (kind : NoticeKind) (view : Option TaskView) :
    (announce g kind view k).pending = k.pending := by
  simp [Control.pending]

theorem Control.New.pending (h : k.New) : k.pending = [] := by
  rcases h with rfl | ⟨body, rfl⟩ <;> rfl

namespace Machine

/-- The signals that the thread `a` has still to send. -/
def pending (m : Machine S A V) (a : Agent) : List Signal :=
  ((m.threads.get? a).map (·.control.pending)).getD []

theorem pending_eq {t : Thread S A V} (ht : m.threads.get? a = some t) :
    m.pending a = t.control.pending := by
  simp [pending, ht]

theorem pending_of_signals {first : Signal} (h : m.signals a = first :: signals) :
    m.pending a = first :: signals := by
  cases ht : m.threads.get? a with
  | none => simp [Machine.signals, ht] at h
  | some t =>
    rw [signals_eq ht] at h
    rw [pending_eq ht]
    cases hk : t.control with
    | signal seat signals next => rwa [hk] at h
    | _ =>
      rw [hk] at h
      cases h

theorem pending_of_new (h : ∀ t, m.threads.get? a = some t → t.control.New) : m.pending a = [] := by
  cases ht : m.threads.get? a with
  | none => simp [pending, ht]
  | some t => rw [pending_eq ht, (h t ht).pending]

theorem Stirred.pending (h : m.Stirred m' b) : m'.pending b = m.pending b := by
  obtain ⟨p, hp⟩ := h
  unfold Machine.pending
  rw [hp]
  cases m.threads.get? b with
  | none => rfl
  | some t => cases p <;> simp

end Machine

/-- Who does not act is at most notified, or is new. -/
theorem Shift.apart (h : Shift m m' actor) (other : actor ≠ some b) :
    m.Stirred m' b ∨ ∀ t, m'.threads.get? b = some t → t.control.New := by
  have ne {a : Agent} (ha : actor = some a) : b ≠ a := by
    rintro rfl
    exact other ha
  have births {a : Agent} {own : Option CogId} {s s' : Stance} {d : ContextId} {cog : Option CogId} {first : Stance}
      (ha : actor = some a) (hb : Births m a own s s' d cog first m') :
      m.Stirred m' b ∨ ∀ t, m'.threads.get? b = some t → t.control.New := by
    by_cases hd : b = .context d
    · exact .inr (hd ▸ hb.new)
    · exact .inl (hb.others b (ne ha) hd)
  cases h with
  | quiet ht => exact .inl (ht.others b (ne rfl))
  | deed ht => exact .inl (ht.others b (ne rfl))
  | allocate ht => exact .inl (ht.others b (ne rfl))
  | letter ht => exact .inl (ht.others b (ne rfl))
  | birth hb => exact births rfl hb
  | launch hb => exact births rfl hb
  | gone _ _ _ others => exact .inl (others b (ne rfl))
  | arrive _ others _ _ new =>
    by_cases hn : b = .caller m.nextCaller
    · exact .inr (hn ▸ new)
    · exact .inl (others b hn)
  | found _ _ others => exact .inl (others b)
  | furnish ht => exact .inl (.same ht)
  | rest others => exact .inl (others b)

/-- Only who acts makes up its mind to send something. -/
theorem Shift.pending (h : Shift m m' actor) (other : actor ≠ some b) :
    m'.pending b = m.pending b ∨ m'.pending b = [] := by
  rcases h.apart other with stirred | new
  · exact .inl stirred.pending
  · exact .inr (pending_of_new new)

/-! ## Who makes up its mind to send what -/

namespace Machine

/-- What a thread can make up its mind to send. -/
inductive Sends (m : Machine S A V) : List Signal → Prop where
  | wakes (ws : List Waker) : m.Sends (ws.map .wake)
  | interrupts (cs : List ContextId) : m.Sends (cs.flatMap m.interruption)
  /-- A body interrupts a parker that it can get hold of. -/
  | lent (p : ParkerId) : m.lends p = true → m.Sends [.interrupt p]

/-- What a step does to what the thread has still to send. -/
inductive Intent (m : Machine S A V) (a : Agent) (m' : Machine S A V) : Prop where
  | tells : m'.pending a = m.pending a → Intent m a m'
  | sent (first : Signal) : m.pending a = first :: m'.pending a → Intent m a m'
  | decides : m.Sends (m'.pending a) → Intent m a m'

theorem pending_setControl (m : Machine S A V) (a : Agent) (k : Control S A V) :
    (m.setControl a k).pending a = k.pending ∨ (m.setControl a k).pending a = [] := by
  unfold pending
  rw [thread_setControl, if_pos rfl]
  cases m.threads.get? a with
  | none => exact .inr rfl
  | some t => exact .inl rfl

namespace Intent

theorem none (h : m'.pending a = []) : Intent m a m' := by
  refine .decides ?_
  rw [h]
  exact .wakes []

theorem set (h : m.Sends k.pending) : Intent m a (m₁.setControl a k) := by
  rcases pending_setControl m₁ a k with e | e
  · exact .decides (e ▸ h)
  · exact none e

/-- The thread goes on without anything to send. -/
theorem silent (h : k.pending = []) : Intent m a (m₁.setControl a k) := by
  refine set ?_
  rw [h]
  exact .wakes []

theorem announceEnd {outcome : TaskOutcome} {view : Option TaskView} (h : k.pending = []) :
    Intent m a (m₁.announceEnd a g outcome view k) := by
  unfold Machine.announceEnd
  exact silent (by simp [h])

end Intent

theorem intent_body {own : Option CogId} {seat : Option Seat} {b : Body S A V}
    (h : m.BodyStep a own seat b m') : Intent m a m' := by
  have one (c : ContextId) : m.Sends (m.interruption c) := by simpa using Sends.interrupts (m := m) [c]
  cases h with
  | quits => exact .none (by simp [pending])
  | resolves => exact .set (.wakes _)
  | interrupts | cancels => exact .set (one _)
  | raises lent => exact .set (.lent _ lent)
  | @wakes w => exact .set (.wakes [w])
  | _ => exact .silent rfl

theorem intent_start (ho : m.Ordered) {own : Option CogId} {stage : Stage} {e : Errand S A V}
    (hl : m.look a = some (own, e.stance stage)) (h : m.StartStep a own e stage m') : Intent m a m' := by
  have waits {m₁ : Machine S A V} {c : ContextId} {g : CogId} {aw : Awaiting S A V} :
      Intent m a (m₁.handedOver a c g aw) := .silent (by simp; rfl)
  have failed {m₁ : Machine S A V} {err : RuntimeError} : Intent m a (m₁.startFailed a own err e) := by
    cases e with
    | handover aw =>
      obtain ⟨g, c, -, rfl, rfl, -⟩ := ho.home_of_hosts hl rfl
      exact waits
    | _ => exact .silent rfl
  cases h with
  | closed | refused => exact failed
  | numbers | enters => exact .silent rfl
  | panics => cases e with
    | handover aw =>
      obtain ⟨g, c, -, rfl, rfl, -⟩ := ho.home_of_hosts hl rfl
      exact .silent rfl
    | _ => exact .silent rfl
  | granted => cases e with
    | handover aw =>
      obtain ⟨g, c, -, rfl, rfl, -⟩ := ho.home_of_hosts hl rfl
      exact waits
    | submission seat g view next => exact .silent (by simp; rfl)
    | direct seat label waker main next => exact .silent rfl

theorem intent_await {c : ContextId} {x : Cog S A V} {aw : Awaiting S A V} {phase : Phase S}
    (h : m.AwaitStep c g x aw phase m') : Intent m (.context c) m' := by
  cases h with
  | handsOver | marks | returns | resumes | fails => exact .silent (by simp; rfl)
  | aborts | abandons => exact .announceEnd rfl
  | _ => exact .silent rfl

theorem intent_signal {t : Thread S A V} {seat : Option Seat} {next : Body S A V}
    (ht : m.threads.get? a = some t) (hk : t.control = .signal seat signals next)
    (h : m.SignalStep a seat next signals m') : Intent m a m' := by
  have before : m.pending a = signals := by
    rw [pending_eq ht, hk]
    rfl
  have done {m₁ : Machine S A V} {first : Signal} {rest : List Signal} (hs : signals = first :: rest) :
      Intent m a (m₁.setControl a (.signal seat rest next)) := by
    rcases pending_setControl m₁ a (.signal seat rest next) with e | e
    · exact .sent first (by rw [before, hs, e]; rfl)
    · exact .none e
  cases h with
  | through => exact .silent rfl
  | _ => exact done rfl

theorem intent_step (ho : m.Ordered) (h : m.step a = some m') : Intent m a m' := by
  obtain ⟨t, ht, took⟩ := step_cases h
  have hl := look_eq m a ht
  generalize hk : t.control = k at hl took
  cases took with
  | runs took => exact intent_body took
  | joins => exact .silent (by simp; rfl)
  | starts took => exact intent_start ho hl took
  | awaits ha _ _ took =>
    subst ha
    exact intent_await took
  | completes | strands => exact .announceEnd rfl
  | leaves =>
    refine .none ?_
    rw [pending, thread_strike]
    simp [*]
  | departs => exact .none (by simp [pending])
  | @tells g n after =>
    rcases pending_setControl (m.deliver g n) a after with e | e
    · refine .tells ?_
      rw [e, pending_eq ht, hk]
      rfl
    · exact .none e
  | sends took => exact intent_signal ht hk took
  | sweeps => exact .set (.interrupts _)
  | _ => exact .silent rfl

/-! ## Where interrupts go -/

/-- Behind an interrupt of a context of a cog comes a wake-up of the scheduler of that cog. -/
def Backed (m : Machine S A V) : List Signal → Prop
  | [] => True
  | first :: rest =>
    (∀ c, first = .interrupt (.own c) →
      ∃ y, m.contexts.get? c = some y ∧ ∀ g, y.cog = some g → .wake (.scheduler g) ∈ rest) ∧
    m.Backed rest

theorem Backed.mono (h : m.Backed signals)
    (hc : ∀ c y, m.contexts.get? c = some y → m'.contexts.get? c = some y) : m'.Backed signals := by
  induction signals with
  | nil => trivial
  | cons first rest ih =>
    refine ⟨fun c e => ?_, ih h.2⟩
    obtain ⟨y, hy, wakes⟩ := h.1 c e
    exact ⟨y, hc c y hy, wakes⟩

/-- Interrupts are sent to contexts that are entered, and to their cogs. -/
structure Addressed (m : Machine S A V) : Prop where
  numbered {c : ContextId} {y : Context} : m.contexts.get? c = some y →
    c.val < m.registry.nextContext.val
  /-- A context is entered once. -/
  once {c : ContextId} {y : Context} {a : Agent} {own : Option CogId} {s : Stance} :
    m.contexts.get? c = some y → m.look a = some (own, s) → s.stage? ≠ some (.register c)
  waker {c : ContextId} {y : Context} {g : CogId} : m.contexts.get? c = some y → y.cog = some g →
    y.waker = .scheduler g
  backed (a : Agent) : m.Backed (m.pending a)

/-- Whatever a thread makes up its mind to send, its interrupts are backed. -/
theorem Sends.backed (h : m.Sends signals) (addressed : m.Addressed) : m.Backed signals := by
  cases h with
  | wakes ws =>
    induction ws with
    | nil => trivial
    | cons w ws ih => exact ⟨nofun, ih⟩
  | interrupts cs =>
    induction cs with
    | nil => trivial
    | cons c cs ih =>
      rw [List.flatMap_cons, interruption]
      cases hy : m.contexts.get? c with
      | none => exact ih
      | some y =>
        show m.Backed (.interrupt (.own c) :: .wake y.waker :: cs.flatMap m.interruption)
        refine ⟨fun d e => ?_, nofun, ih⟩
        cases e
        exact ⟨y, hy, fun g hg => by simp [addressed.waker hy hg]⟩
  | lent p hp =>
    refine ⟨fun c e => ?_, trivial⟩
    cases e
    unfold lends at hp
    cases hy : m.contexts.get? c with
    | none => simp [hy] at hp
    | some y => exact ⟨y, rfl, fun g hg => by simp [hy, hg] at hp⟩

theorem addressed_empty (r : Registry) (memory : A) :
    (Machine.empty r memory : Machine S A V).Addressed where
  numbered h := by cases h
  once h := by cases h
  waker h := by cases h
  backed a := trivial

namespace Addressed

variable (h : m.Addressed) (ho : m.Ordered) (ha : m.act move = some m')
include h ho ha

/-- The entry of a context stays. -/
theorem kept {y : Context} (hy : m.contexts.get? c = some y) : m'.contexts.get? c = some y := by
  have entries := (aside_act ho ha).entries
  generalize move.actor? = actor at entries
  cases entries with
  | same e => rw [e, hy]
  | strike d e => rw [e, hy]
  | enter d name waker hl hs _ e =>
    have hdc : c ≠ d := by
      rintro rfl
      exact h.once hy hl hs
    rw [e, Table.get?_put, if_neg hdc, hy]

theorem act : m'.Addressed := by
  have ho' := ho.act ha
  have shift := shift_act ho ha
  have aside := aside_act ho ha
  -- An entry is an old one, or that of the context that has just been entered.
  have entry {c : ContextId} {y : Context} (hy : m'.contexts.get? c = some y) :
      m.contexts.get? c = some y ∨ ∃ a own s, m.look a = some (own, s) ∧
        s.stage? = some (.register c) ∧ (∀ g, y.cog = some g → y.waker = .scheduler g) ∧
          m'.look a = some (own, s.restage (.launch c)) := by
    have entries := aside.entries
    generalize move.actor? = actor at entries
    cases entries with
    | same e => exact .inl (e ▸ hy)
    | strike d e => exact .inl (e ▸ hy)
    | enter d name waker hl hs _ e _ hw hl' =>
      rw [e, Table.get?_put] at hy
      split at hy
      · next hdc =>
        subst hdc
        cases hy
        exact .inr ⟨_, _, _, hl, hs, hw, hl'⟩
      · exact .inl hy
  constructor
  case numbered =>
    intro c y hy
    have issued := shift.issues.context
    rcases entry hy with hy | ⟨a, own, s, hl, hs, -⟩
    · exact Nat.lt_of_lt_of_le (h.numbered hy) issued
    · obtain ⟨numbered, -⟩ := ho.newcomer hl (s.newcomer?_stage.mpr (.inl hs))
      exact Nat.lt_of_lt_of_le numbered issued
  case once =>
    intro c y b own s hy hl hs
    rcases entry hy with hy | ⟨a, own₀, s₀, -, hs₀, -, hl'⟩
    · rcases shift.stage hl hs with ⟨s₀, hl₀, hs₀ | ⟨d, e, -⟩⟩ | e | e
      · exact h.once hy hl₀ hs₀
      · cases e
      · cases e
      · cases e
        exact Nat.lt_irrefl _ (h.numbered hy)
    · have launches := s₀.stage?_restage (.launch c) hs₀
      obtain ⟨-, -, unique⟩ := ho'.newcomer hl' (Stance.newcomer?_stage _ |>.mpr (.inr launches))
      have same := unique b own s hl (s.newcomer?_stage.mpr (.inl hs))
      subst same
      cases hl.symm.trans hl'
      rw [launches] at hs
      cases hs
  case waker =>
    intro c y g hy hg
    rcases entry hy with hy | ⟨a, own, s, -, -, waker, -⟩
    · exact h.waker hy hg
    · exact waker g hg
  case backed =>
    intro a
    have old (e : m'.pending a = m.pending a) : m'.Backed (m'.pending a) := by
      rw [e]
      exact (h.backed a).mono fun c y => h.kept ho ha
    by_cases hact : move.actor? = some a
    · obtain rfl := Action.step_of_actor hact
      cases intent_step ho ha with
      | tells e => exact old e
      | sent first e =>
        have before := h.backed a
        rw [e] at before
        exact before.2.mono fun c y => h.kept ho ha
      | decides sends => exact (sends.backed h).mono fun c y => h.kept ho ha
    · rcases shift.pending hact with e | e
      · exact old e
      · rw [e]
        trivial

/-- Who interrupts a context has it in the books, and a wake-up of its cog under way. -/
theorem sends (hi : (⟨m, move, m'⟩ : Move S A V).interrupts? = some c) :
    ∃ y, m.contexts.get? c = some y ∧ ∀ g, y.cog = some g → m'.Ringing (.scheduler g) := by
  obtain ⟨a, rest, hact, signals⟩ := Move.interrupts?_eq hi
  have backed := h.backed a
  rw [pending_of_signals signals] at backed
  obtain ⟨y, hy, wakes⟩ := backed.1 c rfl
  refine ⟨y, hy, fun g hg => ⟨a, ?_⟩⟩
  rcases (aside_act ho ha).signals a hact with none | ⟨first, rest', before, after, -⟩
  · rw [none] at signals
    cases signals
  · cases signals.symm.trans before
    rw [after]
    exact wakes g hg

end Addressed

theorem Reachable.addressed {r : Registry} {memory : A} (h : Reachable (.empty r memory) m) :
    m.Addressed := by
  induction h with
  | refl => exact addressed_empty r memory
  | act h ha ih => exact ih.act h.ordered ha

end Machine

end ObjectGroups
