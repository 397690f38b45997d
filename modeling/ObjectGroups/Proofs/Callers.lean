/-
What those who call the registry are told.

A start is told what the system makes of it, or that the registry is closed. An
interrupt is told whether its context is live; it then raises the flag of that
context and of no other, and the flag stays up as long as the context is live.
Who waits until no context is live is blocked only while one is, and as long as
its deadline is to come.
-/
import ObjectGroups.Proofs.Closing
import ObjectGroups.Proofs.Registration

namespace ObjectGroups

variable {S A V : Type} {m m' : Machine S A V} {a b : Agent} {c d : ContextId}
  {own : Option CogId} {s : Stance} {move : Action S A V} {moves : List (Move S A V)}
  {v : Move S A V} {t : Thread S A V} {e : Errand S A V} {r : Registry} {memory : A}

open Machine

/-! ## Waiting until no context is live -/

/-- Who sleeps until no context is live does so while one is. -/
def Machine.Watched (m : Machine S A V) : Prop := ∀ a t, m.threads.get? a = some t →
  t.control.behind.vigil = true → t.control.vigil = true ∧ m.registry.live ≠ []

namespace Machine

/-- As long as a context is live those who sleep may do so, and the last one that goes wakes them. -/
theorem Registers.wakes {actor : Option Agent} (h : Registers m m' actor) (some : m.registry.live ≠ [])
    (none : m'.registry.live = []) : ∃ a, actor = .some a ∧ m.Warns a m' := by
  cases h with
  | keeps same | numbers _ _ _ same | starts _ _ _ _ _ same | closes _ _ _ same | released same =>
    rw [same] at none
    exact absurd none some
  | enters c _ _ same =>
    rw [same] at none
    simp [Registry.enter] at none
  | fails c _ _ _ _ _ _ warns | leaves c _ _ _ _ warns => exact ⟨_, rfl, warns⟩

/-- The thread that acts sleeps afterwards only if it has just found a live context. -/
theorem Registers.watches (h : Registers m m' (some a)) (watched : m.Watched)
    (ht' : m'.threads.get? a = some t) (vigil : t.control.behind.vigil = true) :
    t.control.vigil = true ∧ m'.registry.live ≠ [] := by
  -- Otherwise it goes on with something else.
  have busy {t₁ : Thread S A V} {k : Control S A V} (hk : m'.threads.get? a = some { t₁ with control := k })
      (none : k.behind.vigil = false) : t.control.vigil = true ∧ m'.registry.live ≠ [] := by
    cases hk.symm.trans ht'
    rw [none] at vigil
    cases vigil
  cases h with
  | keeps same sleeps =>
    rcases sleeps a t rfl ht' vigil with ⟨asleep, some⟩ | ⟨t₀, i, n, ht, hk⟩
    · exact ⟨asleep, same ▸ some⟩
    · obtain ⟨awake, -⟩ := watched a t₀ ht (by rwa [hk])
      rw [hk] at awake
      cases awake
  | numbers _ _ _ _ hk | enters _ _ _ _ hk | closes _ _ _ _ hk => exact busy hk rfl
  | starts _ _ _ _ _ _ _ hk told | fails _ _ _ _ _ hk told => exact busy hk told.vigil
  | leaves c _ _ _ gone => cases gone.symm.trans ht'

theorem Watched.act (h : m.Watched) (ho : m.Ordered) (ha : m.act move = some m') : m'.Watched := by
  intro b t' ht' vigil
  have registers := registers_act ho ha
  by_cases acts : move.actor? = some b
  · rw [acts] at registers
    exact registers.watches h ht' vigil
  rcases (shift_act ho ha).apart acts with ⟨roused, hp⟩ | new
  · obtain ⟨t, ht⟩ : ∃ t, m.threads.get? b = some t := by
      cases ht : m.threads.get? b with
      | none => simp [ht, ht'] at hp
      | some t => exact ⟨t, rfl⟩
    rw [ht] at hp
    cases roused with
    | true =>
      -- A sleeper that is notified sleeps no longer, and others are not about to sleep.
      obtain rfl : t' = t.rouse := Option.some.inj (ht'.symm.trans hp)
      obtain ⟨awake, behind⟩ := Control.vigil_rouse vigil
      rw [(h b t ht behind).1] at awake
      cases awake
    | false =>
      obtain rfl : t' = t := Option.some.inj (ht'.symm.trans hp)
      obtain ⟨asleep, some⟩ := h b t' ht vigil
      refine ⟨asleep, fun none => ?_⟩
      obtain ⟨a, hact, warns⟩ := registers.wakes some none
      have woken := warns none b t' (by rintro rfl; exact acts hact) ht asleep
      have same : t'.control.rouse = t'.control := congrArg Thread.control (Option.some.inj (woken.symm.trans ht'))
      have awake := (Control.vigil_rouse (k := t'.control) (by rw [same]; exact vigil)).1
      rw [asleep] at awake
      cases awake
  · rw [(new t' ht').vigil] at vigil
    cases vigil

theorem Reachable.watched (h : Reachable (.empty r memory) m) : m.Watched := by
  induction h with
  | refl =>
    intro a t ht
    cases ht
  | act h ha ih => exact ih.act h.ordered ha

/-- Who waits until no context is live is blocked only while one is, and before its deadline. -/
theorem Watched.blocked (h : m.Watched) (ht : m.threads.get? a = some t) {seat : Option Seat}
    {deadline : Option Instant} {sleep : Sleep} {report : Option Span} {next : Bool → Body S A V}
    (hk : t.control = .idle seat deadline sleep report next) (blocked : m.step a = none) :
    m.registry.live ≠ [] ∧ Instant.due m.now deadline = false := by
  simp only [step, ht, hk] at blocked
  split at blocked
  · next stuck =>
    obtain ⟨rfl, ahead⟩ := boundedTurn_none stuck
    exact ⟨(h a t ht (by rw [hk]; rfl)).2, ahead⟩
  · cases blocked
  · cases blocked

/-! ## Starts -/

/-- What the system makes of the request for the thread of a context. -/
def grant (m : Machine S A V) (c : ContextId) : Exit RuntimeError ContextId :=
  if !Registry.nameable (((m.contexts.get? c).map (·.name)).getD "") then .panic Registry.namePanic
  else if !m.registry.admits c then .error (.spawn m.registry.refusal)
  else .ok c

end Machine

/-- In this move a start asks for the thread of the context, gets it and is told so. -/
def Move.Grants (v : Move S A V) (c : ContextId) : Prop := ∃ a t e k, v.act = .step a ∧
  v.before.threads.get? a = some t ∧ t.control = .starting (.launch c) e ∧ v.before.grant c = .ok c ∧
    v.after.threads.get? a = some { t with control := k } ∧ e.Told (.ok c) k

/-- In this move a start asks for the thread of the context and does not get it. Its entry is
struck off, and the start is told why. -/
def Move.Denies (v : Move S A V) (c : ContextId) : Prop := ∃ a t e k, v.act = .step a ∧
  v.before.threads.get? a = some t ∧ t.control = .starting (.launch c) e ∧
    (∀ d, v.before.grant c ≠ .ok d) ∧ v.after.threads.get? a = some { t with control := k } ∧
      e.Told (v.before.grant c) k ∧ v.after.registry = v.before.registry.strike c

namespace Machine

/-- Who asks for the thread of a context is told what comes of it. -/
theorem Reachable.grants_or_denies (h : Reachable (.empty r memory) m) (ha : m.act (.step a) = some m')
    (ht : m.threads.get? a = some t) (hk : t.control = .starting (.launch c) e) :
    ((⟨m, .step a, m'⟩ : Move S A V).Grants c ∧ (m'.look (.context c)).isSome) ∨
      ((⟨m, .step a, m'⟩ : Move S A V).Denies c ∧ m'.look (.context c) = none) := by
  have other {t₁ : Thread S A V} {P : Prop} (ht₁ : m.threads.get? a = some t₁)
      (hn : ∀ c e, t₁.control ≠ .starting (.launch c) e) : P := by
    cases ht.symm.trans ht₁
    exact absurd hk (hn c e)
  have registers : Registers m m' (some a) := registers_act h.ordered ha
  cases registers with
  | keeps _ _ hn => exact absurd hk (hn a t c e rfl ht)
  | numbers ht₁ hk₁ => exact other ht₁ (by simp [hk₁])
  | enters _ ht₁ hk₁ => exact other ht₁ (by simp [hk₁])
  | leaves _ ht₁ hk₁ => exact other ht₁ (by simp [hk₁])
  | closes ht₁ hn => exact other ht₁ hn
  | @starts _ t₁ e₁ k d ht₁ hk₁ nameable admitted _ born ht' told =>
    cases ht.symm.trans ht₁
    cases hk.symm.trans hk₁
    refine .inl ⟨⟨a, t, e, k, rfl, ht, hk, ?_, ht', told⟩, born⟩
    simp [grant, nameable, admitted]
  | @fails _ t₁ e₁ k res d ht₁ hk₁ why struck ht' told =>
    cases ht.symm.trans ht₁
    cases hk.symm.trans hk₁
    have verdict : m.grant c = res := by
      rcases why with ⟨unnameable, rfl⟩ | ⟨nameable, refused, rfl⟩
      · simp [grant, unnameable]
      · simp [grant, nameable, refused]
    have failed (d : ContextId) : m.grant c ≠ .ok d := by
      rw [verdict]
      rcases why with ⟨-, rfl⟩ | ⟨-, -, rfl⟩ <;> simp
    exact .inr ⟨⟨a, t, e, k, rfl, ht, hk, failed, ht', verdict ▸ told, struck⟩, h.struck ha struck⟩

/-- A start that finds the registry closed is told so, and has entered nothing. -/
theorem Ordered.refuses (ho : m.Ordered) (ha : m.act (.step a) = some m') (ht : m.threads.get? a = some t)
    (hk : t.control = .starting .check e) (closed : m.registry.shutdown = true) :
    m'.registry = m.registry ∧ m'.contexts = m.contexts ∧
      ∃ k, m'.threads.get? a = some { t with control := k } ∧ e.Told (.error .shutDown) k := by
  have hl : m.look a = some (t.cog, e.stance .check) := look_starting m a ht hk
  obtain ⟨m₂, k, he, told, registry, contexts, hm⟩ := told_failed ho hl m .shutDown
  have h : m.step a = some m' := ha
  simp only [step, ht, hk, stepStart, closed, if_true, he] at h
  cases h
  exact ⟨registry, contexts, k, thread_set k ht (hm a), told⟩

/-- A number is given out by a registry that is open. -/
theorem Ordered.issued?_open (ho : m.Ordered) (ha : m.act move = some m')
    (h : (⟨m, move, m'⟩ : Move S A V).issued? = some c) : m.registry.shutdown = false := by
  obtain ⟨rfl, onward⟩ := ho.issued?_next ha h
  have registers := registers_act ho ha
  generalize move.actor? = actor at registers
  have idle {P : Prop} (same : m'.registry.nextContext = m.registry.nextContext) : P := by
    rw [same] at onward
    exact absurd onward (Nat.lt_irrefl _)
  cases registers with
  | numbers _ _ opened => exact opened
  | keeps same | closes _ _ _ same | released same => exact idle (by rw [same])
  | enters _ _ _ same | starts _ _ _ _ _ same | fails _ _ _ _ same | leaves _ _ _ same =>
    exact idle (by rw [same]; rfl)

/-! ## Interrupts -/

/-- An interrupt finds a context that is live, and is about to raise its flag, or it finds none. -/
theorem Reachable.interrupts (h : Reachable (.empty r memory) m) (hr : r.live = [])
    (ha : m.act (.step a) = some m') (ht : m.threads.get? a = some t) {seat : Option Seat}
    {next : Bool → Body S A V} (hk : t.control = .run seat (.request (.interrupt c) next)) :
    m'.registry = m.registry ∧ m'.parkers = m.parkers ∧
      ((c ∈ m.registry.live ∧ ∃ y, m.contexts.get? c = some y ∧ m'.threads.get? a =
          some { t with control := .signal seat [.interrupt (.own c), .wake y.waker] (next true) }) ∨
        (c ∉ m.registry.live ∧ m'.threads.get? a = some { t with control := .run seat (next false) })) := by
  have step : m.step a = some m' := ha
  simp only [Machine.step, ht, hk, stepBody, stepRequest] at step
  split at step
  · next live =>
    have live : c ∈ m.registry.live := by simpa using live
    -- A live context has been entered as what it is.
    obtain ⟨own, entered⟩ : ∃ own, m.Entered c own := by
      rcases (h.live_iff hr).mp live with there | ⟨b, own, s, hl, launches⟩
      · obtain ⟨⟨own, s⟩, hl⟩ := Option.isSome_iff_exists.mp there
        exact ⟨own, (h.housed.thread hl).1⟩
      · exact ⟨_, h.housed.launch hl launches⟩
    obtain ⟨y, hy, -⟩ := entered.entry
    cases step
    refine ⟨rfl, rfl, .inl ⟨live, y, hy, ?_⟩⟩
    simpa [interruption, hy] using thread_set (m.interruption c |> fun ss => .signal seat ss (next true)) ht (.same rfl)
  · next gone =>
    cases step
    exact ⟨rfl, rfl, .inr ⟨by simpa using gone, thread_set _ ht (.same rfl)⟩⟩

/-- The flag of a context stays up as long as the context is live. -/
theorem Reachable.flag_stays (h : Reachable (.empty r memory) m) (hr : r.live = [])
    (ha : m.act move = some m') (live : c ∈ m.registry.live) (up : m.interrupted c = true) :
    m'.interrupted c = true := by
  refine interrupted_stays h.ordered ha (fun a own s hl registers => ?_) up
  obtain ⟨-, absent, unique⟩ := h.ordered.newcomer hl (s.newcomer?_stage.mpr (.inl registers))
  rcases (h.live_iff hr).mp live with there | ⟨b, own', s', hl', launches⟩
  · simp [absent] at there
  · obtain rfl := unique b own' s' hl' (s'.newcomer?_stage.mpr (.inr launches))
    cases hl.symm.trans hl'
    cases registers.symm.trans launches

end Machine

/-! ## Whole runs -/

/-- What a move is to those who call the registry. -/
structure Move.Answers (v : Move S A V) : Prop where
  /-- A context gets its thread just if a start that asks for it is told so. -/
  grants (c : ContextId) : v.spawned? = some c ↔ v.Grants c
  /-- Otherwise the start is told why, and its entry is struck off. -/
  denies {a : Agent} {t : Thread S A V} {c : ContextId} {e : Errand S A V} : v.act = .step a →
    v.before.threads.get? a = some t → t.control = .starting (.launch c) e → v.Grants c ∨ v.Denies c
  /-- A start that finds the registry closed is told so, and has entered nothing. -/
  refuses {a : Agent} {t : Thread S A V} {e : Errand S A V} : v.act = .step a →
    v.before.threads.get? a = some t → t.control = .starting .check e →
      v.before.registry.shutdown = true → v.after.registry = v.before.registry ∧
        v.after.contexts = v.before.contexts ∧ ∃ k, v.after.threads.get? a = some { t with control := k } ∧
          e.Told (.error .shutDown) k
  /-- Closed once, the registry stays so and gives out no numbers. -/
  closed : v.before.registry.shutdown = true → v.after.registry.shutdown = true ∧ v.issued? = none
  /-- An interrupt tells whether the context is live, and raises the flag of one that is. -/
  interrupts {a : Agent} {t : Thread S A V} {seat : Option Seat} {c : ContextId} {next : Bool → Body S A V} :
    v.act = .step a → v.before.threads.get? a = some t →
      t.control = .run seat (.request (.interrupt c) next) →
        v.after.registry = v.before.registry ∧ v.after.parkers = v.before.parkers ∧
          ((c ∈ v.before.registry.live ∧ ∃ y, v.before.contexts.get? c = some y ∧
              v.after.threads.get? a = some
                { t with control := .signal seat [.interrupt (.own c), .wake y.waker] (next true) }) ∨
            (c ∉ v.before.registry.live ∧
              v.after.threads.get? a = some { t with control := .run seat (next false) }))
  /-- Signals are what raises flags, each that of its own context. -/
  raised {c : ContextId} : v.after.interrupted c = true → v.before.interrupted c = true ∨ v.interrupts? = some c
  raises {c : ContextId} : v.interrupts? = some c → v.after.interrupted c = true
  stays {c : ContextId} : c ∈ v.before.registry.live → v.before.interrupted c = true → v.after.interrupted c = true

theorem Machine.Reachable.answers (h : Reachable (.empty r memory) m) (hr : r.live = [])
    (ha : m.act move = some m') : (⟨m, move, m'⟩ : Move S A V).Answers := by
  have ho : m.Ordered := h.ordered
  constructor
  case grants =>
    intro c
    constructor
    · intro hc
      obtain ⟨a, t, e, acts, ht, hk⟩ := ho.spawned?_launches ha hc
      obtain rfl := Action.step_of_actor acts
      rcases h.grants_or_denies ha ht hk with ⟨grants, -⟩ | ⟨-, absent⟩
      · exact grants
      · obtain ⟨-, born⟩ := (ho.spawned?_iff ha).mp hc
        simp [absent] at born
    · intro grants
      obtain ⟨a, t, e, k, rfl, ht, hk, verdict, -⟩ := id grants
      rcases h.grants_or_denies ha ht hk with ⟨-, born⟩ | ⟨⟨b, t', e', k', same, ht', hk', failed, -⟩, -⟩
      · have hl := look_eq m a ht
        rw [show t.control = .starting (.launch c) e from hk] at hl
        exact (ho.spawned?_iff ha).mpr ⟨ho.unlaunched hl (e.stage?_stance _), born⟩
      · exact absurd verdict (failed c)
  case denies =>
    intro a t c e hact ht hk
    cases hact
    exact (h.grants_or_denies ha ht hk).imp And.left And.left
  case refuses =>
    intro a t e hact ht hk closed
    cases hact
    exact ho.refuses ha ht hk closed
  case closed =>
    intro closed
    refine ⟨ho.closed ha closed, Option.eq_none_iff_forall_ne_some.mpr fun c hc => ?_⟩
    cases closed.symm.trans (ho.issued?_open ha hc)
  case interrupts =>
    intro a t seat c next hact ht hk
    cases hact
    exact h.interrupts hr ha ht hk
  case raised => exact Machine.raised ho ha
  case raises => exact Machine.interrupted_of_signal ha
  case stays => exact h.flag_stays hr ha

/-- Which contexts are live after a run, and how that has come about. `r` is the registry with
which the run begins. -/
structure Registration (r : Registry) (moves : List (Move S A V)) (m : Machine S A V) : Prop where
  /-- At rest the live contexts are those that have been started and whose body has not ended. -/
  live : m.Still → m.registry.live.Nodup ∧
    ∀ c, c ∈ m.registry.live ↔ c ∈ spawned moves ∧ c ∉ ended moves
  started : m.registry.started = r.started + (spawned moves).length
  ascending : (issued moves).Pairwise (·.val < ·.val) ∧ ∀ c ∈ issued moves, r.nextContext.val ≤ c.val
  once : (spawned moves).Nodup ∧ spawned moves ⊆ issued moves ∧ ended moves ⊆ spawned moves
  answers : ∀ v ∈ moves, v.Answers
  /-- Who waits until no context is live is blocked only while one is, and before its deadline. -/
  idle {a : Agent} {t : Thread S A V} {seat : Option Seat} {deadline : Option Instant} {sleep : Sleep}
    {report : Option Span} {next : Bool → Body S A V} : m.threads.get? a = some t →
      t.control = .idle seat deadline sleep report next → m.step a = none →
        m.registry.live ≠ [] ∧ Instant.due m.now deadline = false

/-- The registry knows which contexts are live, in every run. -/
theorem contexts_registered (r : Registry) (memory : A) (hr : r.live = [])
    (h : History (.empty r memory) moves m) : Registration r moves m where
  live still := ⟨h.reachable.live_nodup hr, fun _ => h.live_iff hr still⟩
  started := h.counts_started
  ascending := ⟨h.issued_ascending.1, fun c hc => (h.issued_ascending.2.1 c hc).1⟩
  once := ⟨h.muster.once, h.spawned_issued, fun _ hc => h.muster.known hc⟩
  answers v hv := by
    obtain ⟨earlier, later, rfl⟩ := List.mem_iff_append.mp hv
    obtain ⟨before, hx, -⟩ := h.at_move
    exact before.reachable.answers hr hx
  idle ht hk blocked := h.reachable.watched.blocked ht hk blocked

/-- The system does not grant a thread to the second context. The first has ended, the third has
been interrupted and does not heed it, and a start after the shutdown is refused. -/
def registerActions : List (Action Unit Unit Unit) :=
  [.arrive (.start "first" (.counter 0) (.exit (.ok ())) fun _ =>
    .start "second" (.counter 0) (.exit (.ok ())) fun _ =>
      .start "third" (.counter 0) (.block (fun _ => false) (.exit (.ok ()))) fun _ =>
        .request (.interrupt ⟨3⟩) fun _ => .request .shutdown fun _ =>
          .start "late" (.counter 0) (.exit (.ok ())) fun _ =>
            .request (.awaitIdle 5) fun _ => .exit (.ok ()))] ++
    List.replicate 30 (.step (.caller 1)) ++ List.replicate 3 (.step (.context ⟨1⟩)) ++
    [.pass 3, .step (.caller 1)]

def sparing : Registry := { namePrefix := "cog", admits := fun c => c ≠ ⟨2⟩ }

def registered : Machine Unit Unit Unit := registerActions.foldl perform (.empty sparing ())

def registerMoves : List (Move Unit Unit Unit) := (Machine.empty sparing ()).moves registerActions

theorem contexts_registered_sparing : sparing.live = [] ∧ registered.Still ∧
    Registration sparing registerMoves registered ∧
    issued registerMoves = [⟨1⟩, ⟨2⟩, ⟨3⟩] ∧ spawned registerMoves = [⟨1⟩, ⟨3⟩] ∧
    ended registerMoves = [⟨1⟩] ∧ registered.registry.live = [⟨3⟩] ∧
    registered.interrupted ⟨3⟩ = true ∧ (registered.threads.get? (.caller 1)).isSome = true ∧
    (registered.step (.caller 1)).isNone = true := by
  have registration : Registration sparing registerMoves registered :=
    contexts_registered sparing () rfl (history_moves _ registerActions)
  exact ⟨rfl, by decide +kernel, registration, by decide +kernel, by decide +kernel, by decide +kernel,
    by decide +kernel, by decide +kernel, by decide +kernel, by decide +kernel⟩

end ObjectGroups
