/-
A registry that has been shut down.

Shutdown closes the registry for good. From then on a submission is refused
before it comes to a cog, and a context between tasks leaves, so no task is
claimed any more. Only a claim takes the first task of a queue, and only a start
that has failed takes one back, which is the last. So whoever is in the queue
and has been accepted stays there, in its place; what threads have been about to
submit comes behind.
-/
import ObjectGroups.Proofs.Lifecycle
import ObjectGroups.Proofs.QueueFirst

namespace ObjectGroups

variable {S A V : Type} {m m' n : Machine S A V} {a : Agent} {g : CogId} {c : ContextId}
  {x : Cog S A V} {k : TaskId} {p : List TaskId} {t : Thread S A V} {seat : Option Seat}
  {move : Action S A V} {moves later : List (Move S A V)} {r : Registry} {memory : A}

open Machine

/-! ## The call -/

/-- Whether the thread is in a body that calls for shutdown. -/
def Control.shutsDown : Control S A V → Bool
  | .run _ (.request .shutdown _) => true
  | _ => false

/-- Whether the move is a call for shutdown. -/
def Move.shutsDown (v : Move S A V) : Bool :=
  (v.act.actor?.bind v.before.threads.get?).any (·.control.shutsDown)

theorem Move.shutsDown_eq {v : Move S A V} (h : v.shutsDown = true) : ∃ a t seat next,
    v.act = .step a ∧ v.before.threads.get? a = some t ∧ t.control = .run seat (.request .shutdown next) := by
  simp only [shutsDown, Option.any_eq_true, Option.bind_eq_some_iff] at h
  obtain ⟨t, ⟨a, hact, ht⟩, hk⟩ := h
  have calls : ∃ seat next, t.control = .run seat (.request .shutdown next) := by
    unfold Control.shutsDown at hk
    split at hk
    · next seat next e => exact ⟨seat, next, e⟩
    · cases hk
  obtain ⟨seat, next, e⟩ := calls
  exact ⟨a, t, seat, next, Action.step_of_actor hact, ht, e⟩

theorem Move.claimed?_of_shutsDown {v : Move S A V} (h : v.shutsDown = true) : v.claimed? g = none := by
  obtain ⟨a, t, seat, next, hact, ht, hk⟩ := Move.shutsDown_eq h
  rw [Option.eq_none_iff_forall_ne_some]
  rintro ⟨c, k⟩ claimed
  obtain ⟨active, turn⟩ := Move.claimed?_turn claimed
  obtain ⟨hact', hl, -⟩ := Move.acts turn
  rw [hact] at hact'
  cases hact'
  rw [look_eq _ _ ht, hk] at hl
  have stance : Stance.body seat = .claim := congrArg Prod.snd (Option.some.inj hl)
  cases stance

namespace Machine

/-- The call closes the registry, if it has not been closed before. -/
theorem closed_of_call (hv : (⟨m, move, m'⟩ : Move S A V).shutsDown = true) (ha : m.act move = some m') :
    m'.registry.shutdown = true := by
  obtain ⟨a, t, seat, next, rfl, ht, hk⟩ := Move.shutsDown_eq hv
  have h : m.step a = some m' := ha
  simp only [step, show m.threads.get? a = some t from ht, hk, stepBody, stepRequest] at h
  split at h <;> cases h
  · assumption
  · rfl

/-- A registry that has been shut down stays so. -/
theorem Ordered.closed (ho : m.Ordered) (ha : m.act move = some m') (closed : m.registry.shutdown = true) :
    m'.registry.shutdown = true := by
  have closing := (aside_act ho ha).closing
  generalize move.actor? = actor at closing
  cases closing with
  | same e => exact e.trans closed
  | close e => exact e

/-! ## Between tasks -/

theorem Ordered.not_claimed (ho : m.Ordered) (ha : m.act move = some m')
    (closed : m.registry.shutdown = true) : (⟨m, move, m'⟩ : Move S A V).claimed? g = none := by
  rw [Option.eq_none_iff_forall_ne_some]
  rintro ⟨c, k⟩ claimed
  obtain ⟨active, turn⟩ := Move.claimed?_turn claimed
  obtain ⟨-, hl, own, hl'⟩ := Move.acts turn
  obtain ⟨-, x, hx⟩ := ho.home hl
  rcases ho.claim_cases ha hx hl with same | ⟨k, rest, opened, -⟩ | ⟨left, -⟩
  · cases same.symm.trans hl'
  · cases closed.symm.trans opened
  · cases left.symm.trans hl'

/-- A context between tasks gives back the slot, if it has it, and leaves. -/
theorem leaves_of_closed (closed : m.registry.shutdown = true) (ht : m.threads.get? (.context c) = some t)
    (hg : t.cog = some g) (hk : t.control = .claim) (hx : m.cogs.get? g = some x) (free : x.lock = none) :
    m.act (.step (.context c)) =
      some (((m.onScheduler g fun _ => (x.scheduler.release c).retire).broadcast g).setControl
        (.context c) .leave) := by
  have none : x.scheduler.claim c true m.now = (none, (x.scheduler.release c).retire) := by
    rcases x.scheduler.claim_eq c true m.now with ⟨_, _, _, -, opened, -⟩ | ⟨-, e⟩
    · cases opened
    · exact e
  simp [act, step, ht, hg, hk, hx, stepClaim, free, closed, none]

/-! ## Submissions -/

/-- A submission is refused, and what it does beside is to use up a number. -/
theorem refused_of_closed (closed : m.registry.shutdown = true) (ht : m.threads.get? a = some t)
    {name : String} {task : Body S A V} {next : Exit RuntimeError TaskId → Body S A V}
    (hk : t.control = .run seat (.submit g name task next)) :
    m.act (.step a) =
      some ({ m with nextTask := m.nextTask.next }.setControl a (.run seat (next (.error .shutDown)))) := by
  simp [act, step, ht, hk, stepBody, closed]

/-! ## The queue -/

/-- The queue of the cog begins with these tasks, and none of them can be taken back. -/
def Lines (m : Machine S A V) (g : CogId) (p : List TaskId) : Prop :=
  ∃ x, m.cogs.get? g = some x ∧ p <+: x.scheduler.queued ∧ ∀ k ∈ p, ¬ m.Offers g k

theorem Lines.act (h : m.Lines g p) (hr : Reachable (.empty r memory) m) (ha : m.act move = some m')
    (closed : m.registry.shutdown = true) : m'.Lines g p := by
  obtain ⟨x, hx, first, firm⟩ := h
  have ho : m.Ordered := hr.ordered
  have ho' := ho.act ha
  have idle := ho.not_claimed (g := g) ha closed
  have shift := shift_act ho ha
  generalize hact : move.actor? = actor at shift
  cases shift.vantage ho g with
  | aside hb hxs =>
    rcases hxs with ⟨absent, -⟩ | ⟨y, y', hy, hy', same, -⟩
    · cases hx.symm.trans absent
    · cases hx.symm.trans hy
      exact ⟨y', hy', same ▸ first, fun k hk offered => firm k hk ((Beside.offers hb).mp offered)⟩
  | @deed a own loud s s' y y' ht hw hd =>
    cases hx.symm.trans hw.before
    have hx' := hw.here
    cases hd.queues with
    | same hs hs' _ _ hq =>
      exact ⟨y', hx', hq ▸ first, fun k hk offered => firm k hk ((ht.offers hs hs').mp offered)⟩
    | take d k _ _ _ _ _ claims =>
      rcases hd.claimed? hact ht with ⟨none, -⟩ | ⟨_, _, -, -, claimed⟩
      · cases claims.symm.trans none
      · cases idle.symm.trans claimed
    | offer k _ hlock' hs _ hs' _ _ hq =>
      refine ⟨y', hx', hq ▸ first.trans (List.prefix_append ..), fun j hj offered => ?_⟩
      -- The task on offer has just come, and is not one of those that have been there.
      cases hs'.symm.trans (ho'.offers_unique hx' ht.after hlock' offered)
      have same := ho.berth (p := .letter a) (q := .queue g) ⟨own, s, ht.before, hs⟩
        ⟨x, hx, first.subset hj⟩
      cases same
    | accept k _ hlock' _ _ _ _ hq =>
      exact ⟨y', hx', hq ▸ first.trans (List.prefix_append ..), fun j _ => ho'.no_offers hx' hlock' j⟩
    | withdraw k hs hlock' _ _ hq =>
      have offered : m.Offers g k := ⟨a, own, s, ht.before, hs⟩
      obtain ⟨q, last⟩ := (hr.filed hx).last k offered
      refine ⟨y', hx', ?_, fun j _ => ho'.no_offers hx' hlock' j⟩
      rw [last] at first
      rw [hq, last, List.dropLast_concat]
      refine (List.prefix_concat_iff.mp first).resolve_left ?_
      rintro rfl
      exact firm k (by simp) offered
    | forsake _ _ hlock' e => exact ⟨y', hx', e ▸ first, fun j _ => ho'.no_offers hx' hlock' j⟩
  | grant hb hw hg =>
    cases hx.symm.trans hw.before
    have hx' := hw.here
    cases hg <;> exact ⟨_, hx', first, fun j _ => ho'.no_offers hx' rfl j⟩

end Machine

/-! ## Whole runs -/

namespace History

variable (h : History n later m) (hr : Reachable (.empty r memory) n) (shut : n.registry.shutdown = true)
include h hr shut

theorem closed : m.registry.shutdown = true := by
  induction h with
  | refl => exact shut
  | act h ha ih => exact (hr.trans h.reachable).ordered.closed ha ih

theorem claims_closed : claims g later = [] := by
  induction h with
  | refl => rfl
  | act h ha ih =>
    rw [claims_snoc, ih, (hr.trans h.reachable).ordered.not_claimed ha (h.closed hr shut)]
    rfl

theorem lines (hp : n.Lines g p) : m.Lines g p := by
  induction h with
  | refl => exact hp
  | act h ha ih => exact ih.act (hr.trans h.reachable) ha (h.closed hr shut)

end History

end ObjectGroups
