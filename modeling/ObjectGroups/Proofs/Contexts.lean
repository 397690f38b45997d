/-
The contexts of a cog, from start to retirement.

A context is started for a cog with the slot, and from then on it is engaged:
it has the slot, or hosts a task that is unfinished. It is counted as retired
in the step in which it stops being engaged, and there are three such steps: it
finds nothing to do, its task is aborted, or the body of its task ends without
the slot while the task is unfinished. A context that has been retired gets
neither the slot nor another task, so none is retired twice.
-/
import ObjectGroups.Proofs.Presence
import ObjectGroups.Proofs.Roll

namespace ObjectGroups

variable {S A V : Type} {m m' : Machine S A V} {a : Agent} {g : CogId} {c : ContextId}
  {own : Option CogId} {s s' : Stance} {x x' : Cog S A V} {k : TaskId} {move : Action S A V}
  {moves : List (Move S A V)} {v : Move S A V} {y y' : Scheduler S A V} {r : Registry} {memory : A}

open Machine Scheduler

/-! ## Starts -/

/-- The context that gets its thread in this move, if it is to run the queue of the cog. -/
def Move.started? (g : CogId) (v : Move S A V) : Option ContextId :=
  match v.turn with
  | some (_, own, s, _) => match s.stage? with
    | some (.launch c) =>
      if s.lock own = some g ∧ (v.after.look (.context c)).isSome then some c else none
    | _ => none
  | none => none

/-- The contexts that have been started for the cog, in order. -/
def starts (g : CogId) (moves : List (Move S A V)) : List ContextId :=
  moves.filterMap (Move.started? g)

theorem starts_snoc (moves : List (Move S A V)) (v : Move S A V) :
    starts g (moves ++ [v]) = starts g moves ++ (v.started? g).toList := by
  unfold starts
  rw [List.filterMap_append]
  cases h : v.started? g <;> simp [h]

theorem Move.started?_turn (h : v.started? g = some c) : ∃ a own s s', v.turn = some (a, own, s, s') ∧
    s.stage? = some (.launch c) ∧ s.lock own = some g ∧ (v.after.look (.context c)).isSome := by
  unfold started? at h
  split at h
  · next a own s s' turn =>
    split at h
    · next d stage =>
      split at h
      · next started =>
        cases h
        exact ⟨a, own, s, s', turn, stage, started⟩
      · cases h
    · cases h
  · cases h

theorem Turns.started? (ht : Turns m a own s s' m') (hact : move.actor? = some a) (ho : m.Ordered) :
    (⟨m, move, m'⟩ : Move S A V).started? g = none := by
  rw [Option.eq_none_iff_forall_ne_some]
  intro c hc
  obtain ⟨b, own₁, s₁, s₂, turn, stage, -, born⟩ := Move.started?_turn hc
  cases (ht.turn hact).symm.trans turn
  rw [ht.absent (ho.unlaunched ht.before stage)] at born
  cases born

theorem Grant.started? {d : ContextId} (h : Grant g d a own s x s' x') (hact : move.actor? = some a)
    (hb : Births m a own s s' d (some g) .claim m') :
    (⟨m, move, m'⟩ : Move S A V).started? g = some d := by
  have mine : s.lock own = some g := by cases h <;> rfl
  simp [Move.started?, hb.turn hact, hb.launches, mine, hb.born]

theorem Beside.started? (ho : m.Ordered) (ha : m.act move = some m')
    (hb : ∀ b, Beside g (m.look b) (m'.look b)) : (⟨m, move, m'⟩ : Move S A V).started? g = none := by
  rw [Option.eq_none_iff_forall_ne_some]
  intro c hc
  obtain ⟨a, own, s, s', turn, stage, mine, born⟩ := Move.started?_turn hc
  obtain ⟨-, hl, -⟩ := Move.acts turn
  have number := (Stance.newcomer?_stage s).mpr (.inr stage)
  obtain ⟨-, absent, unique⟩ := ho.newcomer hl number
  obtain ⟨⟨own', s'⟩, hl'⟩ := Option.isSome_iff_exists.mp born
  -- The thread that is new works for the cog for which it has been started.
  have home : own' = some g := by
    rcases (shift_act ho ha).origin hl' with ⟨s₀, hl₀⟩ | ⟨d, own₀, s₀, hd, launches, rfl, -⟩
    · cases absent.symm.trans hl₀
    · obtain rfl := unique d own₀ s₀ hd ((Stance.newcomer?_stage s₀).mpr (.inr launches))
      cases hl.symm.trans hd
      exact mine
  rcases (hb (.context c)).before hl' with ⟨s₀, hl₀, -⟩ | ⟨other, -⟩
  · cases absent.symm.trans hl₀
  · exact other home

/-! ## Retirements -/

/-- A context retires as it goes from one stance to the other: it finds nothing to do, its body
ends without the slot while its task is unfinished, or its task is aborted. -/
def Stance.retires (y y' : Scheduler S A V) : Stance → Stance → Bool
  | .claim, .leave => true
  | .strand k, .leave => y.records.has k
  | s, .body (some ⟨k, false⟩) => s.suspends = some k && y.records.has k && !y'.records.has k
  | _, _ => false

/-- The context of the cog that retires in this move. -/
def Move.retired? (g : CogId) (v : Move S A V) : Option ContextId :=
  match v.turn, v.before.cogs.get? g, v.after.cogs.get? g with
  | some (.context c, some h, s, s'), some x, some x' =>
    if h = g ∧ s.retires x.scheduler x'.scheduler s' = true then some c else none
  | _, _, _ => none

/-- The contexts of the cog that have retired, in order. -/
def retirements (g : CogId) (moves : List (Move S A V)) : List ContextId :=
  moves.filterMap (Move.retired? g)

theorem retirements_snoc (moves : List (Move S A V)) (v : Move S A V) :
    retirements g (moves ++ [v]) = retirements g moves ++ (v.retired? g).toList := by
  unfold retirements
  rw [List.filterMap_append]
  cases h : v.retired? g <;> simp [h]

theorem Move.retired?_turn (h : v.retired? g = some c) : ∃ s s' x x',
    v.turn = some (.context c, some g, s, s') ∧ v.before.cogs.get? g = some x ∧
      v.after.cogs.get? g = some x' ∧ s.retires x.scheduler x'.scheduler s' = true := by
  unfold retired? at h
  split at h
  · next d i s s' x x' turn before after =>
    split at h
    · next retires =>
      obtain ⟨rfl, retires⟩ := retires
      cases h
      exact ⟨s, s', x, x', turn, before, after, retires⟩
    · cases h
  · cases h

theorem Move.retired?_eq (turn : v.turn = some (a, own, s, s')) (hx : v.before.cogs.get? g = some x)
    (hx' : v.after.cogs.get? g = some x') (home : own = some g → ∃ c, a = .context c) :
    v.retired? g = if own = some g ∧ s.retires x.scheduler x'.scheduler s' = true then a.context? else none := by
  unfold retired?
  rw [turn, hx, hx']
  by_cases hown : own = some g
  · obtain ⟨c, rfl⟩ := home hown
    subst hown
    simp [Agent.context?]
  · cases a with
    | caller n => simp [hown]
    | context c => cases own with
      | none => simp
      | some i =>
        have hi : ¬ i = g := fun e => hown (by rw [e])
        simp [hi]

/-- A thread that goes on with its task does not retire. -/
theorem Stance.retires_of_seat (hs : s'.seat? = s.seat?) (hw : s'.suspends = s.suspends)
    (hc : s' = .claim ↔ s = .claim) : s.retires y y' s' = false := by
  unfold retires
  split
  · cases hc.mpr rfl
  · cases hs
  · next k =>
    have idle : s.suspends = none := hw.symm
    simp [idle]
  · rfl

/-- The context has the slot, or a task that is unfinished. -/
def Scheduler.Engages (y : Scheduler S A V) (s : Stance) : Prop :=
  s.slot = true ∨ ∃ k, s.seat? = some ⟨k, false⟩ ∧ (y.records.get? k).isSome

theorem Scheduler.Engages.of_seat (h : y.Engages s) (slot : s'.slot = s.slot) (seat : s'.seat? = s.seat?)
    (hr : ∀ k, s.seat? = some ⟨k, false⟩ → y'.records.get? k = y.records.get? k) : y'.Engages s' := by
  rcases h with active | ⟨k, hs, recorded⟩
  · exact .inl (slot.trans active)
  · exact .inr ⟨k, seat.trans hs, (hr k hs).symm ▸ recorded⟩

theorem Scheduler.engages_iff (slot : s'.slot = s.slot) (seat : s'.seat? = s.seat?)
    (hr : ∀ k, s.seat? = some ⟨k, false⟩ → y'.records.get? k = y.records.get? k) :
    y'.Engages s' ↔ y.Engages s :=
  ⟨fun h => h.of_seat slot.symm seat.symm fun k hs => (hr k (seat ▸ hs)).symm,
    fun h => h.of_seat slot seat hr⟩

theorem Stance.Keeps.claim (h : s.Keeps s') : s' = .claim ↔ s = .claim := by
  have slot := h.slot
  unfold Stance.slot at slot
  rw [h.seat] at slot
  constructor
  · rintro rfl
    have seat : s.seat? = none := h.seat.symm
    simpa [seat] using slot
  · rintro rfl
    simpa [Stance.seat?] using slot

/-- What a deed of a thread of the cog is to its context: it retires, and is engaged no
longer, or is engaged as before. -/
theorem Course.retires (h : Course a g (some g) y y' s s')
    (hk : ∀ k active, s.seat? = some ⟨k, active⟩ → s.letter? ≠ some k ∧ k ∉ y.queued)
    (hl : ∀ k, s.offers g = some k → k ∈ y.queued) :
    (s.retires y y' s' = true ∧ y'.metrics.contextsRetired = y.metrics.contextsRetired + 1 ∧
      y.Engages s ∧ ¬ y'.Engages s') ∨
    (s.retires y y' s' = false ∧ y'.metrics.contextsRetired = y.metrics.contextsRetired ∧
      (y'.Engages s' ↔ y.Engages s)) := by
  have idle {k : TaskId} (hs : s.suspends = some k) : s.slot = false := by
    cases s with
    | hand | wait | contend => rfl
    | _ => cases hs
  have gone : ¬ y'.Engages .leave := by simp [Engages, Stance.slot, Stance.seat?]
  have modified {i : TaskId} {f : TaskRecord → TaskRecord} (k : TaskId)
      (hr : y'.records = y.records.modify i f) :
      (y'.records.get? k).isSome = (y.records.get? k).isSome := by
    rw [hr, Table.get?_modify]
    split <;> simp
  have removed {i : TaskId} (hr : y'.records = y.records.remove i) : y'.records.get? i = none := by
    rw [hr, Table.get?_remove, if_pos rfl]
  cases h with
  | rest keeps same counts =>
    refine .inr ⟨Stance.retires_of_seat keeps.seat keeps.suspends keeps.claim, counts.retired, ?_⟩
    exact engages_iff keeps.slot keeps.seat fun k _ => by rw [same.records]
  | @unwind k _ _ suspends same counts =>
    refine .inr ⟨?_, counts.retired, ?_⟩
    · cases s with
      | hand | wait | contend => simp [Stance.retires, same.records]
      | _ => cases suspends
    · refine engages_iff (idle suspends).symm (Stance.seat_of_suspends suspends).symm fun k _ => ?_
      rw [same.records]
  | retire _ _ _ counts => exact .inl ⟨rfl, counts.retired, .inl rfl, gone⟩
  | enter letter keeps enters counts =>
    refine .inr ⟨Stance.retires_of_seat keeps.seat keeps.suspends keeps.claim, counts.retired, ?_⟩
    refine engages_iff keeps.slot keeps.seat fun k hs => ?_
    have other : k ≠ _ := fun e => (hk k false hs).1 (e ▸ letter)
    rw [enters.records, Table.get?_put, if_neg other]
  | withdraw offers keeps withdraws counts =>
    refine .inr ⟨Stance.retires_of_seat keeps.seat keeps.suspends keeps.claim, counts.retired, ?_⟩
    refine engages_iff keeps.slot keeps.seat fun k hs => ?_
    have other : k ≠ _ := fun e => (hk k false hs).2 (e ▸ hl _ offers)
    rw [withdraws.records, Table.get?_remove, if_neg other]
  | start now _ _ _ _ counts => exact .inr ⟨rfl, counts.retired, iff_of_true (.inl rfl) (.inl rfl)⟩
  | @suspend c k _ label _ _ _ suspends moves counts =>
    refine .inr ⟨?_, counts.retired, iff_of_true (.inr ⟨k, Stance.seat_of_suspends suspends, ?_⟩) (.inl rfl)⟩
    · cases s' with
      | hand | wait | contend => rfl
      | _ => cases suspends
    · rw [modified k moves.records]
      exact moves.present
  | prepare _ _ hr _ counts =>
    refine .inr ⟨rfl, counts.retired, ?_⟩
    unfold Engages
    simp only [modified _ hr]
  | @resume c k now _ _ _ moves _ counts =>
    exact .inr ⟨rfl, counts.retired, iff_of_true (.inl rfl) (.inr ⟨k, rfl, moves.present⟩)⟩
  | complete _ _ _ counts => exact .inr ⟨rfl, counts.retired, iff_of_true (.inl rfl) (.inl rfl)⟩
  | @abort c k _ _ _ _ hst ends counts =>
    have absent := removed ends.records
    have present := ends.present
    refine .inl ⟨?_, counts.retired, .inr ⟨k, ?_, present⟩, ?_⟩
    · rcases hst with rfl | rfl <;> simp [Stance.retires, Stance.suspends, Table.has, absent, present]
    · rcases hst with rfl | rfl <;> rfl
    · simp [Engages, Stance.slot, Stance.seat?, absent]
  | @strand c k _ _ _ ends counts =>
    exact .inl ⟨ends.present, counts.retired, .inr ⟨k, rfl, ends.present⟩, gone⟩
  | @fade c k _ _ absent _ counts =>
    refine .inr ⟨by simp [Stance.retires, Table.has, absent], counts.retired, iff_of_false gone ?_⟩
    simp [Engages, Stance.slot, Stance.seat?, absent]

/-- What a deed counts, and which thread a retirement is of. -/
theorem Course.counts (h : Course a g own y y' s s') : ∃ ended retired active,
    y.Counts y' ended retired active ∧ (own ≠ some g → retired = 0) := by
  cases h with
  | rest _ _ counts | unwind _ _ _ counts | enter _ _ _ counts | withdraw _ _ _ counts => exact ⟨_, _, _, counts, fun _ => rfl⟩
  | start _ _ _ _ _ counts | suspend _ _ _ _ _ _ counts => exact ⟨_, _, _, counts, fun _ => rfl⟩
  | prepare _ _ _ _ counts | resume _ _ _ _ _ _ counts => exact ⟨_, _, _, counts, fun _ => rfl⟩
  | complete _ _ _ counts | fade _ _ _ _ counts => exact ⟨_, _, _, counts, fun _ => rfl⟩
  | retire _ hown _ counts => exact ⟨_, _, _, counts, fun other => absurd hown other⟩
  | abort _ hown _ _ _ counts | strand _ hown _ _ counts =>
    exact ⟨_, _, _, counts, fun other => absurd hown other⟩

theorem Beside.retired? (h : ∀ b, Beside g (v.before.look b) (v.after.look b)) : v.retired? g = none := by
  rw [Option.eq_none_iff_forall_ne_some]
  intro c hc
  obtain ⟨s, s', x, x', turn, -, -, retires⟩ := Move.retired?_turn hc
  have alike := Beside.alike h turn
  rw [Stance.retires_of_seat (alike.seat rfl) (alike.suspends rfl) (alike.claim rfl)] at retires
  cases retires

theorem Grant.retired? {d : ContextId} (h : Grant g d a own s x s' x') (hact : move.actor? = some a)
    (hb : Births m a own s s' d (some g) .claim m') :
    (⟨m, move, m'⟩ : Move S A V).retired? g = none := by
  rw [Option.eq_none_iff_forall_ne_some]
  intro c hc
  obtain ⟨s₁, s₂, y, y', turn, -, -, retires⟩ := Move.retired?_turn hc
  cases (hb.turn hact).symm.trans turn
  have goesOn : Stance.retires y.scheduler y'.scheduler s s' = false := by
    cases h <;> exact Stance.retires_of_seat rfl rfl (by simp)
  rw [goesOn] at retires
  cases retires

/-! ## Whole runs -/

namespace Machine

/-- The context has a thread of the cog, and is engaged. -/
def Engaged (m : Machine S A V) (g : CogId) (x : Cog S A V) (c : ContextId) : Prop :=
  ∃ s, m.look (.context c) = some (some g, s) ∧ x.scheduler.Engages s

/-- All contexts that have been started for the cog. -/
structure Roster (m : Machine S A V) (g : CogId) (x : Cog S A V) (moves : List (Move S A V)) : Prop where
  started : x.scheduler.metrics.contextsStarted = (starts g moves).length
  retired : x.scheduler.metrics.contextsRetired = (retirements g moves).length
  fresh : (starts g moves).Nodup
  used {c : ContextId} : c ∈ starts g moves → m.Used c
  home {c : ContextId} {own : Option CogId} {s : Stance} : c ∈ starts g moves →
    m.look (.context c) = some (own, s) → own = some g
  mine {c : ContextId} {s : Stance} : m.look (.context c) = some (some g, s) → c ∈ starts g moves
  once : (retirements g moves).Nodup
  past {c : ContextId} : c ∈ retirements g moves ↔ c ∈ starts g moves ∧ ¬ m.Engaged g x c

namespace Roster

/-- What a move has to be to the contexts of the cog. -/
theorem next (h : m.Roster g x moves) (ho : m.Ordered) (ha : m.act move = some m')
    (started : x'.scheduler.metrics.contextsStarted =
      x.scheduler.metrics.contextsStarted + (v.started? g).toList.length)
    (retired : x'.scheduler.metrics.contextsRetired =
      x.scheduler.metrics.contextsRetired + (v.retired? g).toList.length)
    (mine : ∀ c s, m'.look (.context c) = some (some g, s) →
      (∃ s₀, m.look (.context c) = some (some g, s₀)) ∨ v.started? g = some c)
    (new : ∀ c, v.started? g = some c → (∃ a own s, m.look a = some (own, s) ∧ s.newcomer? = some c) ∧
      ∃ s, m'.look (.context c) = some (some g, s))
    (leaves : ∀ c, v.retired? g = some c → m.Engaged g x c)
    (engaged : ∀ c, m'.Engaged g x' c ↔
      (m.Engaged g x c ∨ v.started? g = some c) ∧ v.retired? g ≠ some c) :
    m'.Roster g x' (moves ++ [v]) := by
  have shift := shift_act ho ha
  have mem_starts {c : ContextId} : c ∈ starts g (moves ++ [v]) ↔ c ∈ starts g moves ∨ v.started? g = some c := by
    rw [starts_snoc, List.mem_append, Option.mem_toList]
  have mem_retirements {c : ContextId} :
      c ∈ retirements g (moves ++ [v]) ↔ c ∈ retirements g moves ∨ v.retired? g = some c := by
    rw [retirements_snoc, List.mem_append, Option.mem_toList]
  have unknown {c : ContextId} (hc : v.started? g = some c) : c ∉ starts g moves := by
    intro old
    obtain ⟨⟨a, own, s, hl, hs⟩, -⟩ := new c hc
    exact (h.used old).started a own s hl hs
  have known {c : ContextId} (hc : m.Engaged g x c) : c ∈ starts g moves := by
    obtain ⟨s, hl, -⟩ := hc
    exact h.mine hl
  have nodup {l : List ContextId} {o : Option ContextId} (hl : l.Nodup) (ho : ∀ c, o = some c → c ∉ l) :
      (l ++ o.toList).Nodup := by
    cases o with
    | none => simpa using hl
    | some c => exact List.nodup_append.mpr ⟨hl, by simp, fun d hd e he => by
        obtain rfl := List.mem_singleton.mp he
        rintro rfl
        exact ho d rfl hd⟩
  constructor
  case started => rw [started, h.started, starts_snoc, List.length_append]
  case retired => rw [retired, h.retired, retirements_snoc, List.length_append]
  case fresh => exact starts_snoc moves v ▸ nodup h.fresh fun c => unknown
  case used =>
    intro c hc
    rcases mem_starts.mp hc with old | hc
    · exact (h.used old).kept shift
    · obtain ⟨-, s, hl⟩ := new c hc
      exact .of_look (ho.act ha) (by simp [hl])
  case home =>
    intro c own s hc hl
    rcases mem_starts.mp hc with old | hc
    · rcases shift.origin hl with ⟨s₀, hl₀⟩ | ⟨b, own₀, s₀, hb, launches, -⟩
      · exact h.home old hl₀
      · exact absurd ((Stance.newcomer?_stage s₀).mpr (.inr launches)) ((h.used old).started b own₀ s₀ hb)
    · obtain ⟨-, s₁, hl₁⟩ := new c hc
      cases hl.symm.trans hl₁
      rfl
  case mine =>
    intro c s hl
    rcases mine c s hl with ⟨s₀, hl₀⟩ | hc
    · exact mem_starts.mpr (.inl (h.mine hl₀))
    · exact mem_starts.mpr (.inr hc)
  case once =>
    exact retirements_snoc moves v ▸ nodup h.once fun c hc old => (h.past.mp old).2 (leaves c hc)
  case past =>
    intro c
    have past := h.past (c := c)
    have leaves := leaves c
    have known := known (c := c)
    have unknown := unknown (c := c)
    rw [mem_retirements, mem_starts, engaged c]
    tauto

theorem aside (h : m.Roster g x moves) (ho : m.Ordered) (ha : m.act move = some m')
    (hb : ∀ b, Beside g (m.look b) (m'.look b)) (hx : x'.scheduler = x.scheduler) :
    m'.Roster g x' (moves ++ [⟨m, move, m'⟩]) := by
  have started : (⟨m, move, m'⟩ : Move S A V).started? g = none := Beside.started? ho ha hb
  have retired : (⟨m, move, m'⟩ : Move S A V).retired? g = none := Beside.retired? hb
  have before {c : ContextId} {s : Stance} (hl : m'.look (.context c) = some (some g, s)) :
      ∃ s₀, m.look (.context c) = some (some g, s₀) ∧ Stance.Alike g (some g) s₀ s := by
    rcases (hb (.context c)).before hl with old | ⟨other, -⟩
    · exact old
    · exact absurd rfl other
  refine h.next ho ha (by simp [started, hx]) (by simp [retired, hx]) ?_ (by simp [started])
    (by simp [retired]) ?_
  · intro c s hl
    obtain ⟨s₀, hl₀, -⟩ := before hl
    exact .inl ⟨s₀, hl₀⟩
  · intro c
    simp only [started, retired, reduceCtorEq, or_false, ne_eq, not_false_eq_true, and_true]
    constructor
    · rintro ⟨s, hl, engages⟩
      obtain ⟨s₀, hl₀, alike⟩ := before hl
      exact ⟨s₀, hl₀, (engages_iff (alike.slot rfl) (alike.seat rfl) fun k _ => by rw [hx]).mp engages⟩
    · rintro ⟨s, hl, engages⟩
      rcases (hb (.context c)).after hl with ⟨s', hl', alike⟩ | rfl | ⟨none, -⟩
      · exact ⟨s', hl', (engages_iff (alike.slot rfl) (alike.seat rfl) fun k _ => by rw [hx]).mpr engages⟩
      · rcases engages with slot | ⟨k, seat, -⟩
        · cases slot
        · cases seat
      · cases none

theorem grant {d : ContextId} (h : m.Roster g x moves) (ho : m.Ordered) (ha : m.act move = some m')
    (hact : move.actor? = some a) (hb : Births m a own s s' d (some g) .claim m')
    (hg : Grant g d a own s x s' x') : m'.Roster g x' (moves ++ [⟨m, move, m'⟩]) := by
  have started : (⟨m, move, m'⟩ : Move S A V).started? g = some d := hg.started? hact hb
  have retired : (⟨m, move, m'⟩ : Move S A V).retired? g = none := hg.retired? hact hb
  have absent := ho.unlaunched hb.before hb.launches
  have records : x'.scheduler.records = x.scheduler.records := by cases hg <;> rfl
  have slot : s'.slot = s.slot := by cases hg <;> rfl
  have seat : s'.seat? = s.seat? := by cases hg <;> rfl
  refine h.next ho ha ?_ ?_ ?_ ?_ (by simp [retired]) ?_
  · rw [started]
    cases hg <;> rfl
  · rw [retired]
    cases hg <;> rfl
  · intro c s₁ hl
    rcases hb.cases hl with ⟨e, rfl, -⟩ | ⟨-, e, -⟩ | ⟨-, -, hl⟩
    · exact .inl ⟨s, e ▸ hb.before⟩
    · cases e
      exact .inr started
    · exact .inl ⟨s₁, hl⟩
  · intro c hc
    cases started.symm.trans hc
    exact ⟨⟨a, own, s, hb.before, (Stance.newcomer?_stage s).mpr (.inr hb.launches)⟩, .claim, hb.born⟩
  · intro c
    simp only [started, retired, reduceCtorEq, ne_eq, not_false_eq_true, and_true, Option.some.injEq]
    constructor
    · rintro ⟨s₁, hl, engages⟩
      rcases hb.cases hl with ⟨e, rfl, rfl⟩ | ⟨-, e, -⟩ | ⟨-, -, hl⟩
      · exact .inl ⟨s, e ▸ hb.before, (engages_iff slot seat fun k _ => by rw [records]).mp engages⟩
      · cases e
        exact .inr rfl
      · exact .inl ⟨s₁, hl, (engages_iff rfl rfl fun k _ => by rw [records]).mp engages⟩
    · rintro (⟨s₁, hl, engages⟩ | rfl)
      · by_cases hca : .context c = a
        · rw [hca, hb.before] at hl
          cases hl
          exact ⟨s', hca ▸ hb.after, (engages_iff slot seat fun k _ => by rw [records]).mpr engages⟩
        · have hcd : c ≠ d := by
            rintro rfl
            cases absent.symm.trans hl
          exact ⟨s₁, by rw [hb.look, if_neg hca, if_neg (by simpa using hcd), hl],
            (engages_iff rfl rfl fun k _ => by rw [records]).mpr engages⟩
      · exact ⟨.claim, hb.born, .inl rfl⟩

theorem deed {loud : Bool} (h : m.Roster g x moves) (ho : m.Ordered) (ha : m.act move = some m')
    (hact : move.actor? = some a) (hf : m.Filed g x) (blank : m.Blank) (ht : Turns m a own s s' m')
    (hw : Works m g x x' m') (hd : Deed g a own loud s x s' x') :
    m'.Roster g x' (moves ++ [⟨m, move, m'⟩]) := by
  have started : (⟨m, move, m'⟩ : Move S A V).started? g = none := ht.started? hact ho
  have course := hf.course ho ht blank ha hw hd
  have home (hown : own = some g) : ∃ c, a = .context c := (ho.home (hown ▸ ht.before)).1
  have retired := Move.retired?_eq (v := ⟨m, move, m'⟩) (ht.turn hact) hw.before hw.here home
  -- The thread that acts, if it works for the cog.
  have self (hown : own = some g) := (hown ▸ course).retires
    (fun k active seat => ho.hosted_apart ht hw.before ht.before seat) fun k offers => by
      obtain ⟨q, hq⟩ := hf.offers_last ht offers
      simp [hq]
  -- All others.
  have others {c : ContextId} (hc : .context c ≠ a) : m'.Engaged g x' c ↔ m.Engaged g x c := by
    unfold Engaged
    rw [(ht.others _ hc).look]
    refine exists_congr fun s₀ => and_congr_right fun hl => engages_iff rfl rfl fun k seat => ?_
    exact (hf.spares ho ht blank ha hw hd hl seat hc).1
  obtain ⟨ended, n, active, counts, none⟩ := course.counts
  refine h.next ho ha (by rw [started, counts.started]; rfl) ?_ ?_ (by simp [started]) ?_ ?_
  · rw [retired]
    by_cases hown : own = some g
    · obtain ⟨c, rfl⟩ := home hown
      rcases self hown with ⟨retires, count, -⟩ | ⟨stays, count, -⟩
      · simp [hown, retires, count, Agent.context?]
      · simp [stays, count]
    · simp [hown, counts.retired, none hown]
  · intro c s₁ hl
    rcases ht.cases hl with ⟨e, rfl, -⟩ | ⟨-, hl⟩
    · exact .inl ⟨s, e ▸ ht.before⟩
    · exact .inl ⟨s₁, hl⟩
  · intro c hc
    rw [retired] at hc
    split at hc
    · next leaves =>
      obtain ⟨rfl, retires⟩ := leaves
      obtain ⟨d, rfl⟩ := home rfl
      cases hc
      rcases self rfl with ⟨-, -, engaged, -⟩ | ⟨stays, -⟩
      · exact ⟨s, ht.before, engaged⟩
      · cases retires.symm.trans stays
    · cases hc
  · intro c
    rw [started, retired]
    simp only [reduceCtorEq, or_false]
    by_cases hca : .context c = a
    · subst hca
      have engaged : m.Engaged g x c ↔ own = some g ∧ x.scheduler.Engages s := by
        simp [Engaged, ht.before]
      have engaged' : m'.Engaged g x' c ↔ own = some g ∧ x'.scheduler.Engages s' := by
        simp [Engaged, ht.after]
      rw [engaged, engaged']
      by_cases hown : own = some g
      · rcases self hown with ⟨retires, -, -, past⟩ | ⟨stays, -, same⟩
        · simp [hown, retires, past, Agent.context?]
        · simp [hown, stays, same]
      · simp [hown]
    · rw [others hca]
      have other : (if own = some g ∧ s.retires x.scheduler x'.scheduler s' = true then a.context? else
          Option.none) ≠ some c := by
        intro e
        split at e
        · cases a with
          | context d =>
            cases e
            exact hca rfl
          | caller n => cases e
        · cases e
      simp [other]

/-- Nothing has been started for a cog that has just been founded. -/
theorem founded (ho : m.Ordered) (hb : ∀ b, Beside g (m.look b) (m'.look b))
    (absent : m.cogs.get? g = none) (hx : x.scheduler = {}) (hs : starts g moves = [])
    (hr : retirements g moves = []) : m'.Roster g x moves where
  started := by simp [hx, hs]
  retired := by simp [hx, hr]
  fresh := by simp [hs]
  used hc := by simp [hs] at hc
  home hc := by simp [hs] at hc
  mine hl := by
    rcases (hb _).before hl with ⟨s₀, hl₀, -⟩ | ⟨other, -⟩
    · obtain ⟨-, x, hx⟩ := ho.home hl₀
      cases absent.symm.trans hx
    · exact absurd rfl other
  once := by simp [hr]
  past := by simp [hs, hr]

end Roster

end Machine

/-- In every run, the cog knows the contexts that have been started for it. -/
theorem History.roster (h : History (.empty r memory) moves m) :
    (m.cogs.get? g = none → starts g moves = [] ∧ retirements g moves = []) ∧
      ∀ {x : Cog S A V}, m.cogs.get? g = some x → m.Roster g x moves := by
  induction h with
  | refl => exact ⟨fun _ => ⟨rfl, rfl⟩, by intro x hx; cases hx⟩
  | @act moves m m' move h ha ih =>
    have ho : m.Ordered := h.reachable.ordered
    obtain ⟨none, some⟩ := ih
    have works {x x' : Cog S A V} (hw : Works m g x x' m')
        (roster : m'.Roster g x' (moves ++ [⟨m, move, m'⟩])) :
        (m'.cogs.get? g = .none → starts g (moves ++ [⟨m, move, m'⟩]) = [] ∧
          retirements g (moves ++ [⟨m, move, m'⟩]) = []) ∧
          ∀ {x : Cog S A V}, m'.cogs.get? g = .some x → m'.Roster g x (moves ++ [⟨m, move, m'⟩]) := by
      have there := hw.here
      refine ⟨fun absent => ?_, fun hy => ?_⟩
      · cases there.symm.trans absent
      · cases there.symm.trans hy
        exact roster
    have shift := shift_act ho ha
    generalize hact : move.actor? = actor at shift
    cases shift.vantage ho g with
    | aside hb hx =>
      rcases hx with ⟨absent, new⟩ | ⟨x, x', hx, hx', same, -⟩
      · obtain ⟨hs, hr⟩ := none absent
        have hs' : starts g (moves ++ [⟨m, move, m'⟩]) = [] := by
          simp [starts_snoc, hs, Beside.started? ho ha hb]
        have hr' : retirements g (moves ++ [⟨m, move, m'⟩]) = [] := by
          simp [retirements_snoc, hr, Beside.retired? (v := ⟨m, move, m'⟩) hb]
        exact ⟨fun _ => ⟨hs', hr'⟩, fun hy => .founded ho hb absent (new _ hy).1 hs' hr'⟩
      · refine ⟨fun absent => ?_, fun hy => ?_⟩
        · cases hx'.symm.trans absent
        · cases hx'.symm.trans hy
          exact (some hx).aside ho ha hb same
    | deed ht hw hd =>
      exact works hw ((some hw.before).deed ho ha hact (h.reachable.filed hw.before) h.reachable.blank ht hw hd)
    | grant hb hw hg => exact works hw ((some hw.before).grant ho ha hact hb hg)

end ObjectGroups
