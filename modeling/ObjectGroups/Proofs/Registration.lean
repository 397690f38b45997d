/-
Which contexts are live, and how they have come and gone.

A context gets its number, gets its thread, and its body ends; each of these is
read off the move in which it happens (`Move.issued?`, `Move.spawned?`,
`Move.ended?`). Whenever all threads are at rest, the live contexts are those
that have got their thread and whose body has not ended. In between, a context
is live from the moment it is entered until its entry is struck off, so also
while its thread is being asked for, and after its body has ended.
-/
import ObjectGroups.Proofs.Presence
import ObjectGroups.Proofs.Registers

namespace ObjectGroups

variable {S A V : Type} {m m' : Machine S A V} {a b : Agent} {c d : ContextId}
  {own : Option CogId} {s s' : Stance} {move : Action S A V} {moves : List (Move S A V)}
  {v : Move S A V} {t : Thread S A V} {e : Errand S A V} {r : Registry} {memory : A}

open Machine

/-! ## What a move is to the registry -/

/-- The number that is given out in this move to a context that is to be started. -/
def Move.issued? (v : Move S A V) : Option ContextId :=
  match v.turn with
  | some (_, _, s, s') => if s.stage? = some .check then s'.newcomer? else none
  | none => none

/-- The context that gets its thread in this move. -/
def Move.spawned? (v : Move S A V) : Option ContextId :=
  match v.turn with
  | some (_, _, s, _) => match s.stage? with
    | some (.launch c) => if (v.after.look (.context c)).isSome then some c else none
    | _ => none
  | none => none

/-- The context whose body returns or unwinds in this move, and which is left with its exit alone. -/
def Move.ended? (v : Move S A V) : Option ContextId :=
  match v.turn with
  | some (.context c, _, s, .leave) => if s = .leave then none else some c
  | _ => none

def issued (moves : List (Move S A V)) : List ContextId := moves.filterMap Move.issued?

def spawned (moves : List (Move S A V)) : List ContextId := moves.filterMap Move.spawned?

def ended (moves : List (Move S A V)) : List ContextId := moves.filterMap Move.ended?

theorem issued_snoc (moves : List (Move S A V)) (v : Move S A V) :
    issued (moves ++ [v]) = issued moves ++ v.issued?.toList := by
  unfold issued
  rw [List.filterMap_append]
  cases h : v.issued? <;> simp [h]

theorem spawned_snoc (moves : List (Move S A V)) (v : Move S A V) :
    spawned (moves ++ [v]) = spawned moves ++ v.spawned?.toList := by
  unfold spawned
  rw [List.filterMap_append]
  cases h : v.spawned? <;> simp [h]

theorem mem_spawned_snoc : c ∈ spawned (moves ++ [v]) ↔ c ∈ spawned moves ∨ v.spawned? = some c := by
  rw [spawned_snoc, List.mem_append, Option.mem_toList]

theorem mem_ended_snoc : c ∈ ended (moves ++ [v]) ↔ c ∈ ended moves ∨ v.ended? = some c := by
  unfold ended
  rw [List.filterMap_append, List.mem_append]
  cases h : v.ended? <;> simp [h, eq_comm]

theorem Move.spawned?_turn (h : v.spawned? = some c) : ∃ a own s s', v.turn = some (a, own, s, s') ∧
    s.stage? = some (.launch c) ∧ (v.after.look (.context c)).isSome := by
  unfold spawned? at h
  split at h
  · next a own s s' turn =>
    split at h
    · next d stage =>
      split at h
      · next born =>
        cases h
        exact ⟨a, own, s, s', turn, stage, born⟩
      · cases h
    · cases h
  · cases h

theorem Move.issued?_turn (h : v.issued? = some c) : ∃ a own s s', v.turn = some (a, own, s, s') ∧
    s.stage? = some .check ∧ s'.newcomer? = some c := by
  unfold issued? at h
  split at h
  · next a own s s' turn =>
    split at h
    · next stage => exact ⟨a, own, s, s', turn, stage, h⟩
    · cases h
  · cases h

theorem Move.ended?_turn (h : v.ended? = some c) :
    ∃ own s, v.turn = some (.context c, own, s, .leave) ∧ s ≠ .leave := by
  unfold ended? at h
  split at h
  · next d own s turn =>
    split at h
    · cases h
    · next going =>
      cases h
      exact ⟨own, s, turn, going⟩
  · cases h

section
variable (ho : m.Ordered) (ha : m.act move = some m')
include ho ha

/-- A context gets its thread in the move in which it has none before and one afterwards. -/
theorem Machine.Ordered.spawned?_iff : (⟨m, move, m'⟩ : Move S A V).spawned? = some c ↔
    m.look (.context c) = none ∧ (m'.look (.context c)).isSome := by
  constructor
  · intro h
    obtain ⟨a, own, s, s', turn, stage, born⟩ := Move.spawned?_turn h
    obtain ⟨-, hl, -⟩ := Move.acts turn
    exact ⟨ho.unlaunched hl stage, born⟩
  · rintro ⟨absent, born⟩
    obtain ⟨⟨own, s⟩, hl'⟩ := Option.isSome_iff_exists.mp born
    have old {P : Prop} (hl : m.look (.context c) = some (own, s)) : P := by
      cases absent.symm.trans hl
    have stirred {P : Prop} (hm : m.Stirred m' (.context c)) : P := old (hm.look ▸ hl')
    have other {a : Agent} {l : Option CogId × Stance} (hl : m.look a = some l) : .context c ≠ a := by
      rintro rfl
      cases absent.symm.trans hl
    have births {a : Agent} {own₁ : Option CogId} {s₁ s₂ : Stance} {d : ContextId} {cog : Option CogId}
        {first : Stance} (hact : move.actor? = some a) (hb : Births m a own₁ s₁ s₂ d cog first m') :
        (⟨m, move, m'⟩ : Move S A V).spawned? = some c := by
      rcases hb.cases hl' with ⟨e, -, -⟩ | ⟨-, e, -, -⟩ | ⟨-, -, hl⟩
      · exact absurd e (other hb.before)
      · cases e
        simp [Move.spawned?, hb.turn hact, hb.launches, hb.born]
      · exact old hl
    have shift := shift_act ho ha
    generalize hact : move.actor? = actor at shift
    cases shift with
    | quiet ht => exact stirred (ht.others _ (other ht.before))
    | deed ht => exact stirred (ht.others _ (other ht.before))
    | allocate ht => exact stirred (ht.others _ (other ht.before))
    | letter ht => exact stirred (ht.others _ (other ht.before))
    | birth hb => exact births hact hb
    | launch hb => exact births hact hb
    | gone hl _ _ others => exact stirred (others _ (other hl))
    | arrive _ others => exact stirred (others _ (by simp))
    | found _ _ others => exact stirred (others _)
    | furnish ht => exact stirred (.same ht)
    | rest others => exact stirred (others _)

theorem Machine.Ordered.ended?_iff : (⟨m, move, m'⟩ : Move S A V).ended? = some c ↔
    ∃ own own' s, m.look (.context c) = some (own, s) ∧ s ≠ .leave ∧
      m'.look (.context c) = some (own', .leave) := by
  constructor
  · intro h
    obtain ⟨own, s, turn, going⟩ := Move.ended?_turn h
    obtain ⟨-, hl, own', hl'⟩ := Move.acts turn
    exact ⟨own, own', s, hl, going, hl'⟩
  · rintro ⟨own, own', s, hl, going, hl'⟩
    have acts : move.actor? = some (.context c) := by
      by_contra other
      have stirred := (shift_act ho ha).other ho (by simp [hl]) other
      rw [stirred.look, hl] at hl'
      cases hl'
      exact going rfl
    simp [Move.ended?, Move.turn, acts, hl, hl', going]

/-- The number of a context that is to be started was known before, or is given out in this move. -/
theorem Machine.Ordered.newcomer_or_issued (hl' : m'.look a = some (own, s)) (number : s.newcomer? = some c) :
    (∃ s₀, m.look a = some (own, s₀) ∧ s₀.newcomer? = some c) ∨
      (⟨m, move, m'⟩ : Move S A V).issued? = some c := by
  have shift := shift_act ho ha
  rcases shift.came hl' with ⟨acts, s₀, hl⟩ | hl | rfl | rfl
  · rw [acts] at shift
    obtain ⟨-, passes⟩ := shift.passes hl hl'
    cases passes with
    | quiet hq => cases hq with
      | same => exact .inl ⟨_, hl, number⟩
      | enter _ d hd =>
        have launches := (s₀.stage?_restage (.launch d) hd)
        obtain rfl : d = c := by simpa [Stance.newcomer?, launches] using number
        exact .inl ⟨_, hl, s₀.newcomer?_stage.mpr (.inl hd)⟩
      | _ => cases number
    | deed hd =>
      rw [hd.newcomer] at number
      cases number
    | allocate check => exact .inr (by simp [Move.issued?, Move.turn, acts, hl, hl', check, number])
    | grant hg => cases hg <;> cases number
    | _ => cases number
  · exact .inl ⟨s, hl, number⟩
  · cases number
  · cases number

/-- The numbers are given out one after the other. -/
theorem Machine.Ordered.issued?_next (h : (⟨m, move, m'⟩ : Move S A V).issued? = some c) :
    c = m.registry.nextContext ∧ c.val < m'.registry.nextContext.val := by
  obtain ⟨a, own, s, s', turn, check, number⟩ := Move.issued?_turn h
  obtain ⟨-, hl, own', hl'⟩ := Move.acts turn
  have fresh {stage : Stage} (hs : s'.stage? = some stage) (hne : stage ≠ .check) :
      stage = .register m.registry.nextContext := by
    rcases (shift_act ho ha).stage hl' hs with ⟨s₀, hl₀, same⟩ | e | e
    · have e : s₀ = s := congrArg Prod.snd (Option.some.inj (hl₀.symm.trans hl))
      rw [e, check] at same
      rcases same with same | ⟨d, -, same⟩
      · cases same
        exact absurd rfl hne
      · cases same
    · exact absurd e hne
    · exact e
  refine ⟨?_, ((ho.act ha).newcomer hl' number).1⟩
  rcases (Stance.newcomer?_stage s').mp number with hs | hs
  · cases fresh hs (by simp)
    rfl
  · cases fresh hs (by simp)

/-- A thread that is about to end ends. -/
theorem Machine.Ordered.leave_lasts (hl : m.look a = some (own, .leave)) {own' : Option CogId}
    (hl' : m'.look a = some (own', s)) : s = .leave := by
  rcases ho.kept_or_steps ha hl with same | rfl
  · cases same.symm.trans hl'
    rfl
  · have shift : Shift m m' (some a) := shift_act ho ha
    obtain ⟨-, passes⟩ := shift.passes hl hl'
    cases passes with
    | quiet hq => cases hq with
      | same => rfl
      | enter _ d hd => cases hd
    | deed hd => cases hd with
      | abort now hs => rcases hs with e | ⟨e, -⟩ <;> cases e
    | allocate check => cases check
    | grant hg => cases hg

end

/-! ## Contexts that have come and gone -/

/-- The contexts that have got their thread are there, or their body has ended. -/
structure Machine.Muster (m : Machine S A V) (moves : List (Move S A V)) : Prop where
  used {c : ContextId} : c ∈ spawned moves → m.Used c
  once : (spawned moves).Nodup
  known {c : ContextId} : c ∈ ended moves → c ∈ spawned moves
  present {c : ContextId} {own : Option CogId} {s : Stance} : m.look (.context c) = some (own, s) →
    c ∈ spawned moves ∧ (c ∈ ended moves ↔ s = .leave)
  past {c : ContextId} : c ∈ spawned moves → m.look (.context c) = none → c ∈ ended moves

theorem Machine.Muster.empty : (Machine.empty r memory : Machine S A V).Muster [] where
  used := by simp [spawned]
  once := List.nodup_nil
  known := by simp [ended]
  present h := by cases h
  past := by simp [spawned]

theorem Machine.Muster.act (h : m.Muster moves) (ho : m.Ordered) (ha : m.act move = some m') :
    m'.Muster (moves ++ [⟨m, move, m'⟩]) := by
  have shift := shift_act ho ha
  -- Who gets a thread had none before, and has not had one.
  have new {c : ContextId} (hs : (⟨m, move, m'⟩ : Move S A V).spawned? = some c) : c ∉ spawned moves := by
    intro old
    obtain ⟨a, own, s, s', turn, launches, -⟩ := Move.spawned?_turn hs
    obtain ⟨-, hl, -⟩ := Move.acts turn
    exact (h.used old).started a own s hl (s.newcomer?_stage.mpr (.inr launches))
  constructor
  case used =>
    intro c hc
    rcases mem_spawned_snoc.mp hc with old | hs
    · exact (h.used old).kept shift
    · exact .of_look (ho.act ha) ((ho.spawned?_iff ha).mp hs).2
  case once =>
    rw [spawned_snoc]
    refine List.nodup_append.mpr ⟨h.once, by cases (⟨m, move, m'⟩ : Move S A V).spawned? <;> simp, ?_⟩
    rintro c old d hd rfl
    exact new (Option.mem_toList.mp hd) old
  case known =>
    intro c hc
    refine mem_spawned_snoc.mpr (.inl ?_)
    rcases mem_ended_snoc.mp hc with old | he
    · exact h.known old
    · obtain ⟨own, own', s, hl, -⟩ := (ho.ended?_iff ha).mp he
      exact (h.present hl).1
  case present =>
    intro c own s hl'
    rw [mem_spawned_snoc, mem_ended_snoc, ho.ended?_iff ha]
    cases hl : m.look (.context c) with
    | none =>
      have hs := (ho.spawned?_iff ha).mpr ⟨hl, by simp [hl']⟩
      have begins : s ≠ .leave := by
        rcases shift.came hl' with ⟨-, s₀, hl₀⟩ | hl₀ | rfl | rfl
        · cases hl.symm.trans hl₀
        · cases hl.symm.trans hl₀
        · simp
        · simp
      refine ⟨.inr hs, iff_of_false ?_ begins⟩
      rintro (old | ⟨_, _, _, hl₀, -⟩)
      · exact new hs (h.known old)
      · cases hl₀
    | some l =>
      obtain ⟨own₀, s₀⟩ := l
      obtain ⟨old, left⟩ := h.present hl
      refine ⟨.inl old, ?_⟩
      rw [left]
      constructor
      · rintro (rfl | ⟨_, _, _, _, _, hl₁⟩)
        · exact ho.leave_lasts ha hl hl'
        · cases hl'.symm.trans hl₁
          rfl
      · rintro rfl
        by_cases going : s₀ = .leave
        · exact .inl going
        · exact .inr ⟨own₀, own, s₀, rfl, going, hl'⟩
  case past =>
    intro c hc gone
    rcases mem_spawned_snoc.mp hc with old | hs
    · refine mem_ended_snoc.mpr (.inl ?_)
      cases hl : m.look (.context c) with
      | none => exact h.past old hl
      | some l =>
        obtain ⟨-, last⟩ := ho.leaving ha hl gone
        exact (h.present hl).2.mpr (last.resolve_right (by rintro ⟨n, e⟩; cases e))
    · obtain ⟨-, born⟩ := (ho.spawned?_iff ha).mp hs
      simp [gone] at born

namespace History

variable (h : History (.empty r memory) moves m)
include h

theorem muster : m.Muster moves := by
  induction h with
  | refl => exact .empty
  | act h ha ih => exact ih.act h.reachable.ordered ha

/-- Every context that is to be started has been given its number. -/
theorem newcomer_issued (hl : m.look a = some (own, s)) (number : s.newcomer? = some c) : c ∈ issued moves := by
  induction h generalizing a own s with
  | refl => cases hl
  | act h ha ih =>
    rw [issued_snoc, List.mem_append, Option.mem_toList]
    exact (h.reachable.ordered.newcomer_or_issued ha hl number).imp_left fun ⟨_, hl₀, same⟩ => ih hl₀ same

theorem spawned_issued : spawned moves ⊆ issued moves := by
  induction h with
  | refl => exact List.Subset.refl _
  | @act moves m m' move h ha ih =>
    intro c hc
    rw [issued_snoc]
    refine List.mem_append_left _ ?_
    rcases mem_spawned_snoc.mp hc with old | hs
    · exact ih old
    · obtain ⟨a, own, s, s', turn, launches, -⟩ := Move.spawned?_turn hs
      obtain ⟨-, hl, -⟩ := Move.acts turn
      exact h.newcomer_issued hl (s.newcomer?_stage.mpr (.inr launches))

/-- Numbers are given out in ascending order, from the one with which the registry begins. -/
theorem issued_ascending : (issued moves).Pairwise (·.val < ·.val) ∧
    (∀ c ∈ issued moves, r.nextContext.val ≤ c.val ∧ c.val < m.registry.nextContext.val) ∧
      r.nextContext.val ≤ m.registry.nextContext.val := by
  induction h with
  | refl => exact ⟨.nil, by simp [issued], Nat.le_refl _⟩
  | @act moves m m' move h ha ih =>
    obtain ⟨ascending, range, start⟩ := ih
    have ho : m.Ordered := h.reachable.ordered
    have onward : m.registry.nextContext.val ≤ m'.registry.nextContext.val := (shift_act ho ha).issues.context
    have next (c : ContextId) (hc : c ∈ (⟨m, move, m'⟩ : Move S A V).issued?.toList) :=
      ho.issued?_next ha (Option.mem_toList.mp hc)
    rw [issued_snoc]
    refine ⟨List.pairwise_append.mpr ⟨ascending, ?_, ?_⟩, ?_, Nat.le_trans start onward⟩
    · cases (⟨m, move, m'⟩ : Move S A V).issued? <;> simp
    · intro c hc d hd
      obtain ⟨rfl, -⟩ := next d hd
      exact (range c hc).2
    · intro c hc
      rcases List.mem_append.mp hc with old | new
      · exact ⟨(range c old).1, Nat.lt_of_lt_of_le (range c old).2 onward⟩
      · obtain ⟨rfl, below⟩ := next c new
        exact ⟨start, below⟩

end History

/-! ## Live contexts -/

namespace Machine

/-- A context is live if it has a thread, or one is being asked for. -/
theorem Reachable.live_iff (h : Reachable (.empty r memory) m) (hr : r.live = []) :
    c ∈ m.registry.live ↔ (m.look (.context c)).isSome ∨
      ∃ a own s, m.look a = some (own, s) ∧ s.stage? = some (.launch c) := by
  refine ⟨h.manned hr c, ?_⟩
  rintro (there | ⟨a, own, s, hl, hs⟩)
  · obtain ⟨⟨own, s⟩, hl⟩ := Option.isSome_iff_exists.mp there
    exact (h.housed.thread hl).1.live
  · exact (h.housed.launch hl hs).live

/-- No context is entered twice. -/
theorem Reachable.live_nodup (h : Reachable (.empty r memory) m) (hr : r.live = []) : m.registry.live.Nodup := by
  induction h with
  | refl =>
    rw [show (Machine.empty r memory : Machine S A V).registry.live = r.live from rfl, hr]
    exact List.nodup_nil
  | @act m m' move h ha ih =>
    have entries := (aside_act h.ordered ha).entries
    generalize move.actor? = actor at entries
    cases entries with
    | same _ live => exact live ▸ ih
    | enter d name waker hl hst _ _ live =>
      rw [live]
      refine List.nodup_append.mpr ⟨ih, by simp, ?_⟩
      rintro c hc _ hd rfl
      obtain rfl := List.mem_singleton.mp hd
      -- Who has a number only has no thread, and nobody asks for one on its behalf.
      obtain ⟨-, absent, unique⟩ := h.ordered.newcomer hl (c := c) (Stance.newcomer?_stage _ |>.mpr (.inl hst))
      rcases (h.live_iff hr).mp hc with there | ⟨b, own, s, hlb, launches⟩
      · simp [absent] at there
      · obtain rfl := unique b own s hlb (s.newcomer?_stage.mpr (.inr launches))
        cases hl.symm.trans hlb
        cases hst.symm.trans launches
    | strike d _ live =>
      rw [live]
      exact ih.filter _

end Machine

/-- At rest the live contexts are those that have got their thread and whose body has not ended. -/
theorem History.live_iff (h : History (.empty r memory) moves m) (hr : r.live = []) (still : m.Still) :
    c ∈ m.registry.live ↔ c ∈ spawned moves ∧ c ∉ ended moves := by
  have resting := fun {a : Agent} {own : Option CogId} {s : Stance} (hl : m.look a = some (own, s)) =>
    still.resting h.reachable.ordered hl
  rw [h.reachable.live_iff hr]
  constructor
  · rintro (there | ⟨a, own, s, hl, hs⟩)
    · obtain ⟨⟨own, s⟩, hl⟩ := Option.isSome_iff_exists.mp there
      obtain ⟨come, left⟩ := h.muster.present hl
      refine ⟨come, fun gone => ?_⟩
      rw [left.mp gone] at hl
      rcases resting hl with ⟨_, e⟩ | ⟨_, _, _, e, -⟩ | ⟨_, e⟩ <;> cases e
    · rcases resting hl with ⟨_, rfl⟩ | ⟨_, _, _, rfl, -⟩ | ⟨_, rfl⟩ <;> cases hs
  · rintro ⟨come, going⟩
    refine .inl ?_
    by_contra absent
    exact going (h.muster.past come (by simpa using absent))

/-! ## Contexts that are counted -/

/-- A thread that is to ask for the thread of a context does so, unless it has something to tell first. -/
theorem Machine.launching (ha : m.act move = some m') (hact : move.actor? = some a)
    (ht : m.threads.get? a = some t) (hs : t.control.stance.stage? = some (.launch c)) :
    (∃ e, t.control = .starting (.launch c) e) ∨ ∀ b, m.look b = none → m'.look b = none := by
  obtain rfl := Action.step_of_actor hact
  have took := step_of ht (show m.step a = some m' from ha)
  generalize t.control = control at hs took ⊢
  cases took with
  | @starts stage e =>
    cases (e.stage?_stance stage).symm.trans hs
    exact .inl ⟨e, rfl⟩
  | tells =>
    refine .inr fun b absent => ?_
    rw [look_setControl, look_deliver, look_deliver]
    split
    · next e => rw [← e, absent]; rfl
    · exact absent
  | @awaits aw phase => cases phase <;> cases hs
  | _ => cases hs

/-- What a move that starts a context is to the thread that takes it. -/
theorem Machine.Ordered.spawned?_launches (ho : m.Ordered) (ha : m.act move = some m')
    (h : (⟨m, move, m'⟩ : Move S A V).spawned? = some c) :
    ∃ a t e, move.actor? = some a ∧ m.threads.get? a = some t ∧ t.control = .starting (.launch c) e := by
  obtain ⟨absent, born⟩ := (ho.spawned?_iff ha).mp h
  obtain ⟨a, own, s, s', turn, launches, -⟩ := Move.spawned?_turn h
  obtain ⟨acts, hl, -⟩ := Move.acts turn
  obtain ⟨t, ht, -, rfl⟩ := look_eq_some m a hl
  rcases Machine.launching ha acts ht launches with ⟨e, hk⟩ | idle
  · exact ⟨a, t, e, acts, ht, hk⟩
  · rw [idle _ absent] at born
    cases born

/-- A context whose entry is struck off has no thread. -/
theorem Machine.Reachable.struck (h : Reachable (.empty r memory) m) (ha : m.act move = some m')
    (same : m'.registry = m.registry.strike c) : m'.look (.context c) = none := by
  by_contra there
  obtain ⟨⟨own, s⟩, hl⟩ := Option.isSome_iff_exists.mp (Option.isSome_iff_ne_none.mpr there)
  have live := ((h.act ha).housed.thread hl).1.live
  rw [same] at live
  simp [Registry.strike] at live

/-- A context is counted as it gets its thread. -/
theorem Machine.Reachable.counts_started (h : Reachable (.empty r memory) m) (ha : m.act move = some m') :
    m'.registry.started = m.registry.started + (⟨m, move, m'⟩ : Move S A V).spawned?.toList.length := by
  have ho : m.Ordered := h.ordered
  have idle (hn : ∀ a t c e, move.actor? = some a → m.threads.get? a = some t → t.control ≠ .starting (.launch c) e) :
      (⟨m, move, m'⟩ : Move S A V).spawned? = none := by
    rw [Option.eq_none_iff_forall_ne_some]
    intro c hc
    obtain ⟨a, t, e, acts, ht, hk⟩ := ho.spawned?_launches ha hc
    exact hn a t c e acts ht hk
  -- The thread that takes the move does something else.
  have other {a : Agent} {t : Thread S A V} (hact : move.actor? = some a) (ht : m.threads.get? a = some t)
      (hn : ∀ c e, t.control ≠ .starting (.launch c) e) : (⟨m, move, m'⟩ : Move S A V).spawned? = none := by
    refine idle fun b t' c e hb ht' => ?_
    cases hact.symm.trans hb
    cases ht.symm.trans ht'
    exact hn c e
  have registers := registers_act ho ha
  generalize hact : move.actor? = actor at registers
  cases registers with
  | keeps same _ hn => rw [same, idle fun a t c e hb => hn a t c e (hact.symm.trans hb)]; rfl
  | numbers ht hk _ same => rw [same, other hact ht (by simp [hk])]; rfl
  | enters c ht hk same => rw [same, other hact ht (by simp [hk])]; rfl
  | @starts a t e k c ht hk _ _ same born =>
    have hl := look_eq m a ht
    rw [hk] at hl
    obtain ⟨-, absent, -⟩ := ho.newcomer hl (c := c) (Stance.newcomer?_stage _ |>.mpr (.inr (e.stage?_stance _)))
    rw [same, (ho.spawned?_iff ha).mpr ⟨absent, born⟩]
    rfl
  | @fails a t e k res c ht hk _ same =>
    have none : (⟨m, move, m'⟩ : Move S A V).spawned? = none := by
      rw [Option.eq_none_iff_forall_ne_some]
      intro d hd
      obtain ⟨b, t', e', acts, ht', hk'⟩ := ho.spawned?_launches ha hd
      cases hact.symm.trans acts
      cases ht.symm.trans ht'
      cases hk.symm.trans hk'
      obtain ⟨-, born⟩ := (ho.spawned?_iff ha).mp hd
      simp [h.struck ha same] at born
    rw [same, none]
    rfl
  | leaves c ht hk same => rw [same, other hact ht (by simp [hk])]; rfl
  | closes ht hn _ same => rw [same, other hact ht hn]; rfl
  | released same =>
    have none : (⟨m, move, m'⟩ : Move S A V).spawned? = none :=
      idle fun a _ _ _ hb => by cases hact.symm.trans hb
    rw [same, none]
    rfl

theorem History.counts_started (h : History (.empty r memory) moves m) :
    m.registry.started = r.started + (spawned moves).length := by
  induction h with
  | refl => rfl
  | act h ha ih => rw [spawned_snoc, List.length_append, h.reachable.counts_started ha, ih, Nat.add_assoc]

end ObjectGroups
