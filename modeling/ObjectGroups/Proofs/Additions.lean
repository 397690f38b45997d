/-
What listeners are told of submissions.

A submission that is accepted is told of, by the submitter, in the very move in
which it is accepted; one that is refused, and one that a panic has cut short,
are told of in no move. A task is accepted once, whatever names threads get.
-/
import ObjectGroups.Proofs.Tales

namespace ObjectGroups

variable {S A V : Type} {m m' : Machine S A V} {a : Agent} {g : CogId} {own : Option CogId}
  {t : Thread S A V} {k k' : Control S A V} {i : TaskId} {move : Action S A V} {moves : List (Move S A V)}
  {r : Registry} {memory : A} {s s' : Stance}

open Machine Scheduler

/-- Whether the notice says that the task `k` has been added to the cog `g`. -/
def adds (g : CogId) (k : TaskId) (p : CogId × Notice) : Bool :=
  p.1 = g && p.2.task.id = k && p.2.kind = .added

/-- What has been raised about the submission of the task. -/
def additions (g : CogId) (k : TaskId) (moves : List (Move S A V)) : List Notice :=
  ((raised moves).filter (adds g k ·.2)).map (·.2.2)

theorem adds_iff {p : CogId × Notice} : adds g i p = true ↔ p.1 = g ∧ p.2.task.id = i ∧ p.2.kind = .added := by
  simp [adds, and_assoc]

/-! ## One move -/

section
variable {seat seat' : Option Seat} {view : TaskView} {c : ContextId} (h : Utters m a own m' k k')
  (hs' : k'.stance = .body seat')
include h hs'

theorem Utters.adds_enrolled (hs : k.stance = .enrol seat g view) :
    k'.notice? = some (g, { kind := .added, task := view }) := by
  cases h with
  | tells => cases hs.symm.trans hs'
  | still _ idles =>
    have none := idles.letter
    rw [hs] at none
    cases none
  | enters =>
    cases hs
    rfl
  | submits => cases hs'
  | aborts _ hph => rcases hph with rfl | ⟨failure, rfl⟩ <;> cases hs
  | _ => cases hs

theorem Utters.adds_launched (hs : k.stance = .submit (.launch c) seat g view)
    (born : (m'.look (.context c)).isSome) : k'.notice? = some (g, { kind := .added, task := view }) := by
  cases h with
  | tells => cases hs.symm.trans hs'
  | still _ idles =>
    have same := idles.submits
    rw [hs, hs'] at same
    cases same
  | starts =>
    cases hs
    rfl
  | withdraws _ absent =>
    cases hs
    simp [absent c rfl] at born
  | forsakes _ absent =>
    cases hs
    simp [absent] at born
  | aborts _ hph => rcases hph with rfl | ⟨failure, rfl⟩ <;> cases hs
  | _ => cases hs

end

/-- A thread is about to tell of a new task just after its submission has been accepted. -/
theorem Utters.adds (h : Utters m a own m' k k') (hk : k.Single)
    (turn : (⟨m, move, m'⟩ : Move S A V).turn = some (a, own, k.stance, k'.stance)) :
    (∃ p, k'.notice? = some p ∧ ObjectGroups.adds g i p = true) ↔ (⟨m, move, m'⟩ : Move S A V).accepted? g = some i := by
  constructor
  · rintro ⟨p, hp, adds⟩
    obtain ⟨rfl, rfl, added⟩ := adds_iff.mp adds
    cases h with
    | tells => cases (hk _ _ _ rfl).symm.trans hp
    | still _ idles => cases idles.after.symm.trans hp
    | enters =>
      cases hp
      exact Move.accepted?_enrol turn
    | starts _ born =>
      cases hp
      exact Move.accepted?_launch turn born
    | suspends | handed | readies | resumes | aborts | completes | strands =>
      cases hp
      cases added
    | _ => cases hp
  · intro accepted
    unfold Move.accepted? at accepted
    split at accepted
    · next hv =>
      split at accepted
      · next hg =>
        obtain ⟨-, -, hs, hs'⟩ := by simpa using turn.symm.trans hv
        cases accepted
        exact ⟨_, h.adds_enrolled hs' hs, by simp [ObjectGroups.adds, hg]⟩
      · cases accepted
    · next hv =>
      split at accepted
      · next hg =>
        obtain ⟨-, -, hs, hs'⟩ := by simpa using turn.symm.trans hv
        cases accepted
        exact ⟨_, h.adds_launched hs' hs hg.2, by simp [ObjectGroups.adds, hg.1]⟩
      · cases accepted
    · cases accepted

section
variable (h : History (.empty r memory) moves m) (ha : m.act move = some m')
include h ha

/-- A move raises that a task has been added if it is the one in which the task is accepted. -/
theorem History.adds_iff_accepted :
    (∃ e, (⟨m, move, m'⟩ : Move S A V).raises? = some e ∧ adds g i e.2 = true) ↔
      (⟨m, move, m'⟩ : Move S A V).accepted? g = some i := by
  rcases h.reachable.says_act ha with ⟨-, silent, idle⟩ | ⟨a, t, k', rfl, ht, ht', utters⟩
  · simp [silent, Move.accepted?, idle]
  · have turn : (⟨m, .step a, m'⟩ : Move S A V).turn = some (a, t.cog, t.control.stance, k'.stance) := by
      simp [Move.turn, Action.actor?, look_eq m _ ht, look_eq m' _ ht']
    have raises : (⟨m, .step a, m'⟩ : Move S A V).raises? = k'.notice?.map fun p => (a, p) := by
      rw [← notice?_eq ht']
      rfl
    rw [← utters.adds (h.reachable.single ht) turn, raises]
    simp

/-- Nothing is offered to the cog when it has just accepted a task. -/
theorem History.unoffered_of_accepted (hi : (⟨m, move, m'⟩ : Move S A V).accepted? g = some i) (j : TaskId) :
    ¬ m'.Offers g j := by
  have ho := h.reachable.ordered
  have ho' := ho.act ha
  have shift := shift_act ho ha
  generalize hact : move.actor? = actor at shift
  cases shift.vantage ho g with
  | aside hb => cases (Beside.silent (v := ⟨m, move, m'⟩) hb).1.symm.trans hi
  | @deed a own loud s s' x x' ht hw hd =>
    rw [hd.accepted? hact ho ht] at hi
    cases hd.queues with
    | accept _ _ hlock => exact ho'.no_offers hw.here hlock j
    | forsake hs hs' =>
      rw [hs, hs'] at hi
      cases hi
    | same _ _ hp => cases hi.symm.trans hp
    | take _ _ _ _ _ _ hp => cases hi.symm.trans hp
    | offer _ _ _ _ _ _ hp => cases hi.symm.trans hp
    | withdraw _ _ _ hp => cases hi.symm.trans hp
  | grant _ hw hg =>
    cases hg <;> exact ho'.no_offers hw.here rfl j

omit h in
/-- What is offered to the cog has been offered before, or has been on its way into the queue. -/
theorem Machine.Ordered.offered_before (ho : m.Ordered) (hi : m'.Offers g i) :
    m.Offers g i ∨ ∃ a own s, m.look a = some (own, s) ∧ s.letter? = some i := by
  have ho' := ho.act ha
  have shift := shift_act ho ha
  generalize move.actor? = actor at shift
  cases shift.vantage ho g with
  | aside hb => exact .inl ((Beside.offers hb).mp hi)
  | @deed a own loud s s' x x' ht hw hd =>
    have hx' := hw.here
    cases hd.queues with
    | same hs hs' => exact .inl ((ht.offers hs hs').mp hi)
    | offer k _ _ letter _ hs' =>
      obtain ⟨b, own₁, s₁, hb, offers⟩ := hi
      rcases ht.cases hb with ⟨-, -, rfl⟩ | ⟨-, hb⟩
      · cases hs'.symm.trans offers
        exact .inr ⟨a, own, s, ht.before, letter⟩
      · exact .inl ⟨b, own₁, s₁, hb, offers⟩
    | take _ _ _ _ _ hlock => exact absurd hi (ho'.no_offers hx' hlock i)
    | accept _ _ hlock => exact absurd hi (ho'.no_offers hx' hlock i)
    | withdraw _ _ hlock => exact absurd hi (ho'.no_offers hx' hlock i)
    | forsake _ _ hlock => exact absurd hi (ho'.no_offers hx' hlock i)
  | grant _ hw hg =>
    cases hg <;> exact absurd hi (ho'.no_offers hw.here rfl i)

end

/-! ## Whole runs -/

/-- A task that is known to a cog is not on its way into a queue. -/
theorem History.not_letter (h : History (.empty r memory) moves m) (known : (m.handle? g i).isSome)
    (hl : m.look a = some (own, s)) : s.letter? ≠ some i := by
  obtain ⟨d, hd⟩ := Option.isSome_iff_exists.mp known
  obtain ⟨x, hx, hd⟩ := Option.bind_eq_some_iff.mp hd
  have roll := h.roll.2 hx
  exact (roll.posted i (roll.known.mp (Option.isSome_iff_exists.mpr ⟨d, hd⟩))).arrived a own s hl

/-- A cog knows the tasks that it has accepted, and none of them can be taken back. -/
theorem History.kept_of_accepted (h : History (.empty r memory) moves m) (hi : i ∈ accepted g moves) :
    (m.handle? g i).isSome ∧ ¬ m.Offers g i := by
  induction h with
  | refl => cases hi
  | @act moves m m' move h ha ih =>
    rw [accepted_snoc] at hi
    rcases List.mem_append.mp hi with old | new
    · obtain ⟨known, firm⟩ := ih old
      obtain ⟨d, hd⟩ := Option.isSome_iff_exists.mp known
      constructor
      · obtain ⟨d', hd', -⟩ := (h.lifts ha hd).resolve_right firm
        simp [hd']
      · intro offered
        rcases h.reachable.ordered.offered_before ha offered with offers | ⟨a, own, s, hl, letter⟩
        · exact firm offers
        · exact h.not_letter known hl letter
    · have new := Option.mem_toList.mp new
      exact ⟨by simp [h.handle_of_accepted ha new], h.unoffered_of_accepted ha new i⟩

/-- A task is accepted once. -/
theorem History.accepted_nodup (h : History (.empty r memory) moves m) : (accepted g moves).Nodup := by
  induction h with
  | refl => exact List.nodup_nil
  | @act moves m m' move h ha ih =>
    rw [accepted_snoc]
    cases hi : (⟨m, move, m'⟩ : Move S A V).accepted? g with
    | none => simpa using ih
    | some i =>
      have fresh : i ∉ accepted g moves := by
        intro old
        obtain ⟨known, firm⟩ := h.kept_of_accepted old
        obtain ⟨a, own, s, seat, turn, ⟨seat', view, rfl, rfl⟩ | offers⟩ := Move.accepted?_turn hi
        · exact h.not_letter known (Move.acts turn).2.1 rfl
        · exact firm ⟨a, own, s, (Move.acts turn).2.1, offers⟩
      refine List.nodup_append.mpr ⟨ih, List.nodup_singleton i, fun j hj l hl e => fresh ?_⟩
      rwa [← List.mem_singleton.mp hl, ← e]

/-- What has been accepted has been raised once, and nothing else has. -/
theorem History.length_additions (h : History (.empty r memory) moves m) :
    (additions g i moves).length = if i ∈ accepted g moves then 1 else 0 := by
  have once : (additions g i moves).length = (accepted g moves).count i := by
    induction h with
    | refl => rfl
    | @act moves m m' move h ha ih =>
      have new := h.adds_iff_accepted (g := g) (i := i) ha
      rw [additions, raised_snoc, List.filter_append, List.map_append, List.length_append, accepted_snoc,
        List.count_append, ← ih]
      congr 1
      by_cases accepts : (⟨m, move, m'⟩ : Move S A V).accepted? g = some i
      · obtain ⟨e, he, adds⟩ := new.mpr accepts
        rw [he, accepts]
        simp [adds]
      · have silent : ((⟨m, move, m'⟩ : Move S A V).raises?.toList.filter (adds g i ·.2)) = [] :=
          List.filter_eq_nil_iff.mpr fun e he adds => accepts (new.mp ⟨e, Option.mem_toList.mp he, adds⟩)
        rw [silent, List.count_eq_zero_of_not_mem fun hi => accepts (Option.mem_toList.mp hi)]
        rfl
  rw [once]
  split
  · next hi => exact List.count_eq_one_of_mem h.accepted_nodup hi
  · next hi => exact List.count_eq_zero_of_not_mem hi

/-! ## What is shown of a new task -/

theorem Stance.submit_of_restage {stage stage' : Stage} {seat : Option Seat} {view : TaskView}
    (h : .submit stage seat g view = s.restage stage') : ∃ stage, s = .submit stage seat g view := by
  cases s with
  | submit stage =>
    cases h
    exact ⟨stage, rfl⟩
  | _ => cases h

/-- While a context is started for a task, its submitter has the view of a new task. -/
theorem Machine.Reachable.submitted {P : TaskView → Prop}
    (new : ∀ (k : TaskId) name (g : CogId) now, P { id := k, name, cog := g, submittedAt := now })
    (h : Reachable (.empty r memory) m) {stage : Stage} {seat : Option Seat} {view : TaskView}
    (hl : m.look a = some (own, .submit stage seat g view)) : P view := by
  induction h generalizing a own stage with
  | refl => cases hl
  | @act m m' move h ha ih =>
    have shift := shift_act h.ordered ha
    rcases shift.came hl with ⟨hact, s₀, hl₀⟩ | hl₀ | e | e
    · rw [hact] at shift
      obtain ⟨-, passes⟩ := shift.passes hl₀ hl
      generalize hs : Stance.submit stage seat g view = s at passes
      have staged {stage' : Stage} (e : Stance.submit stage seat g view = s₀.restage stage') : P view := by
        obtain ⟨stage₀, rfl⟩ := Stance.submit_of_restage e
        exact ih hl₀
      cases passes with
      | quiet hq => cases hq with
        | same =>
          subst hs
          exact ih hl₀
        | enter => exact staged hs
        | _ => cases hs
      | deed hd => cases hd with
        | submit =>
          cases hs
          exact Reachable.enrolled new h hl₀
        | _ => cases hs
      | allocate => exact staged hs
      | grant hg => cases hg <;> cases hs
      | launch => cases hs
      | letter => cases hs
    · exact ih hl₀
    · cases e
    · cases e

/-- Who tells of a new task shows it as queued. -/
theorem History.additions_queued (h : History (.empty r memory) moves m) :
    ∀ n ∈ additions g i moves, n.task.state = .queued := by
  induction h with
  | refl =>
    intro n hn
    cases hn
  | @act moves m m' move h ha ih =>
    intro n hn
    rw [additions, raised_snoc, List.filter_append, List.map_append, List.mem_append] at hn
    rcases hn with old | new
    · exact ih n old
    · obtain ⟨e, he, rfl⟩ := List.mem_map.mp new
      obtain ⟨he, concerns⟩ := List.mem_filter.mp he
      obtain ⟨-, -, added⟩ := adds_iff.mp concerns
      have raises := Option.mem_toList.mp he
      rcases h.reachable.says_act ha with ⟨-, silent, -⟩ | ⟨a, t, k', rfl, ht, ht', utters⟩
      · cases silent.symm.trans raises
      · obtain ⟨hact, after⟩ := Move.raises?_eq_some.mp raises
        obtain rfl : a = e.1 := Option.some.inj hact
        have after := (notice?_eq ht').symm.trans after
        have hl := look_eq m _ ht
        have new (k : TaskId) (name : String) (g : CogId) (now : Instant) :
            ({ id := k, name, cog := g, submittedAt := now } : TaskView).state = .queued := rfl
        have single := h.reachable.single ht
        generalize t.control = k at utters hl single
        generalize e.2 = p at after added
        cases utters with
        | tells => cases (single _ _ _ rfl).symm.trans after
        | still _ idles => cases idles.after.symm.trans after
        | enters =>
          cases after
          exact Reachable.enrolled (P := fun v => v.state = .queued) new h.reachable hl
        | starts =>
          cases after
          exact Reachable.submitted (P := fun v => v.state = .queued) new h.reachable hl
        | suspends | handed | readies | resumes | aborts | completes | strands =>
          cases after
          cases added
        | _ => cases after

end ObjectGroups
