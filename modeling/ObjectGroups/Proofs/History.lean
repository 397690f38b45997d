/-
Runs together with all that has happened in them.

`Reachable` tells where a run can lead; a `History` keeps its moves as well,
each with the machine before and after. What a move means for a cog is read
off the thread that takes it: a submission is accepted when the submitter goes
on with the task in the queue, and a task is claimed when a context between
tasks goes on with its body.
-/
import ObjectGroups.Proofs.Vantage

namespace ObjectGroups

variable {S A V : Type} {start m m' : Machine S A V} {a : Agent} {g : CogId}
  {own : Option CogId} {s s' : Stance} {x x' : Cog S A V} {act : Action S A V}

/-- An action that has happened. -/
structure Move (S A V : Type) where
  before : Machine S A V
  act : Action S A V
  after : Machine S A V

inductive History (start : Machine S A V) : List (Move S A V) → Machine S A V → Prop where
  | refl : History start [] start
  | act {moves : List (Move S A V)} {m m' : Machine S A V} {x : Action S A V} :
      History start moves m → m.act x = some m' → History start (moves ++ [⟨m, x, m'⟩]) m'

namespace History

variable {moves later : List (Move S A V)}

theorem reachable (h : History start moves m) : Machine.Reachable start m := by
  induction h with
  | refl => exact .refl
  | act _ hx ih => exact .act ih hx

/-- What has happened so far stays: each part of a history is one. -/
theorem split (h : History start (moves ++ later) m) :
    ∃ n, History start moves n ∧ History n later m := by
  generalize e : moves ++ later = all at h
  induction h generalizing later with
  | refl =>
    obtain ⟨rfl, rfl⟩ := List.append_eq_nil_iff.mp e
    exact ⟨_, .refl, .refl⟩
  | @act before n n' x h hx ih =>
    rcases List.eq_nil_or_concat later with rfl | ⟨init, last, rfl⟩
    · rw [List.append_nil] at e
      exact ⟨n', e ▸ .act h hx, .refl⟩
    · rw [List.concat_eq_append, ← List.append_assoc] at e
      obtain ⟨parts, e⟩ := List.append_inj' e rfl
      obtain rfl := List.singleton_inj.mp e
      obtain ⟨k, hk, rest⟩ := ih parts
      exact ⟨k, hk, List.concat_eq_append ▸ .act rest hx⟩

/-- A move of a history is an action on what the moves before it have led to. -/
theorem at_move {v : Move S A V} (h : History start (moves ++ v :: later) m) :
    History start moves v.before ∧ v.before.act v.act = some v.after ∧ History v.after later m := by
  have last {n : Machine S A V} (h : History start (moves ++ [v]) n) :
      History start moves v.before ∧ v.before.act v.act = some v.after ∧ v.after = n := by
    generalize e : moves ++ [v] = all at h
    cases h with
    | refl => simp at e
    | act before hx =>
      obtain ⟨rfl, last⟩ := List.append_inj' e rfl
      obtain rfl := List.singleton_inj.mp last
      exact ⟨before, hx, rfl⟩
  rw [List.append_cons] at h
  obtain ⟨n, first, rest⟩ := h.split
  obtain ⟨before, hx, rfl⟩ := last first
  exact ⟨before, hx, rest⟩

theorem trans {m'' : Machine S A V} (h : History start moves m') (h' : History m' later m'') :
    History start (moves ++ later) m'' := by
  induction h' with
  | refl => simpa using h
  | act _ hx ih =>
    rw [← List.append_assoc]
    exact .act ih hx

theorem join {n n' : Machine S A V} {x : Action S A V} (h : History start moves n) (hx : n.act x = some n')
    (h' : History n' later m) : History start (moves ++ ⟨n, x, n'⟩ :: later) m := by
  rw [List.append_cons]
  exact (History.act h hx).trans h'

end History

/-- The moves that come of the actions, tried in turn. -/
def Machine.moves (m : Machine S A V) : List (Action S A V) → List (Move S A V)
  | [] => []
  | x :: acts => match m.act x with
    | some m' => ⟨m, x, m'⟩ :: m'.moves acts
    | none => m.moves acts

theorem Machine.history_moves (m : Machine S A V) (acts : List (Action S A V)) :
    History m (m.moves acts) (acts.foldl perform m) := by
  induction acts generalizing m with
  | nil => exact .refl
  | cons x acts ih =>
    simp only [moves, List.foldl_cons, perform]
    cases hx : m.act x with
    | none => exact ih m
    | some m' =>
      have first : History m [⟨m, x, m'⟩] m' := .act .refl hx
      exact first.trans (ih m')

theorem Machine.act_perform {x : Action S A V} (h : (m.act x).isSome) : m.act x = some (m.perform x) := by
  obtain ⟨m', hx⟩ := Option.isSome_iff_exists.mp h
  simp [perform, hx]

namespace Move

variable (g) (v : Move S A V)

/-- The thread that acts, its cog, and its stance before and after. -/
def turn : Option (Agent × Option CogId × Stance × Stance) :=
  v.act.actor?.bind fun a => (v.before.look a).bind fun p => (v.after.look a).map fun q =>
    (a, p.1, p.2, q.2)

/-- The task that the cog accepts in this move. It is in the queue, and the cog has an
active context to run it: there was one, or it has just been started. -/
def accepted? : Option TaskId :=
  match v.turn with
  | some (_, _, .enrol _ h view, .body _) => if h = g then some view.id else none
  | some (_, _, .submit (.launch c) _ h view, .body _) =>
    if h = g ∧ (v.after.look (.context c)).isSome then some view.id else none
  | _ => none

/-- The context of the cog that claims a task in this move, and the task. -/
def claimed? : Option (ContextId × TaskId) :=
  match v.turn with
  | some (.context c, some h, .claim, .body (some seat)) => if h = g then some (c, seat.task) else none
  | _ => none

variable {g v} {t : TaskId} {c : ContextId}

theorem accepted?_turn (h : v.accepted? g = some t) : ∃ a own s seat, v.turn = some (a, own, s, .body seat) ∧
    ((∃ seat view, s = .enrol seat g view ∧ view.id = t) ∨ s.offers g = some t) := by
  unfold accepted? at h
  split at h
  · next a own seat i view seat' hv =>
    split at h
    · next hi =>
      cases h
      exact ⟨a, own, _, seat', hv, .inl ⟨seat, view, hi ▸ rfl, rfl⟩⟩
    · cases h
  · next a own d seat i view seat' hv =>
    split at h
    · next hi =>
      cases h
      exact ⟨a, own, _, seat', hv, .inr (by simp [Stance.offers, hi.1])⟩
    · cases h
  · cases h

theorem accepted?_enrol {seat seat' : Option Seat} {view : TaskView}
    (hv : v.turn = some (a, own, .enrol seat g view, .body seat')) :
    v.accepted? g = some view.id := by
  simp [accepted?, hv]

theorem accepted?_launch {seat seat' : Option Seat} {view : TaskView}
    (hv : v.turn = some (a, own, .submit (.launch c) seat g view, .body seat'))
    (hc : (v.after.look (.context c)).isSome) : v.accepted? g = some view.id := by
  simp [accepted?, hv, hc]

theorem claimed?_turn (h : v.claimed? g = some (c, t)) :
    ∃ active, v.turn = some (.context c, some g, .claim, .body (some ⟨t, active⟩)) := by
  unfold claimed? at h
  split at h
  · next d i seat hv =>
    split at h
    · next hi =>
      cases h
      exact ⟨seat.active, hi ▸ hv⟩
    · cases h
  · cases h

end Move

/-- The tasks that the cog has accepted, in order. -/
def accepted (g : CogId) (moves : List (Move S A V)) : List TaskId :=
  moves.filterMap (Move.accepted? g)

/-- The claims of the cog's contexts, in order. -/
def claims (g : CogId) (moves : List (Move S A V)) : List (ContextId × TaskId) :=
  moves.filterMap (Move.claimed? g)

/-- The tasks that have been claimed, in order. -/
def claimed (g : CogId) (moves : List (Move S A V)) : List TaskId := (claims g moves).map (·.2)

theorem accepted_snoc (moves : List (Move S A V)) (v : Move S A V) :
    accepted g (moves ++ [v]) = accepted g moves ++ (v.accepted? g).toList := by
  unfold accepted
  rw [List.filterMap_append]
  cases h : v.accepted? g <;> simp [h]

theorem claims_append (moves later : List (Move S A V)) :
    claims g (moves ++ later) = claims g moves ++ claims g later := List.filterMap_append ..

theorem claims_snoc (moves : List (Move S A V)) (v : Move S A V) :
    claims g (moves ++ [v]) = claims g moves ++ (v.claimed? g).toList := by
  rw [claims_append]
  cases h : v.claimed? g <;> simp [claims, h]

theorem claimed_snoc (moves : List (Move S A V)) (v : Move S A V) :
    claimed g (moves ++ [v]) = claimed g moves ++ ((v.claimed? g).map (·.2)).toList := by
  unfold claimed
  rw [claims_snoc, List.map_append]
  cases v.claimed? g <;> rfl

/-! ## What a move is to the cog -/

section
variable (hact : act.actor? = some a)
include hact

theorem Turns.turn (h : Turns m a own s s' m') :
    (⟨m, act, m'⟩ : Move S A V).turn = some (a, own, s, s') := by
  simp [Move.turn, hact, h.before, h.after]

theorem Births.turn {c : ContextId} {cog : Option CogId} {first : Stance}
    (h : Births m a own s s' c cog first m') :
    (⟨m, act, m'⟩ : Move S A V).turn = some (a, own, s, s') := by
  simp [Move.turn, hact, h.before, h.after]

end

/-- The thread whose turn it is acts, and is there before and after. -/
theorem Move.acts {v : Move S A V} (h : v.turn = some (a, own, s, s')) :
    v.act.actor? = some a ∧ v.before.look a = some (own, s) ∧ ∃ own', v.after.look a = some (own', s') := by
  simp only [Move.turn, Option.bind_eq_some_iff, Option.map_eq_some_iff, Prod.mk.injEq] at h
  obtain ⟨b, hact, ⟨own₁, s₁⟩, hl, ⟨own₂, s₂⟩, hl', rfl, rfl, rfl, rfl⟩ := h
  exact ⟨hact, hl, own₂, hl'⟩

/-- To the cog, the thread that acts beside it goes nowhere. -/
theorem Beside.alike {v : Move S A V} (h : ∀ b, Beside g (v.before.look b) (v.after.look b))
    (hv : v.turn = some (a, own, s, s')) : Stance.Alike g own s s' := by
  obtain ⟨-, hl, own', hl'⟩ := Move.acts hv
  have beside := h a
  rw [hl, hl'] at beside
  cases beside with
  | stays same => exact same

/-- Nothing is accepted or claimed beside the cog. -/
theorem Beside.silent {v : Move S A V} (h : ∀ b, Beside g (v.before.look b) (v.after.look b)) :
    v.accepted? g = none ∧ v.claimed? g = none := by
  have alike {a : Agent} {own : Option CogId} {s s' : Stance} (hv : v.turn = some (a, own, s, s')) :=
    Beside.alike h hv
  constructor
  · rw [Option.eq_none_iff_forall_ne_some]
    intro t ht
    obtain ⟨a, own, s, seat, hv, ⟨seat', view, rfl, -⟩ | ho⟩ := Move.accepted?_turn ht
    · have same := (alike hv).enrols seat' view rfl
      cases same
    · have same := (alike hv).offers
      rw [ho] at same
      cases same
  · rw [Option.eq_none_iff_forall_ne_some]
    rintro ⟨c, t⟩ ht
    obtain ⟨active, hv⟩ := Move.claimed?_turn ht
    have same := ((alike hv).claim rfl).mpr rfl
    cases same

/-- What a deed adds to what has been accepted. -/
def Stance.posts : Stance → Stance → Option TaskId
  | .enrol _ _ view, .body _ => some view.id
  | _, _ => none

/-- What a deed adds to what has been claimed. -/
def Stance.claims : Stance → Stance → Option TaskId
  | .claim, .body seat => seat.map (·.task)
  | _, _ => none

theorem Deed.accepted? {loud : Bool} (hact : act.actor? = some a) (ho : m.Ordered)
    (ht : Turns m a own s s' m') (h : Deed g a own loud s x s' x') :
    (⟨m, act, m'⟩ : Move S A V).accepted? g = s.posts s' := by
  have turn := ht.turn hact
  have unborn {c : ContextId} (hs : s.stage? = some (.launch c)) : m'.look (.context c) = none := by
    obtain ⟨-, absent, -⟩ := ho.newcomer ht.before (c := c) (by simp [Stance.newcomer?, hs])
    exact ht.absent absent
  cases h with
  | @withdraw _ _ stage | @unwindSubmit _ _ stage =>
    cases stage with
    | launch c => simp [Move.accepted?, turn, unborn rfl, Stance.posts]
    | _ => simp [Move.accepted?, turn, Stance.posts]
  | abort now hs => rcases hs with rfl | ⟨rfl, -⟩ <;> simp [Move.accepted?, turn, Stance.posts]
  | _ => simp [Move.accepted?, turn, Stance.posts]

theorem Deed.claimed? {loud : Bool} (hact : act.actor? = some a) (ht : Turns m a own s s' m')
    (h : Deed g a own loud s x s' x') :
    (s.claims s' = none ∧ (⟨m, act, m'⟩ : Move S A V).claimed? g = none) ∨
      ∃ c t, a = .context c ∧ s.claims s' = some t ∧
        (⟨m, act, m'⟩ : Move S A V).claimed? g = some (c, t) := by
  have turn := ht.turn hact
  cases h with
  | @take c _ t => exact .inr ⟨c, t, rfl, rfl, by simp [Move.claimed?, turn]⟩
  | abort now hs => rcases hs with rfl | ⟨rfl, -⟩ <;> exact .inl ⟨rfl, by simp [Move.claimed?, turn]⟩
  | _ => exact .inl ⟨rfl, by simp [Move.claimed?, turn]⟩

theorem Deed.claimed_task {loud : Bool} (hact : act.actor? = some a) (ht : Turns m a own s s' m')
    (h : Deed g a own loud s x s' x') :
    ((⟨m, act, m'⟩ : Move S A V).claimed? g).map (·.2) = s.claims s' := by
  rcases h.claimed? hact ht with ⟨none, e⟩ | ⟨c, t, -, some, e⟩
  · rw [none, e]
    rfl
  · rw [some, e]
    rfl

/-- A thread hosts the task that it hosted before, or one it has just claimed. -/
theorem Deed.seat {loud : Bool} (h : Deed g a own loud s x s' x') {t : TaskId} {active : Bool}
    (hs : s'.seat? = some ⟨t, active⟩) :
    (∃ active, s.seat? = some ⟨t, active⟩) ∨ s.claims s' = some t := by
  cases h with
  | abort now hst =>
    rcases hst with rfl | ⟨rfl, -⟩ <;> exact .inl ⟨active, hs⟩
  | take =>
    cases hs
    exact .inr rfl
  | _ => simp_all [Stance.seat?]

/-- A submission is accepted as its context gets its thread. -/
theorem Grant.silent {c : ContextId} {cog : Option CogId} {first : Stance}
    (hact : act.actor? = some a) (hb : Births m a own s s' c cog first m')
    (h : Grant g c a own s x s' x') :
    (⟨m, act, m'⟩ : Move S A V).accepted? g = s.offers g ∧
      (⟨m, act, m'⟩ : Move S A V).claimed? g = none := by
  have turn := hb.turn hact
  cases h with
  | submission => simp [Move.accepted?, Move.claimed?, turn, hb.born, Stance.offers]
  | handover => simp [Move.accepted?, Move.claimed?, turn, Stance.offers]

/-! ## Books of one cog -/

/-- The books of a cog; one that has not been founded has empty books. -/
def Machine.books (m : Machine S A V) (g : CogId) : Scheduler S A V :=
  ((m.cogs.get? g).map (·.scheduler)).getD {}

theorem Machine.books_eq (hx : m.cogs.get? g = some x) : m.books g = x.scheduler := by
  simp [books, hx]

/-- What happens beside the cog is nothing to its books. -/
theorem Machine.books_aside
    (h : (m.cogs.get? g = none ∧ ∀ x', m'.cogs.get? g = some x' → x'.scheduler = {} ∧ x'.lock = none) ∨
      ∃ x x', m.cogs.get? g = some x ∧ m'.cogs.get? g = some x' ∧ x'.scheduler = x.scheduler ∧ x'.lock = x.lock) :
    m'.books g = m.books g := by
  rcases h with ⟨absent, new⟩ | ⟨y, y', hy, hy', same, -⟩
  · cases hx' : m'.cogs.get? g with
    | none => simp [books, hx', absent]
    | some x' => simp [books, hx', absent, (new x' hx').1]
  · rw [books_eq hy, books_eq hy', same]

/-- What holds of empty books, and is kept by whatever happens in the cog and beside it, holds of
the books of the cog in every run. -/
theorem History.books {moves : List (Move S A V)} {r : Registry} {memory : A}
    {P : List (Move S A V) → Scheduler S A V → Prop} (h : History (.empty r memory) moves m) (start : P [] {})
    (aside : ∀ {moves : List (Move S A V)} {v : Move S A V}, History (.empty r memory) moves v.before →
      v.before.act v.act = some v.after → (∀ b, Beside g (v.before.look b) (v.after.look b)) →
        P moves (v.before.books g) → P (moves ++ [v]) (v.before.books g))
    (deed : ∀ {moves : List (Move S A V)} {m m' : Machine S A V} {move : Action S A V} {a : Agent}
      {own : Option CogId} {loud : Bool} {s s' : Stance} {x x' : Cog S A V},
      History (.empty r memory) moves m → m.act move = some m' → move.actor? = some a →
        Turns m a own s s' m' → Works m g x x' m' → Deed g a own loud s x s' x' → P moves x.scheduler →
          P (moves ++ [⟨m, move, m'⟩]) x'.scheduler)
    (grant : ∀ {moves : List (Move S A V)} {m m' : Machine S A V} {move : Action S A V} {a : Agent}
      {own : Option CogId} {c : ContextId} {s s' : Stance} {x x' : Cog S A V},
      History (.empty r memory) moves m → m.act move = some m' → move.actor? = some a →
        Births m a own s s' c (some g) .claim m' → Works m g x x' m' → Grant g c a own s x s' x' →
          P moves x.scheduler → P (moves ++ [⟨m, move, m'⟩]) x'.scheduler) :
    P moves (m.books g) := by
  induction h with
  | refl => exact start
  | @act moves m m' move h ha ih =>
    have there {y y' : Cog S A V} (hw : Works m g y y' m') : m'.books g = y'.scheduler :=
      Machine.books_eq hw.here
    have shift := Machine.shift_act h.reachable.ordered ha
    generalize hact : move.actor? = actor at shift
    cases shift.vantage h.reachable.ordered g with
    | aside hb hx =>
      rw [Machine.books_aside hx]
      exact aside (v := ⟨m, move, m'⟩) h ha hb ih
    | deed ht hw hd =>
      rw [there hw]
      exact deed h ha hact ht hw hd (Machine.books_eq hw.before ▸ ih)
    | grant hb hw hg =>
      rw [there hw]
      exact grant h ha hact hb hw hg (Machine.books_eq hw.before ▸ ih)

/-! ## Who hosts a task has claimed it -/

/-- A thread that hosts a task has hosted it before, or has just claimed it. -/
theorem Machine.Ordered.hosted_or_claimed (ho : m.Ordered) (ha : m.act act = some m') {c : ContextId}
    {t : TaskId} {active : Bool} (hl : m'.look (.context c) = some (some g, s))
    (hs : s.seat? = some ⟨t, active⟩) :
    (∃ s₀ active', m.look (.context c) = some (some g, s₀) ∧ s₀.seat? = some ⟨t, active'⟩) ∨
      (⟨m, act, m'⟩ : Move S A V).claimed? g = some (c, t) := by
  have shift := Machine.shift_act ho ha
  generalize hact : act.actor? = actor at shift
  cases shift.vantage ho g with
  | aside hb =>
    rcases (hb (.context c)).before hl with ⟨s₀, hl₀, alike⟩ | ⟨other, -⟩
    · exact .inl ⟨s₀, active, hl₀, (alike.seat rfl).symm.trans hs⟩
    · exact absurd rfl other
  | deed ht _ hd =>
    rcases ht.cases hl with ⟨rfl, rfl, rfl⟩ | ⟨-, hl⟩
    · rcases hd.seat hs with ⟨active', hs'⟩ | claims
      · exact .inl ⟨_, active', ht.before, hs'⟩
      · rcases hd.claimed? hact ht with ⟨none, -⟩ | ⟨d, k, e, some, claimed⟩
        · rw [claims] at none
          cases none
        · cases e
          cases claims.symm.trans some
          exact .inr claimed
    · exact .inl ⟨s, active, hl, hs⟩
  | grant hb _ hg =>
    rcases hb.cases hl with ⟨rfl, rfl, rfl⟩ | ⟨-, -, -, rfl⟩ | ⟨-, -, hl⟩
    · cases hg with
      | submission => exact .inl ⟨_, active, hb.before, hs⟩
      | handover => exact .inl ⟨_, active, hb.before, hs⟩
    · cases hs
    · exact .inl ⟨s, active, hl, hs⟩

theorem History.hosting {moves : List (Move S A V)} {r : Registry} {memory : A}
    (h : History (.empty r memory) moves m) {c : ContextId} {t : TaskId} {active : Bool}
    (hl : m.look (.context c) = some (some g, s)) (hs : s.seat? = some ⟨t, active⟩) :
    (c, t) ∈ claims g moves := by
  induction h generalizing s active with
  | refl => cases hl
  | act h ha ih =>
    rw [claims_snoc]
    rcases h.reachable.ordered.hosted_or_claimed ha hl hs with ⟨s₀, active', hl₀, hs₀⟩ | claimed
    · exact List.mem_append_left _ (ih hl₀ hs₀)
    · rw [claimed]
      exact List.mem_append_right _ List.mem_cons_self

end ObjectGroups
