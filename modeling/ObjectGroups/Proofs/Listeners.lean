/-
What listeners are told of a task.

A listener that has been registered before a cog knows of a task is told of
the task what there is to tell, whatever the other listeners make of it: of
the submission just if it is accepted, and of all suspensions, resumptions and
the end in the order in which they have come. What has been raised and not
been told yet is one notice at most, which its thread tells next.
-/
import ObjectGroups.Proofs.Additions
import ObjectGroups.Proofs.Deliveries
import ObjectGroups.Proofs.Narration

namespace ObjectGroups

variable {S A V : Type} {m : Machine S A V} {a : Agent} {g : CogId} {c : ContextId} {i : TaskId}
  {moves earlier later : List (Move S A V)} {r : Registry} {memory : A}

open Machine Scheduler

/-! ## What is still to be told -/

/-- What a thread is about to tell of the cog, which is one notice or none. -/
def Machine.Due (m : Machine S A V) (g : CogId) (due : List Notice) : Prop :=
  due = [] ∨ ∃ a n, m.notice? a = some (g, n) ∧ due = [n]

/-- At rest, nothing is to be told. -/
theorem Machine.Due.of_still {due : List Notice} (h : m.Due g due) (still : m.Still) : due = [] := by
  rcases h with rfl | ⟨a, n, hn, -⟩
  · rfl
  · obtain ⟨t, ht, hn⟩ := Option.bind_eq_some_iff.mp hn
    cases hk : t.control with
    | notify g' n' after =>
      rcases still a with blocked | ⟨t', seat, b, ht', hk'⟩
      · simp [step, ht, hk] at blocked
      · cases ht.symm.trans ht'
        cases hk.symm.trans hk'
    | _ =>
      rw [hk] at hn
      cases hn

section
variable {n : Machine S A V} {P : CogId × Notice → Bool} {p : Nat} (h₀ : History (.empty r memory) earlier n)
  (h : History n later m) (hP : ∀ q, P q = true → q.1 = g) (listening : p < n.audience g)
include h₀ h hP listening

/-- What one thread has raised since a listener has been there, the listener has heard, but for what
is about to be told. -/
theorem History.heard_of_sole (none : ∀ e ∈ raised earlier, P e.2 = false)
    (sole : ∀ e ∈ raised (earlier ++ later), P e.2 = true → e.1 = a) :
    ∃ due, m.Due g due ∧
      ((raised (earlier ++ later)).filter (P ·.2)).map (·.2.2) = m.heard g p P ++ due := by
  have whole := h₀.trans h
  obtain ⟨-, heard⟩ := h.heard_since h₀.reachable hP listening
  have silent : ∀ e ∈ spoken earlier, P e.2 = false := fun e he => none e (h₀.raised_of_spoken he)
  have before : n.heard g p P = [] := by
    refine List.eq_nil_iff_forall_not_mem.mpr fun q hq => ?_
    obtain ⟨e, he, concerns, -⟩ := h₀.spoken_of_heard hq
    simp [silent e he] at concerns
  have spoken_later : (spoken (earlier ++ later)).filter (P ·.2) = (spoken later).filter (P ·.2) := by
    rw [spoken_append, List.filter_append, List.filter_eq_nil_iff.mpr fun e he => by simp [silent e he]]
    rfl
  refine ⟨((m.notice? a).toList.filter P).map (·.2), ?_, ?_⟩
  · cases hq : m.notice? a with
    | none => exact .inl rfl
    | some q =>
      cases concerns : P q with
      | false => exact .inl (by simp [concerns])
      | true => exact .inr ⟨a, q.2, by rw [hq, ← hP q concerns], by simp [concerns]⟩
  · have all := congrArg (List.map (·.2)) (whole.raised_of_sole sole)
    rw [List.map_append, List.map_map, List.map_map, spoken_later] at all
    rw [heard, before, List.nil_append]
    exact all

end

/-! ## Who speaks of a task -/

section
variable (h : History (.empty r memory) moves m)
include h

theorem History.claimed_nodup : (claimed g moves).Nodup := by
  cases hx : m.cogs.get? g with
  | none => simp [h.roll.1 hx]
  | some x => exact (List.nodup_append.mp (h.roll.2 hx).tidy.nodup).1

/-- A task has one host. -/
theorem History.host_unique {d : ContextId} (hc : (c, i) ∈ claims g moves) (hd : (d, i) ∈ claims g moves) : c = d :=
  congrArg Prod.fst (List.inj_on_of_nodup_map h.claimed_nodup hc hd rfl)

theorem History.known_of_claimed (hi : i ∈ claimed g moves) : (m.handle? g i).isSome := by
  cases hx : m.cogs.get? g with
  | none =>
    rw [h.roll.1 hx] at hi
    cases hi
  | some x =>
    rw [handle?_eq hx]
    exact (h.roll.2 hx).known.mpr (List.mem_append_left _ hi)

/-- Nothing has been raised about a task that the cog does not know. -/
theorem History.unraised (unknown : m.handle? g i = none) {e : Agent × CogId × Notice} (he : e ∈ raised moves) :
    about g i e.2 = false ∧ adds g i e.2 = false := by
  constructor
  · refine Bool.eq_false_iff.mpr fun concerns => ?_
    obtain ⟨rfl, rfl, added⟩ := about_iff.mp concerns
    obtain ⟨c, -, claimed⟩ := h.raised_by_host he added
    have known := h.known_of_claimed (List.mem_map.mpr ⟨_, claimed, rfl⟩)
    simp [unknown] at known
  · refine Bool.eq_false_iff.mpr fun concerns => ?_
    have one : e.2.2 ∈ additions g i moves := List.mem_map.mpr ⟨e, List.mem_filter.mpr ⟨he, concerns⟩, rfl⟩
    have count := h.length_additions (g := g) (i := i)
    split at count
    · next accepted =>
      have known := (h.kept_of_accepted accepted).1
      simp [unknown] at known
    · rw [List.length_eq_zero_iff.mp count] at one
      cases one

end

/-! ## What is told of a task -/

/-- What has been told of a task that has come so far: the words are right, and so are the views. -/
structure Recited (told : List Notice) (p : Passage) : Prop where
  tale : Tale told p
  word : p.Spelt (told.map (·.kind))
  suspensions : told.countP (·.suspends) = p.suspensions
  /-- The end is told once. -/
  finishes : told.countP (·.finishes) = if p.isOver then 1 else 0
  /-- Each view shows the suspensions that have been told by then. -/
  shown {before after : List Notice} {n : Notice} : told = before ++ n :: after →
    n.task.suspensions = (before ++ [n]).countP (·.suspends)

theorem Tale.recited {told : List Notice} {p : Passage} (h : Tale told p) : Recited told p where
  tale := h
  word := h.spelt
  suspensions := h.suspensions
  finishes := h.finishes
  shown e := (e ▸ h).shown

namespace Machine

variable (m : Machine S A V) (g : CogId) (i : TaskId)

/-- The task is suspended, which its host raises once it has started a context in its place. -/
def Owes (v : TaskView) (owed : List Notice) : Prop :=
  owed = [] ∨ ∃ c stage label, m.look (.context c) = some (some g, .hand stage i) ∧ v.guard = some label ∧
    owed = [{ kind := .suspended label, task := v }]

/-- What has been told of the task, together with what its host owes, tells what its view shows. -/
def Ongoing (told : List Notice) : Prop :=
  ∃ record p owed, (m.books g).records.get? i = some record ∧ record.view.passage? = some p ∧
    p.suspensions = record.view.suspensions ∧ m.Owes g i record.view owed ∧ Recited (told ++ owed) p

/-- The task has ended, as what has been told of it tells. It was `torn` if it was suspended then. -/
def Concluded (moves : List (Move S A V)) (told : List Notice) : Prop :=
  ∃ d n outcome torn, m.handle? g i = some d ∧ d.state = .finished ∧ d.outcome = some outcome ∧
    Recited told (.ended n outcome torn) ∧ (torn = true ↔ outcome = .aborted ∨ i ∈ stranded g moves)

theorem owes_of_seat {m : Machine S A V} {g : CogId} {i : TaskId} {s : Stance} {active : Bool}
    (hl : m.look (.context c) = some (some g, s)) (seat : s.seat? = some ⟨i, active⟩) (v : TaskView) :
    m.Owes g i v (s.owes v) := by
  unfold Stance.owes
  split
  · next k label hands guard => cases s with
    | hand stage =>
      cases hands
      cases seat
      exact .inr ⟨c, stage, label, hl, guard, rfl⟩
    | _ => cases hands
  · exact .inl rfl

end Machine

/-- A task that has been claimed is told of as far as it has come. -/
theorem History.told_of_claimed (h : History (.empty r memory) moves m) (hi : i ∈ claimed g moves) :
    m.Ongoing g i (events g i moves) ∨ m.Concluded g i moves (events g i moves) := by
  obtain ⟨d, hd⟩ := Option.isSome_iff_exists.mp (h.known_of_claimed hi)
  obtain ⟨x, hx, -⟩ := Option.bind_eq_some_iff.mp hd
  have attended := h.reachable.attended hx
  cases hr : x.scheduler.records.get? i with
  | none =>
    have ended := (attended.faithful.ended (handle?_eq hx ▸ hd) hr).1
    obtain ⟨n, outcome, torn, how, tale, ends⟩ := h.concluded hd ended
    exact .inr ⟨d, n, outcome, torn, hd, ended, how, tale.recited, ends⟩
  | some record =>
    have begun : record.view.state ≠ .queued := fun queued => by
      have waits : i ∈ x.scheduler.queued :=
        (h.roll.2 hx).tidy.queued ▸ mem_unstarted.mpr ⟨record, Table.mem_of_get? hr, queued⟩
      exact (List.nodup_append.mp (h.roll.2 hx).tidy.nodup).2.2 i hi i waits rfl
    obtain ⟨c, s, active, -, hl, seat⟩ := attended.begun hr begun
    rw [← books_eq hx] at hr
    obtain ⟨p, hp, tale⟩ := h.narrated hl seat hr
    exact .inl ⟨record, p, _, hr, hp, TaskView.suspensions_of_passage hp, owes_of_seat hl seat _, tale.recited⟩

/-- What a listener at this position is told of a task. -/
structure Informed (moves : List (Move S A V)) (m : Machine S A V) (g : CogId) (position : Nat) (i : TaskId) :
    Prop where
  /-- The listener has heard all that has been raised about the submission, but for what is due. -/
  submission : ∃ due, m.Due g due ∧ additions g i moves = m.heard g position (adds g i) ++ due
  once : (additions g i moves).length = if i ∈ accepted g moves then 1 else 0
  queued : ∀ n ∈ additions g i moves, n.task.state = .queued
  /-- It has heard all that has been raised about the task since, but for what is due. -/
  course : ∃ due, m.Due g due ∧ events g i moves = m.heard g position (about g i) ++ due
  /-- All of this is raised by the one host of the task. -/
  host : ∃ c, (∀ d, (d, i) ∈ claims g moves → d = c) ∧ ∀ e ∈ raised moves, about g i e.2 = true → e.1 = .context c
  unclaimed : i ∉ claimed g moves → events g i moves = []
  claimed : i ∈ claimed g moves → m.Ongoing g i (events g i moves) ∨ m.Concluded g i moves (events g i moves)
  /-- At rest nothing is due, and nothing is owed. -/
  rest : m.Still → (∀ due, m.Due g due → due = []) ∧ ∀ v owed, m.Owes g i v owed → owed = []

/-- All that is raised about the task is raised by one context. -/
theorem History.host (h : History (.empty r memory) moves m) (g : CogId) (i : TaskId) :
    ∃ c, (∀ d, (d, i) ∈ claims g moves → d = c) ∧ ∀ e ∈ raised moves, about g i e.2 = true → e.1 = .context c := by
  have mine {e : Agent × CogId × Notice} (he : e ∈ raised moves) (concerns : about g i e.2 = true) :
      ∃ d, e.1 = .context d ∧ (d, i) ∈ claims g moves := by
    obtain ⟨rfl, rfl, added⟩ := about_iff.mp concerns
    exact h.raised_by_host he added
  by_cases hi : ∃ c, (c, i) ∈ claims g moves
  · obtain ⟨c, hc⟩ := hi
    refine ⟨c, fun d hd => h.host_unique hd hc, fun e he concerns => ?_⟩
    obtain ⟨d, hd, claims⟩ := mine he concerns
    rw [hd, h.host_unique claims hc]
  · refine ⟨⟨0⟩, fun d hd => absurd ⟨d, hd⟩ hi, fun e he concerns => ?_⟩
    obtain ⟨d, -, claims⟩ := mine he concerns
    exact absurd ⟨d, claims⟩ hi

/-- The submission of a task is told of by one thread. -/
theorem History.submitter (h : History (.empty r memory) moves m) (g : CogId) (i : TaskId) :
    ∃ a, ∀ e ∈ raised moves, adds g i e.2 = true → e.1 = a := by
  have few : ((raised moves).filter (adds g i ·.2)).length ≤ 1 := by
    have count := h.length_additions (g := g) (i := i)
    rw [additions, List.length_map] at count
    split at count <;> omega
  have member {e : Agent × CogId × Notice} (he : e ∈ raised moves) (concerns : adds g i e.2 = true) :
      e ∈ (raised moves).filter (adds g i ·.2) := List.mem_filter.mpr ⟨he, concerns⟩
  generalize (raised moves).filter (adds g i ·.2) = told at few member
  cases told with
  | nil => exact ⟨.caller 0, fun e he concerns => absurd (member he concerns) List.not_mem_nil⟩
  | cons one rest =>
    obtain rfl : rest = [] := List.length_eq_zero_iff.mp (by simpa using few)
    exact ⟨one.1, fun e he concerns => congrArg Prod.fst (List.mem_singleton.mp (member he concerns))⟩

theorem Machine.Owes.of_still {v : TaskView} {owed : List Notice} (h : m.Owes g i v owed) (ho : m.Ordered)
    (still : m.Still) : owed = [] := by
  rcases h with rfl | ⟨c, stage, label, hl, -⟩
  · rfl
  · rcases still.resting ho hl with ⟨seat, e⟩ | ⟨seat, j, view, e, -⟩ | ⟨k, e⟩ <;> cases e

/-- In every run, whatever the listeners answer, one that has been registered before the cog knows
of a task is told of the task as it should be. -/
theorem listener_informed {n : Machine S A V} {position : Nat} (r : Registry) (memory : A)
    (h₀ : History (.empty r memory) earlier n) (h : History n later m) (listening : position < n.audience g)
    (unknown : n.handle? g i = none) : Informed (earlier ++ later) m g position i := by
  have whole := h₀.trans h
  obtain ⟨c, only, sole⟩ := whole.host g i
  obtain ⟨a, alone⟩ := whole.submitter g i
  constructor
  case submission =>
    exact h₀.heard_of_sole h (fun q hq => (adds_iff.mp hq).1) listening (fun e he => (h₀.unraised unknown he).2) alone
  case once => exact whole.length_additions
  case queued => exact whole.additions_queued
  case course =>
    exact h₀.heard_of_sole h (fun q hq => (about_iff.mp hq).1) listening (fun e he => (h₀.unraised unknown he).1) sole
  case host => exact ⟨c, only, sole⟩
  case unclaimed => exact whole.events_of_unclaimed
  case claimed => exact whole.told_of_claimed
  case rest =>
    intro still
    exact ⟨fun due hd => hd.of_still still, fun v owed ho => ho.of_still whole.reachable.ordered still⟩

/-- Of three listeners, one fails and one panics on every notice. -/
def listeningActions : List (Action Unit Unit Unit) :=
  [.found "cog" (), .listen ⟨1⟩ { answer := fun _ => .error (.listener "no") },
    .listen ⟨1⟩ { answer := fun _ => .panic .other }, .listen ⟨1⟩ { answer := fun _ => .ok () }]

/-- One task is resumed and completed, one is aborted, and one is refused. -/
def overheardActions : List (Action Unit Unit Unit) :=
  [.arrive (.submit ⟨1⟩ "resumed" (.await .always fun _ => .exit (.ok ())) fun _ =>
      .submit ⟨1⟩ "aborted" (.await (.future ⟨1⟩) fun _ => .exit (.ok ())) fun _ =>
        .request (.cancel ⟨2⟩) fun _ => .request .shutdown fun _ =>
          .submit ⟨1⟩ "refused" (.exit (.ok ())) fun _ => .exit (.ok ()))] ++
    [1, 2, 2].flatMap fun c =>
      List.replicate 7 (.step (.caller 1)) ++ List.replicate 20 (.step (.context ⟨c⟩))

def listening : Machine Unit Unit Unit :=
  listeningActions.foldl perform (.empty { namePrefix := "cog", admits := fun _ => true } ())

def overheard : Machine Unit Unit Unit := overheardActions.foldl perform listening

def overheardMoves : List (Move Unit Unit Unit) :=
  (Machine.empty { namePrefix := "cog", admits := fun _ => true } ()).moves listeningActions ++
    listening.moves overheardActions

theorem listener_informed_among_failing : overheard.Still ∧
    (∀ i ∈ [(⟨1⟩ : TaskId), ⟨2⟩, ⟨3⟩], Informed overheardMoves overheard ⟨1⟩ 2 i) ∧
    accepted ⟨1⟩ overheardMoves = [⟨1⟩, ⟨2⟩] ∧
    (overheard.heard ⟨1⟩ 2 (about ⟨1⟩ ⟨1⟩)).map (·.kind) =
      [.suspended "AlwaysGuard", .ready, .resumed "AlwaysGuard", .finished .completed] ∧
    (overheard.heard ⟨1⟩ 2 (about ⟨1⟩ ⟨2⟩)).map (·.kind) =
      [.suspended "future(resolved=false)", .finished .aborted] := by
  have before : History (.empty { namePrefix := "cog", admits := fun _ => true } ())
      ((Machine.empty { namePrefix := "cog", admits := fun _ => true } ()).moves listeningActions) listening :=
    history_moves _ listeningActions
  have since : History listening (listening.moves overheardActions) overheard := history_moves _ overheardActions
  have unknown : ∀ i ∈ [(⟨1⟩ : TaskId), ⟨2⟩, ⟨3⟩], listening.handle? ⟨1⟩ i = none := by decide +kernel
  refine ⟨by decide +kernel, fun i hi => ?_, by decide +kernel, by decide +kernel, by decide +kernel⟩
  exact listener_informed { namePrefix := "cog", admits := fun _ => true } () before since (by decide +kernel)
    (unknown i hi)

end ObjectGroups
