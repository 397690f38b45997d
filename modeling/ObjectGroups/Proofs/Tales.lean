/-
What listeners are told of a task.

Between the critical sections that it goes through, the thread that hosts a
task raises one notice after another. `Tale` says which sequences there are,
and what the view in each notice shows. A thread has at most one notice to
tell, and tells it next, so what has been told of a task is what has been
raised, but for this one.
-/
import ObjectGroups.Proofs.Accounting
import ObjectGroups.Proofs.Readiness

namespace ObjectGroups

variable {S A V : Type} {m m' : Machine S A V} {a b : Agent} {g : CogId} {c : ContextId}
  {own : Option CogId} {x x' : Cog S A V} {t t' : Thread S A V} {k k' : Control S A V} {i j : TaskId}
  {move : Action S A V} {moves : List (Move S A V)} {n : Notice} {r : Registry} {memory : A}

open Machine Scheduler

/-! ## Tales -/

/-- How far a task has come that has been suspended so many times. -/
inductive Passage where
  | going (suspensions : Nat)
  | paused (suspensions : Nat) (label : String)
  /-- Suspended under a guard that holds for good. -/
  | prepared (suspensions : Nat) (label : String)
  /-- Ended; `torn` says that it has been suspended to the last. -/
  | ended (suspensions : Nat) (outcome : TaskOutcome) (torn : Bool)
deriving DecidableEq

def Passage.suspensions : Passage → Nat
  | .going n | .paused n _ | .prepared n _ | .ended n _ _ => n

def Passage.isOver : Passage → Bool
  | .ended _ _ _ => true
  | _ => false

/-- How far the task has come, as its view shows it. -/
def TaskView.passage? (v : TaskView) : Option Passage :=
  match v.state, v.guard, v.ready with
  | .running, none, false => some (.going v.suspensions)
  | .suspended, some label, false => some (.paused v.suspensions label)
  | .suspended, some label, true => some (.prepared v.suspensions label)
  | _, _, _ => none

/-- The view of a task that has ended. -/
structure TaskView.Last (v : TaskView) (suspensions : Nat) : Prop where
  state : v.state = .finished
  guard : v.guard = none
  ready : v.ready = false
  suspensions : v.suspensions = suspensions

/-- The task is suspended under this guard. -/
def Passage.Awaits (p : Passage) (suspensions : Nat) (label : String) : Prop :=
  p = .paused suspensions label ∨ p = .prepared suspensions label

/-- What can be told of a task that has been claimed, and how far it has come then. It is
suspended, perhaps ready, and resumed, any number of times, and ends as it goes or while it is
suspended. -/
inductive Tale : List Notice → Passage → Prop where
  | start : Tale [] (.going 0)
  | suspended {told : List Notice} {n : Nat} {label : String} {v : TaskView} : Tale told (.going n) →
      v.passage? = some (.paused (n + 1) label) →
      Tale (told ++ [{ kind := .suspended label, task := v }]) (.paused (n + 1) label)
  | ready {told : List Notice} {n : Nat} {label : String} {v : TaskView} : Tale told (.paused n label) →
      v.passage? = some (.prepared n label) →
      Tale (told ++ [{ kind := .ready, task := v }]) (.prepared n label)
  | resumed {told : List Notice} {p : Passage} {n : Nat} {label : String} {v : TaskView} : Tale told p →
      p.Awaits n label → v.passage? = some (.going n) →
      Tale (told ++ [{ kind := .resumed label, task := v }]) (.going n)
  | finished {told : List Notice} {n : Nat} {outcome : TaskOutcome} {v : TaskView} :
      Tale told (.going n) → v.Last n →
      Tale (told ++ [{ kind := .finished outcome, task := v }]) (.ended n outcome false)
  | torn {told : List Notice} {p : Passage} {n : Nat} {label : String} {outcome : TaskOutcome}
      {v : TaskView} : Tale told p → p.Awaits n label → v.Last n →
      Tale (told ++ [{ kind := .finished outcome, task := v }]) (.ended n outcome true)

def Notice.suspends (n : Notice) : Bool :=
  match n.kind with
  | .suspended _ => true
  | _ => false

def Notice.finishes (n : Notice) : Bool :=
  match n.kind with
  | .finished _ => true
  | _ => false

/-- A suspension, with or without word that the task is ready. -/
def pause (label : String) (ready : Bool) : List NoticeKind := .suspended label :: if ready then [.ready] else []

/-- Suspensions, each of them followed by the resumption. -/
def rounds (pauses : List (String × Bool)) : List NoticeKind :=
  pauses.flatMap fun e => pause e.1 e.2 ++ [.resumed e.1]

/-- The words for a task that has come so far. -/
inductive Passage.Spelt : Passage → List NoticeKind → Prop where
  | going (pauses : List (String × Bool)) : Spelt (.going pauses.length) (rounds pauses)
  | paused (pauses : List (String × Bool)) (label : String) :
      Spelt (.paused (pauses.length + 1) label) (rounds pauses ++ pause label false)
  | prepared (pauses : List (String × Bool)) (label : String) :
      Spelt (.prepared (pauses.length + 1) label) (rounds pauses ++ pause label true)
  | finished (pauses : List (String × Bool)) (outcome : TaskOutcome) :
      Spelt (.ended pauses.length outcome false) (rounds pauses ++ [.finished outcome])
  | torn (pauses : List (String × Bool)) (label : String) (ready : Bool) (outcome : TaskOutcome) :
      Spelt (.ended (pauses.length + 1) outcome true) (rounds pauses ++ pause label ready ++ [.finished outcome])

namespace Passage.Spelt

variable {word : List NoticeKind} {n : Nat} {p : Passage} {label : String} {outcome : TaskOutcome}

theorem suspended (h : Spelt (.going n) word) : Spelt (.paused (n + 1) label) (word ++ [.suspended label]) := by
  cases h with
  | going pauses => exact .paused pauses label

theorem ready (h : Spelt (.paused n label) word) : Spelt (.prepared n label) (word ++ [.ready]) := by
  cases h with
  | paused pauses label =>
    rw [List.append_assoc]
    exact .prepared pauses label

theorem resumed (h : Spelt p word) (hp : p.Awaits n label) : Spelt (.going n) (word ++ [.resumed label]) := by
  have again (pauses : List (String × Bool)) (ready : Bool) :
      Spelt (.going (pauses.length + 1)) (rounds pauses ++ pause label ready ++ [.resumed label]) := by
    have spelt := going (pauses ++ [(label, ready)])
    simpa [rounds] using spelt
  rcases hp with rfl | rfl
  · cases h with
    | paused pauses => exact again pauses false
  · cases h with
    | prepared pauses => exact again pauses true

theorem ends (h : Spelt (.going n) word) : Spelt (.ended n outcome false) (word ++ [.finished outcome]) := by
  cases h with
  | going pauses => exact .finished pauses outcome

theorem tears (h : Spelt p word) (hp : p.Awaits n label) :
    Spelt (.ended n outcome true) (word ++ [.finished outcome]) := by
  rcases hp with rfl | rfl
  · cases h with
    | paused pauses => exact .torn pauses label false outcome
  · cases h with
    | prepared pauses => exact .torn pauses label true outcome

end Passage.Spelt

theorem TaskView.suspensions_of_passage {v : TaskView} {p : Passage} (h : v.passage? = some p) :
    p.suspensions = v.suspensions := by
  unfold passage? at h
  split at h <;> cases h <;> rfl

namespace Tale

variable {told before after : List Notice} {p : Passage} {n : Notice}

/-- The task has been suspended as often as has been told. -/
theorem suspensions (h : Tale told p) : told.countP (·.suspends) = p.suspensions := by
  induction h with
  | start => rfl
  | resumed _ hp _ ih | torn _ hp _ ih =>
    rcases hp with rfl | rfl <;> simpa [Notice.suspends, Passage.suspensions] using ih
  | _ => simp_all [Notice.suspends, Passage.suspensions]

/-- That it has ended is told once, and last. -/
theorem finishes (h : Tale told p) : told.countP (·.finishes) = if p.isOver then 1 else 0 := by
  induction h with
  | start => rfl
  | resumed _ hp _ ih | torn _ hp _ ih =>
    rcases hp with rfl | rfl <;> simpa [Notice.finishes, Passage.isOver] using ih
  | _ => simp_all [Notice.finishes, Passage.isOver]

theorem spelt (h : Tale told p) : p.Spelt (told.map (·.kind)) := by
  induction h with
  | start => exact .going []
  | suspended _ _ ih => simpa using ih.suspended
  | ready _ _ ih => simpa using ih.ready
  | resumed _ hp _ ih => simpa using ih.resumed hp
  | finished _ _ ih => simpa using ih.ends
  | torn _ hp _ ih => simpa using ih.tears hp

theorem init (h : Tale (told ++ [n]) p) : ∃ q, Tale told q := by
  generalize e : told ++ [n] = all at h
  cases h with
  | start => simp at e
  | suspended tale | ready tale | resumed tale | finished tale | torn tale =>
    obtain ⟨rfl, -⟩ := List.append_inj' e rfl
    exact ⟨_, tale⟩

/-- What has been told first is a tale as well. -/
theorem first (h : Tale (before ++ after) p) : ∃ q, Tale before q := by
  induction hn : after.length generalizing after p with
  | zero =>
    obtain rfl := List.length_eq_zero_iff.mp hn
    exact ⟨p, by simpa using h⟩
  | succ n ih =>
    rcases List.eq_nil_or_concat after with rfl | ⟨rest, last, rfl⟩
    · cases hn
    · rw [List.concat_eq_append, ← List.append_assoc] at h
      obtain ⟨q, tale⟩ := h.init
      exact ih tale (by simpa using hn)

/-- The last view shows how often the task has been suspended. -/
theorem last (h : Tale (told ++ [n]) p) : n.task.suspensions = p.suspensions := by
  generalize e : told ++ [n] = all at h
  cases h with
  | start => simp at e
  | suspended _ hv | ready _ hv | resumed _ _ hv =>
    obtain ⟨-, same⟩ := List.append_inj' e rfl
    cases List.singleton_inj.mp same
    exact (TaskView.suspensions_of_passage hv).symm
  | finished _ hv | torn _ _ hv =>
    obtain ⟨-, same⟩ := List.append_inj' e rfl
    cases List.singleton_inj.mp same
    exact hv.suspensions

/-- Each view shows how often the task has been suspended by then. -/
theorem shown (h : Tale (before ++ n :: after) p) : n.task.suspensions = (before ++ [n]).countP (·.suspends) := by
  rw [List.append_cons] at h
  obtain ⟨q, tale⟩ := h.first
  exact tale.last.trans tale.suspensions.symm

end Tale

/-! ## Views -/

section
variable {v : TaskView} {p : Passage} {record : TaskRecord} {label : String}

theorem TaskView.passage?_running (h : v.passage? = some p) (hs : v.state = .running) : p = .going v.suspensions := by
  unfold passage? at h
  split at h <;> simp_all

/-- The view of a suspended task shows its guard. -/
theorem TaskView.passage?_suspended (h : v.passage? = some p) (hs : v.state = .suspended)
    (hg : v.guard = some label) : p.Awaits v.suspensions label ∧ (v.ready = false → p = .paused v.suspensions label) := by
  unfold passage? at h
  split at h <;> simp_all [Passage.Awaits]

theorem passage?_running (now : Instant) : (running c now record).view.passage? = some (.going record.view.suspensions) :=
  rfl

theorem passage?_awaiting : (awaiting label record).view.passage? =
    some (.paused (record.view.suspensions + 1) label) := rfl

theorem last_lastView : (lastView record.view).Last record.view.suspensions := ⟨rfl, rfl, rfl, rfl⟩

end

/-! ## Raising and telling -/

namespace Move

variable (v : Move S A V)

/-- The thread that acts, and the notice that it is about to tell then. -/
def raises? : Option (Agent × CogId × Notice) :=
  v.act.actor?.bind fun a => (v.after.notice? a).map fun p => (a, p)

/-- The thread that acts, and the notice that it tells. -/
def tells? : Option (Agent × CogId × Notice) :=
  v.act.actor?.bind fun a => (v.before.notice? a).map fun p => (a, p)

variable {v} {e : Agent × CogId × Notice}

theorem raises?_eq_some :
    v.raises? = some e ↔ v.act.actor? = some e.1 ∧ v.after.notice? e.1 = some e.2 := by
  obtain ⟨a, p⟩ := e
  simp [raises?, Option.bind_eq_some_iff]

theorem tells?_eq_some :
    v.tells? = some e ↔ v.act.actor? = some e.1 ∧ v.before.notice? e.1 = some e.2 := by
  obtain ⟨a, p⟩ := e
  simp [tells?, Option.bind_eq_some_iff]

end Move

/-- All notices that have been raised, in order, each with its thread and its cog. -/
def raised (moves : List (Move S A V)) : List (Agent × CogId × Notice) := moves.filterMap Move.raises?

/-- All notices that have been told, in order. -/
def spoken (moves : List (Move S A V)) : List (Agent × CogId × Notice) := moves.filterMap Move.tells?

theorem raised_snoc (moves : List (Move S A V)) (v : Move S A V) :
    raised (moves ++ [v]) = raised moves ++ v.raises?.toList := by
  unfold raised
  rw [List.filterMap_append]
  cases h : v.raises? <;> simp [h]

theorem spoken_append (moves later : List (Move S A V)) : spoken (moves ++ later) = spoken moves ++ spoken later :=
  List.filterMap_append ..

theorem spoken_snoc (moves : List (Move S A V)) (v : Move S A V) :
    spoken (moves ++ [v]) = spoken moves ++ v.tells?.toList := by
  rw [spoken_append]
  cases h : v.tells? <;> simp [spoken, h]

/-- What a thread has raised it has told, but for what it is about to tell. -/
theorem History.raised_by (h : History (.empty r memory) moves m) (a : Agent) :
    (raised moves).filter (·.1 = a) =
      (spoken moves).filter (·.1 = a) ++ ((m.notice? a).map fun p => (a, p)).toList := by
  induction h with
  | refl => rfl
  | @act moves m m' move h ha ih =>
    rw [raised_snoc, spoken_snoc, List.filter_append, List.filter_append, ih]
    by_cases hact : move.actor? = some a
    · have raises : (⟨m, move, m'⟩ : Move S A V).raises? = (m'.notice? a).map fun p => (a, p) := by
        simp [Move.raises?, hact]
      have tells : (⟨m, move, m'⟩ : Move S A V).tells? = (m.notice? a).map fun p => (a, p) := by
        simp [Move.tells?, hact]
      rw [raises, tells]
      congr 1
      · congr 1
        cases m.notice? a <;> simp
      · cases m'.notice? a <;> simp
    · have other {p : Option (Agent × CogId × Notice)} (hp : ∀ e, p = some e → move.actor? = some e.1) :
          p.toList.filter (·.1 = a) = [] := by
        cases p with
        | none => rfl
        | some e =>
          have ne : e.1 ≠ a := fun same => hact (same ▸ hp e rfl)
          simp [ne]
      rw [other fun e he => (Move.raises?_eq_some.mp he).1, other fun e he => (Move.tells?_eq_some.mp he).1,
        (shift_act h.reachable.ordered ha).notice? h.reachable.ordered hact, List.append_nil, List.append_nil]

theorem History.raised_of_spoken (h : History (.empty r memory) moves m) {e : Agent × CogId × Notice}
    (he : e ∈ spoken moves) : e ∈ raised moves := by
  have mine : e ∈ (raised moves).filter (·.1 = e.1) := by
    rw [h.raised_by e.1]
    exact List.mem_append_left _ (List.mem_filter.mpr ⟨he, by simp⟩)
  exact (List.mem_filter.mp mine).1

/-- What has been said by one thread alone has been told as it has been raised. -/
theorem History.raised_of_sole (h : History (.empty r memory) moves m) {P : CogId × Notice → Bool}
    (sole : ∀ e ∈ raised moves, P e.2 = true → e.1 = a) :
    ((raised moves).filter (P ·.2)).map (·.2) =
      ((spoken moves).filter (P ·.2)).map (·.2) ++ (m.notice? a).toList.filter P := by
  have restrict {l : List (Agent × CogId × Notice)} (hl : ∀ e ∈ l, P e.2 = true → e.1 = a) :
      l.filter (P ·.2) = (l.filter (·.1 = a)).filter (P ·.2) := by
    rw [List.filter_filter]
    refine List.filter_congr fun e he => ?_
    cases hp : P e.2 with
    | true => simp [hl e he hp]
    | false => rfl
  rw [restrict sole, restrict fun e he => sole e (h.raised_of_spoken he), h.raised_by a, List.filter_append, List.map_append]
  congr 1
  cases m.notice? a with
  | none => rfl
  | some p => cases hp : P p <;> simp [hp]

/-! ## Notices about one task -/

/-- Whether the notice is about the task `k` of the cog `g`, and not just that it has been added. -/
def about (g : CogId) (k : TaskId) (p : CogId × Notice) : Bool :=
  p.1 = g && p.2.task.id = k && p.2.kind ≠ .added

/-- What has been raised about the task since it has been claimed. -/
def events (g : CogId) (k : TaskId) (moves : List (Move S A V)) : List Notice :=
  ((raised moves).filter (about g k ·.2)).map (·.2.2)

theorem about_iff {p : CogId × Notice} :
    about g i p = true ↔ p.1 = g ∧ p.2.task.id = i ∧ p.2.kind ≠ .added := by
  simp [about, and_assoc]

theorem events_snoc (moves : List (Move S A V)) (v : Move S A V) :
    events g i (moves ++ [v]) =
      events g i moves ++ ((v.raises?.toList.filter (about g i ·.2)).map (·.2.2)) := by
  rw [events, raised_snoc, List.filter_append, List.map_append]
  rfl

theorem events_quiet {v : Move S A V} (h : ∀ e, v.raises? = some e → about g i e.2 = false) :
    events g i (moves ++ [v]) = events g i moves := by
  rw [events_snoc]
  cases hv : v.raises? with
  | none => simp
  | some e => simp [h e hv]

/-- What a step adds to what is raised about a task. -/
theorem events_of_step (ht : m'.threads.get? a = some t) :
    events g i (moves ++ [(⟨m, .step a, m'⟩ : Move S A V)]) =
      events g i moves ++ (t.control.notice?.toList.filter (about g i)).map (·.2) := by
  have raises : (⟨m, .step a, m'⟩ : Move S A V).raises? = t.control.notice?.map fun p => (a, p) := by
    rw [← notice?_eq ht]
    rfl
  rw [events_snoc, raises]
  cases t.control.notice? with
  | none => rfl
  | some p => cases hp : about g i p <;> simp [hp]

/-- Whoever raises such a notice hosts the task, which has its record. -/
theorem Utters.hosts (h : Utters m a own m' k k') (hk : k.notice? = none) {p : CogId × Notice}
    (hp : k'.notice? = some p) (added : p.2.kind ≠ .added) : own = some p.1 ∧ ∃ i active record,
      k.stance.seat? = some ⟨i, active⟩ ∧ (m.books p.1).records.get? i = some record ∧
      p.2.task.id = record.view.id := by
  cases h with
  | tells => cases hk
  | still _ idles => cases idles.after.symm.trans hp
  | aborts hown hph hr =>
    cases hp
    refine ⟨hown, _, false, _, ?_, hr, rfl⟩
    rcases hph with rfl | ⟨failure, rfl⟩ <;> rfl
  | suspends hown hr | handed hown hr | readies hown hr | resumes _ hown hr | completes hown hr
  | strands hown hr =>
    cases hp
    exact ⟨hown, _, _, _, rfl, hr, rfl⟩
  | enters | starts =>
    cases hp
    exact absurd rfl added
  | _ => cases hp

theorem Machine.thread_of_step (h : m.step a = some m') : ∃ t, m.threads.get? a = some t :=
  (step_cases h).imp fun _ took => took.1

/-- In each move a thread goes on as `Utters` says, or none does, and no books change. -/
theorem Machine.Reachable.says_act (h : Reachable (.empty r memory) m) (ha : m.act move = some m') :
    (m.SameBooks m' ∧ (⟨m, move, m'⟩ : Move S A V).raises? = none ∧ (⟨m, move, m'⟩ : Move S A V).turn = none) ∨
      ∃ a t k', move = .step a ∧ m.threads.get? a = some t ∧ m'.threads.get? a = some { t with control := k' } ∧
        Utters m a t.cog m' t.control k' := by
  cases hact : move.actor? with
  | none =>
    have shift := shift_act h.ordered ha
    rw [hact] at shift
    exact .inl ⟨shift.sameBooks h.ordered, by simp [Move.raises?, hact], by simp [Move.turn, hact]⟩
  | some a =>
    obtain rfl := Action.step_of_actor hact
    obtain ⟨t, ht⟩ := thread_of_step ha
    rcases says_step h ht ha with ⟨gone, -, books⟩ | ⟨k', ht', utters⟩
    · exact .inl ⟨books, by simp [Move.raises?, Action.actor?, notice?, gone],
        by simp [Move.turn, Action.actor?, look, gone]⟩
    · exact .inr ⟨a, t, k', rfl, ht, ht', utters⟩

/-- The thread tells its notice and has no other to tell at once. -/
def Control.Single (k : Control S A V) : Prop := ∀ g n after, k = .notify g n after → after.notice? = none

theorem Control.Single.rouse (h : k.Single) : k.rouse.Single := by
  cases k with
  | notify => exact h
  | awaiting aw phase =>
    intro g n after e
    cases phase <;> cases e
  | _ =>
    intro g n after e
    cases e

theorem Utters.single (h : Utters m a own m' k k') (hk : k.Single) : k'.Single := by
  rintro g n after rfl
  cases h with
  | tells => cases hk _ _ _ rfl
  | still _ idles => cases idles.after
  | _ => rfl

theorem Machine.Reachable.single (h : Reachable (.empty r memory) m) (ht : m.threads.get? a = some t) :
    t.control.Single := by
  induction h generalizing a t with
  | refl => cases ht
  | @act m m' move h ha ih =>
    by_cases hact : move.actor? = some a
    · obtain rfl := Action.step_of_actor hact
      obtain ⟨t₀, ht₀⟩ := thread_of_step ha
      rcases says_step h ht₀ ha with ⟨gone, -⟩ | ⟨k', ht', utters⟩
      · cases ht.symm.trans gone
      · cases ht.symm.trans ht'
        exact utters.single (ih ht₀)
    · rcases (shift_act h.ordered ha).apart hact with ⟨p, hp⟩ | new
      · rw [ht] at hp
        obtain ⟨t₀, ht₀, e⟩ := Option.map_eq_some_iff.mp hp.symm
        have before := ih ht₀
        subst e
        cases p with
        | true => exact before.rouse
        | false => exact before
      · rcases new t ht with e | ⟨body, e⟩ <;> intro g n after e' <;> cases e.symm.trans e'

theorem Utters.turn_of_notice (h : Utters m a own m' k k') (hk : k.Single) : k.notice? = none ∨ k'.notice? = none := by
  cases h with
  | tells => exact .inr (hk _ _ _ rfl)
  | still _ idles => exact .inl idles.before
  | _ => exact .inl rfl

section
variable (h : History (.empty r memory) moves m) (ha : m.act move = some m')
include h ha

/-- The host of a task raises what is raised about it, and the task has its record then. -/
theorem History.raises {e : Agent × CogId × Notice} (he : (⟨m, move, m'⟩ : Move S A V).raises? = some e)
    (added : e.2.2.kind ≠ .added) : ∃ c s active record, e.1 = .context c ∧ move = .step (.context c) ∧
      m.look (.context c) = some (some e.2.1, s) ∧ s.seat? = some ⟨e.2.2.task.id, active⟩ ∧
      (m.books e.2.1).records.get? e.2.2.task.id = some record := by
  obtain ⟨hact, raised⟩ := Move.raises?_eq_some.mp he
  have hact : move.actor? = some e.1 := hact
  obtain rfl := Action.step_of_actor hact
  obtain ⟨t, ht⟩ := thread_of_step ha
  rcases says_step h.reachable ht ha with ⟨gone, -⟩ | ⟨k', ht', utters⟩
  · simp [notice?, gone] at raised
  · have after : k'.notice? = some e.2 := (notice?_eq ht').symm.trans raised
    rcases utters.turn_of_notice (h.reachable.single ht) with before | silent
    · obtain ⟨hown, i, active, record, seat, hr, id⟩ := utters.hosts before after added
      have hl := look_eq m _ ht
      rw [hown] at hl
      obtain ⟨⟨c, hc⟩, x, hx⟩ := h.reachable.ordered.home hl
      rw [books_eq hx] at hr
      have own : record.view.id = i := (h.roll.2 hx).tidy.id_eq hr
      rw [id, own, books_eq hx]
      exact ⟨c, _, active, record, hc, by rw [hc], hc ▸ hl, seat, hr⟩
    · cases silent.symm.trans after

/-- Nothing is raised about a task while others act than its host. -/
theorem History.events_of_other {s : Stance} {active : Bool} (hl : m.look (.context c) = some (some g, s))
    (hi : s.seat? = some ⟨i, active⟩) (hne : move.actor? ≠ some (.context c)) :
    events g i (moves ++ [⟨m, move, m'⟩]) = events g i moves := by
  refine events_quiet fun e he => Bool.eq_false_iff.mpr fun concerns => ?_
  obtain ⟨rfl, rfl, added⟩ := about_iff.mp concerns
  obtain ⟨d, s', active', record, -, rfl, hl', hi', -⟩ := h.raises ha he added
  have same := h.reachable.ordered.berth (p := .seat (.context c)) (q := .seat (.context d))
    ⟨_, s, active, hl, hi⟩ ⟨_, s', active', hl', hi'⟩
  cases same
  exact hne rfl

/-- Nothing is raised about a task without a record. -/
theorem History.events_of_absent (hr : (m.books g).records.get? i = none) :
    events g i (moves ++ [⟨m, move, m'⟩]) = events g i moves := by
  refine events_quiet fun e he => Bool.eq_false_iff.mpr fun concerns => ?_
  obtain ⟨rfl, rfl, added⟩ := about_iff.mp concerns
  obtain ⟨-, -, -, record, -, -, -, -, hr'⟩ := h.raises ha he added
  cases hr.symm.trans hr'

end

/-- Whoever has raised a notice about a task has claimed it. -/
theorem History.raised_by_host (h : History (.empty r memory) moves m) {e : Agent × CogId × Notice}
    (he : e ∈ raised moves) (added : e.2.2.kind ≠ .added) :
    ∃ c, e.1 = .context c ∧ (c, e.2.2.task.id) ∈ claims e.2.1 moves := by
  induction h with
  | refl => cases he
  | @act moves m m' move h ha ih =>
    rw [raised_snoc] at he
    rw [claims_snoc]
    rcases List.mem_append.mp he with old | new
    · obtain ⟨c, hc, claimed⟩ := ih old
      exact ⟨c, hc, List.mem_append_left _ claimed⟩
    · obtain ⟨c, s, active, record, hc, -, hl, hi, -⟩ := h.raises ha (Option.mem_toList.mp new) added
      exact ⟨c, hc, List.mem_append_left _ (h.hosting hl hi)⟩

/-- Before a task has been claimed, nothing else is raised about it. -/
theorem History.events_of_unclaimed (h : History (.empty r memory) moves m) (hi : i ∉ claimed g moves) :
    events g i moves = [] := by
  unfold events
  rw [List.map_eq_nil_iff, List.filter_eq_nil_iff]
  intro e he concerns
  obtain ⟨rfl, rfl, added⟩ := about_iff.mp concerns
  obtain ⟨c, -, claimed⟩ := h.raised_by_host he added
  exact hi (List.mem_map.mpr ⟨_, claimed, rfl⟩)

end ObjectGroups
