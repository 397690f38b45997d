/-
The tale of each task.

What is raised about a task tells how far the task has come, in every run: as
far as its record shows while it is unfinished, and how it has ended once it
has. Between a suspension and the notice of it, a thread may first start a
context in place of the task, so that the notice is owed for a while.
-/
import ObjectGroups.Proofs.Tales

namespace ObjectGroups

variable {S A V : Type} {m m' : Machine S A V} {a : Agent} {g : CogId} {c : ContextId}
  {own : Option CogId} {t : Thread S A V} {k k' : Control S A V} {i j : TaskId}
  {move : Action S A V} {moves : List (Move S A V)} {r : Registry} {memory : A}
  {record : TaskRecord} {s s' : Stance} {active : Bool} {told : List Notice} {v : TaskView}

open Machine Scheduler

/-! ## What is owed -/

/-- What is still to be raised by a thread that starts a context in place of its task. -/
def Stance.owes (s : Stance) (v : TaskView) : List Notice :=
  match s.hands?, v.guard with
  | some _, some label => [{ kind := .suspended label, task := v }]
  | _, _ => []

/-- The task has come as far as its view shows, once its host has caught up with it. -/
def Narrated (told : List Notice) (s : Stance) (v : TaskView) : Prop :=
  ∃ p, v.passage? = some p ∧ Tale (told ++ s.owes v) p

theorem Stance.owes_of_none (h : s.hands? = none) (v : TaskView) : s.owes v = [] := by
  simp [owes, h]

theorem Narrated.congr (h : Narrated told s v) (hs : s'.hands? = s.hands?) : Narrated told s' v := by
  obtain ⟨p, hp, tale⟩ := h
  refine ⟨p, hp, ?_⟩
  unfold Stance.owes at tale ⊢
  rwa [hs]

/-- The tale of a task that is not about to be handed over. -/
theorem Narrated.tale (h : Narrated told s v) (hs : s.hands? = none) : ∃ p, v.passage? = some p ∧ Tale told p := by
  obtain ⟨p, hp, tale⟩ := h
  rw [s.owes_of_none hs, List.append_nil] at tale
  exact ⟨p, hp, tale⟩

theorem Narrated.intro {p : Passage} (hp : v.passage? = some p) (tale : Tale told p) (hs : s.hands? = none) :
    Narrated told s v := by
  refine ⟨p, hp, ?_⟩
  rwa [s.owes_of_none hs, List.append_nil]

namespace Narrated

variable {label : String} (h : Narrated told s record.view)
include h

/-- The task is suspended; this is told at once, or owed until a context has been started. -/
theorem suspended (hs : s.hands? = none) (state : record.view.state = .running) (label : String) :
    Tale (told ++ [{ kind := .suspended label, task := (awaiting label record).view }])
      (.paused (record.view.suspensions + 1) label) := by
  obtain ⟨p, hp, tale⟩ := h.tale hs
  obtain rfl := TaskView.passage?_running hp state
  exact tale.suspended passage?_awaiting

/-- What has been owed is told. -/
theorem handed (hs : s.hands?.isSome) (guard : record.view.guard = some label) (hs' : s'.hands? = none) :
    Narrated (told ++ [{ kind := .suspended label, task := record.view }]) s' record.view := by
  obtain ⟨p, hp, tale⟩ := h
  obtain ⟨k, hands⟩ := Option.isSome_iff_exists.mp hs
  refine .intro hp ?_ hs'
  simpa [Stance.owes, hands, guard] using tale

theorem ready (hs : s.hands? = none) (state : record.view.state = .suspended)
    (guard : record.view.guard = some label) (fresh : record.view.ready = false) (hs' : s'.hands? = none) :
    Narrated (told ++ [{ kind := .ready, task := (prepared record).view }]) s' (prepared record).view := by
  obtain ⟨p, hp, tale⟩ := h.tale hs
  obtain rfl := (TaskView.passage?_suspended hp state guard).2 fresh
  have prepares : (prepared record).view.passage? = some (.prepared record.view.suspensions label) := by
    simp [TaskView.passage?, prepared, state, guard]
  exact .intro prepares (tale.ready prepares) hs'

theorem resumed (hs : s.hands? = none) (state : record.view.state = .suspended)
    (guard : record.view.guard = some label) (now : Instant) (hs' : s'.hands? = none) :
    Narrated (told ++ [{ kind := .resumed label, task := (running c now record).view }]) s'
      (running c now record).view := by
  obtain ⟨p, hp, tale⟩ := h.tale hs
  obtain ⟨awaits, -⟩ := TaskView.passage?_suspended hp state guard
  exact .intro (passage?_running _) (tale.resumed awaits (passage?_running _)) hs'

theorem finished (hs : s.hands? = none) (state : record.view.state = .running) (outcome : TaskOutcome) :
    Tale (told ++ [{ kind := .finished outcome, task := lastView record.view }])
      (.ended record.view.suspensions outcome false) := by
  obtain ⟨p, hp, tale⟩ := h.tale hs
  obtain rfl := TaskView.passage?_running hp state
  exact tale.finished last_lastView

theorem torn (hs : s.hands? = none) (state : record.view.state = .suspended)
    (guard : record.view.guard = some label) (outcome : TaskOutcome) :
    Tale (told ++ [{ kind := .finished outcome, task := lastView record.view }])
      (.ended record.view.suspensions outcome true) := by
  obtain ⟨p, hp, tale⟩ := h.tale hs
  exact tale.torn (TaskView.passage?_suspended hp state guard).1 last_lastView

end Narrated

/-! ## Hosts and records -/

/-- The host of a task whose record has not changed in this move has been its host before. -/
theorem Machine.Reachable.hosted_before (h : Reachable (.empty r memory) m) (ha : m.act move = some m')
    (hl : m'.look (.context c) = some (some g, s)) (seat : s.seat? = some ⟨i, active⟩)
    (hr : (m'.books g).records.get? i = some record) (hr₀ : (m.books g).records.get? i = some record) :
    ∃ s₀ active₀, m.look (.context c) = some (some g, s₀) ∧ s₀.seat? = some ⟨i, active₀⟩ := by
  have next : Reachable (.empty r memory) m' := .act h ha
  obtain ⟨-, x', hx'⟩ := next.ordered.home hl
  rw [books_eq hx'] at hr
  have hosted : record.view.context = some c ∧ record.view.state ≠ .queued := by
    cases (next.attended hx').hosted hl seat with
    | running _ hr' state context | suspended _ hr' state context =>
      cases hr.symm.trans hr'
      exact ⟨context, by simp [state]⟩
    | cancelled _ _ past => cases hr.symm.trans past.1
  cases hx : m.cogs.get? g with
  | none => simp [books, hx] at hr₀
  | some x =>
    rw [books_eq hx] at hr₀
    obtain ⟨d, s₀, active₀, context, hl₀, seat₀⟩ := (h.attended hx).begun hr₀ hosted.2
    cases hosted.1.symm.trans context
    exact ⟨s₀, active₀, hl₀, seat₀⟩

section
variable (h : History (.empty r memory) moves m) (hl : m.look (.context c) = some (some g, s))
include h hl

/-- The record of a hosted task shows what its host is about. -/
theorem History.state_of_seat (seat : s.seat? = some ⟨i, active⟩)
    (hr : (m.books g).records.get? i = some record) :
    record.view.state = if active then .running else .suspended := by
  obtain ⟨-, x, hx⟩ := h.reachable.ordered.home hl
  rw [books_eq hx] at hr
  have attends := (h.reachable.attended hx).hosted hl seat
  cases active with
  | true => exact attends.running_of seat hr
  | false => exact attends.idle_of seat hr

/-- The task of a thread is not on its way into a queue, nor offered. -/
theorem History.seat_apart (seat : s.seat? = some ⟨i, active⟩) {own : Option CogId} (hl' : m.look a = some (own, s'))
    (place : s'.letter? = some j ∨ ∃ g', s'.offers g' = some j) : i ≠ j := by
  rintro rfl
  have mine : m.Berthed i (.seat (.context c)) := ⟨_, s, active, hl, seat⟩
  rcases place with letter | ⟨g', offers⟩
  · have same := h.reachable.ordered.berth mine (q := .letter a) ⟨own, s', hl', letter⟩
    cases same
  · obtain ⟨x, hx, -⟩ := h.reachable.ordered.locks hl' (Stance.offers_lock offers own).1
    obtain ⟨q, hq⟩ := (h.reachable.filed hx).last i ⟨a, own, s', hl', offers⟩
    have same := h.reachable.ordered.berth mine (q := .queue g') ⟨x, hx, by simp [hq]⟩
    cases same

end

/-- A task that has not begun has not been suspended. -/
theorem Machine.Reachable.unsuspended (h : Reachable (.empty r memory) m)
    (hr : (m.books g).records.get? i = some record) (hs : record.view.state = .queued) :
    record.view.suspensions = 0 := by
  induction h generalizing record with
  | refl => cases hr
  | @act m m' move h ha ih =>
    have kept (same : (m.books g).SameTasks (m'.books g)) : record.view.suspensions = 0 := ih (same.records ▸ hr) hs
    have moved {g' : CogId} {j : TaskId} {f : TaskRecord → TaskRecord}
        (changes : m.Changes g' m' fun y y' => y'.records = y.records.modify j f)
        (hf : ∀ r, (f r).view.state = .queued → r.view.state = .queued ∧ (f r).view.suspensions = r.view.suspensions) :
        record.view.suspensions = 0 := by
      rcases changes.at g with modified | same
      · rw [modified, Table.get?_modify] at hr
        split at hr
        · obtain ⟨old, hold, rfl⟩ := Option.map_eq_some_iff.mp hr
          rw [(hf old hs).2]
          exact ih hold (hf old hs).1
        · exact ih hr hs
      · exact kept same
    have removed {g' : CogId} {j : TaskId} (changes : m.Changes g' m' fun y y' => y'.records = y.records.remove j) :
        record.view.suspensions = 0 := by
      rcases changes.at g with removed | same
      · rw [removed, Table.get?_remove] at hr
        split at hr
        · cases hr
        · exact ih hr hs
      · exact kept same
    have entered {a : Agent} {own : Option CogId} {g' : CogId} {seat : Option Seat} {view : TaskView}
        (hl : m.look a = some (own, .enrol seat g' view)) (changes : m.Changes g' m' fun y y' => y.Enters y' view) :
        record.view.suspensions = 0 := by
      rcases changes.at g with enters | same
      · rw [enters.records, Table.get?_put] at hr
        split at hr
        · cases hr
          exact Reachable.enrolled (P := fun v => v.suspensions = 0) (fun _ _ _ _ => rfl) h hl
        · exact ih hr hs
      · exact kept same
    rcases h.says_act ha with ⟨books, -⟩ | ⟨a, t, k', rfl, ht, ht', utters⟩
    · exact kept (books g)
    · have hl := look_eq m a ht
      generalize t.control = k at hl utters
      cases utters with
      | tells _ _ _ books | still books | starts books | forsakes books | handed _ _ books => exact kept (books g)
      | submits changes | enters changes => exact entered hl changes
      | withdraws changes => exact removed (changes.imp (·.records))
      | aborts _ _ _ changes | completes _ _ changes | strands _ _ changes => exact removed (changes.imp (·.records))
      | claims _ _ _ changes | resumes _ _ _ changes => exact moved (changes.imp (·.records)) (by intro r hr; cases hr)
      | hands _ changes | suspends _ _ changes => exact moved (changes.imp (·.records)) (by intro r hr; cases hr)
      | readies _ _ changes => exact moved (changes.imp (·.1)) fun r hr => ⟨hr, rfl⟩

/-! ## Unfinished tasks -/

/-- The step of the host keeps this. -/
theorem History.narrated_own (h : History (.empty r memory) moves m) (ha : m.act (.step (.context c)) = some m')
    (before : ∀ {active : Bool} {record : TaskRecord}, t.control.stance.seat? = some ⟨i, active⟩ →
      (m.books g).records.get? i = some record → Narrated (events g i moves) t.control.stance record.view)
    (ht : m.threads.get? (.context c) = some t) (hg : t.cog = some g)
    (ht' : m'.threads.get? (.context c) = some { t with control := k' })
    (utters : Utters m (.context c) t.cog m' t.control k') (seat : k'.stance.seat? = some ⟨i, active⟩)
    (hr : (m'.books g).records.get? i = some record) :
    Narrated (events g i (moves ++ [⟨m, .step (.context c), m'⟩])) k'.stance record.view := by
  have hl : m.look (.context c) = some (some g, t.control.stance) := hg ▸ look_eq m _ ht
  have hl' : m'.look (.context c) = some (some g, k'.stance) := hg ▸ look_eq m' _ ht'
  obtain ⟨-, x, hx⟩ := h.reachable.ordered.home hl
  have home {g' : CogId} (hown : t.cog = some g') : g' = g := Option.some.inj (hown.symm.trans hg)
  have other {g' : CogId} {R : Scheduler S A V → Scheduler S A V → Prop} (changes : m.Changes g' m' R)
      (hR : R (m.books g) (m'.books g) → (m'.books g).records.get? i = (m.books g).records.get? i) :
      (m'.books g).records.get? i = (m.books g).records.get? i :=
    (changes.at g).elim hR fun same => by rw [same.records]
  have raised : events g i (moves ++ [⟨m, .step (.context c), m'⟩]) =
      events g i moves ++ (k'.notice?.toList.filter (about g i)).map (·.2) := events_of_step ht'
  -- The step is nothing to the task.
  have kept (quiet : ∀ p, k'.notice? = some p → about g i p = false)
      (same : (m'.books g).records.get? i = (m.books g).records.get? i)
      (hands : k'.stance.hands? = t.control.stance.hands?) :
      Narrated (events g i (moves ++ [⟨m, .step (.context c), m'⟩])) k'.stance record.view := by
    obtain ⟨s₀, active₀, hl₀, seat₀⟩ := h.reachable.hosted_before ha hl' seat hr (same ▸ hr)
    cases hl.symm.trans hl₀
    have silent : k'.notice?.toList.filter (about g i) = [] :=
      List.filter_eq_nil_iff.mpr fun p hp => by simp [quiet p (Option.mem_toList.mp hp)]
    rw [raised, silent, List.map_nil, List.append_nil]
    exact (before seat₀ (same ▸ hr)).congr hands
  -- The step is a change of the task, of which a notice is raised.
  have tells {n : Notice} {old : TaskRecord} (hn : k'.notice? = some (g, n)) (added : n.kind ≠ .added)
      (hold : (m.books g).records.get? i = some old) (id : n.task.id = old.view.id) :
      events g i (moves ++ [⟨m, .step (.context c), m'⟩]) = events g i moves ++ [n] := by
    rw [books_eq hx] at hold
    have concerns : about g i (g, n) = true := about_iff.mpr ⟨rfl, id.trans ((h.roll.2 hx).tidy.id_eq hold), added⟩
    rw [raised, hn]
    simp [concerns]
  have silent (hn : k'.notice? = none) : events g i (moves ++ [⟨m, .step (.context c), m'⟩]) = events g i moves := by
    rw [raised, hn]
    simp
  have single := h.reachable.single ht
  have displays {aw : Awaiting S A V} {old : TaskRecord} (hk : t.control.await? = some aw)
      (hold : (m.books g).records.get? aw.task = some old) (hs : old.view.state = .suspended) :=
    h.reachable.displays ht hg hk hold hs
  generalize hk : t.control = k at *
  cases utters with
  | tells g' n after books =>
    have silent : k'.notice? = none := single _ _ _ rfl
    exact kept (by simp [silent]) (by rw [(books g).records]) rfl
  | still books idles => exact kept (by simp [idles.after]) (by rw [(books g).records]) idles.hands
  | submits changes =>
    have apart := h.seat_apart hl seat hl (.inl rfl)
    exact kept (by intro p hp; cases hp) (other changes (·.lookup apart)) rfl
  | enters changes =>
    have apart := h.seat_apart hl seat hl (.inl rfl)
    exact kept (by intro p hp; cases hp; simp [about]) (other changes (·.lookup apart)) rfl
  | starts books => exact kept (by intro p hp; cases hp; simp [about]) (by rw [(books g).records]) rfl
  | withdraws changes =>
    have apart := h.seat_apart hl seat hl (.inr ⟨_, if_pos rfl⟩)
    exact kept (by intro p hp; cases hp) (other changes (·.lookup apart)) rfl
  | forsakes books => exact kept (by intro p hp; cases hp) (by rw [(books g).records]) rfl
  | @claims g' d j body e hown queued changes =>
    cases home hown
    cases e
    obtain rfl : j = i := congrArg Seat.task (Option.some.inj seat)
    rw [books_eq hx] at queued
    obtain ⟨old, hold, rfl⟩ := changes.here.lookup hr
    have apart := (List.nodup_append.mp (h.roll.2 hx).tidy.nodup).2.2
    have untold : events g j moves = [] := h.events_of_unclaimed fun claimed => apart j claimed j queued rfl
    refine .intro (passage?_running _) ?_ rfl
    have record : old.view.suspensions = 0 := by
      refine h.reachable.unsuspended hold ((h.roll.2 hx).state_of_queued queued ?_)
      rwa [← books_eq hx]
    rw [silent rfl, untold, record]
    exact .start
  | @hands g' aw hown changes =>
    cases home hown
    obtain rfl : aw.task = i := congrArg Seat.task (Option.some.inj seat)
    obtain ⟨old, hold, rfl⟩ := changes.here.lookup hr
    refine ⟨_, passage?_awaiting, ?_⟩
    rw [silent rfl]
    exact (before rfl hold).suspended rfl (h.state_of_seat hl rfl hold) aw.label
  | @suspends g' aw old hown hold changes =>
    cases home hown
    obtain rfl : aw.task = i := congrArg Seat.task (Option.some.inj seat)
    obtain ⟨old', hold', rfl⟩ := changes.here.lookup hr
    cases hold.symm.trans hold'
    rw [tells rfl (by intro e; cases e) hold rfl]
    exact .intro passage?_awaiting ((before rfl hold).suspended rfl (h.state_of_seat hl rfl hold) aw.label) rfl
  | @handed g' stage aw old hown hold books =>
    cases home hown
    obtain rfl : aw.task = i := congrArg Seat.task (Option.some.inj seat)
    rw [(books g).records] at hr
    cases hold.symm.trans hr
    have shown := displays rfl hold (h.state_of_seat hl rfl hold)
    rw [tells rfl (by intro e; cases e) hold rfl]
    exact (before rfl hold).handed rfl shown.label rfl
  | @readies g' aw old hown hold changes =>
    cases home hown
    obtain rfl : aw.task = i := congrArg Seat.task (Option.some.inj seat)
    rw [changes.here.1, Table.get?_modify, if_pos rfl, hold] at hr
    cases hr
    have state := h.state_of_seat hl rfl hold
    have shown := displays rfl hold state
    have fresh : old.view.ready = false := Bool.eq_false_iff.mpr fun ready => by cases shown.past ready
    rw [tells rfl (by intro e; cases e) hold rfl]
    exact (before rfl hold).ready rfl state shown.label fresh rfl
  | @resumes g' d aw failure old result e hown hold changes =>
    cases home hown
    cases e
    obtain rfl : aw.task = i := congrArg Seat.task (Option.some.inj seat)
    obtain ⟨old', hold', rfl⟩ := changes.here.lookup hr
    cases hold.symm.trans hold'
    have state := h.state_of_seat hl rfl hold
    rw [tells rfl (by intro e; cases e) hold rfl]
    exact (before rfl hold).resumed rfl state (displays rfl hold state).label m.now rfl
  | @aborts g' aw phase old hown hph hold changes =>
    cases home hown
    obtain rfl : aw.task = i := congrArg Seat.task (Option.some.inj seat)
    cases hr.symm.trans changes.here.lookup
  | completes | strands => cases seat

/-- In every run, what is raised about a task tells how far it has come. -/
theorem History.narrated (h : History (.empty r memory) moves m) (hl : m.look (.context c) = some (some g, s))
    (seat : s.seat? = some ⟨i, active⟩) (hr : (m.books g).records.get? i = some record) :
    Narrated (events g i moves) s record.view := by
  induction h generalizing s active record with
  | refl => cases hl
  | @act moves m m' move h ha ih =>
    have shift := shift_act h.reachable.ordered ha
    obtain ⟨s₀, hl₀⟩ : ∃ s₀, m.look (.context c) = some (some g, s₀) := by
      rcases shift.came hl with ⟨-, hl₀⟩ | hl₀ | rfl | rfl
      · exact hl₀
      · exact ⟨_, hl₀⟩
      · cases seat
      · cases seat
    by_cases hact : move.actor? = some (.context c)
    · obtain rfl := Action.step_of_actor hact
      obtain ⟨t, ht, hg, rfl⟩ := look_eq_some m _ hl₀
      rcases says_step h.reachable ht ha with ⟨gone, -⟩ | ⟨k', ht', utters⟩
      · simp [look, gone] at hl
      · have after : k'.stance = s := congrArg Prod.snd (Option.some.inj ((look_eq m' _ ht').symm.trans hl))
        subst after
        exact h.narrated_own ha (fun seat hr => ih hl₀ seat hr) ht hg ht' utters seat hr
    · rw [(shift.other h.reachable.ordered (by simp [hl₀]) hact).look] at hl
      rw [h.events_of_other ha hl seat hact]
      exact ih hl seat ((h.reachable.spared ha hl seat hact g).1 ▸ hr)

/-! ## Tasks that have ended -/

/-- How its host ends the task `i` with this outcome; `torn` says whether it is without the slot. -/
inductive Stance.Closes (i : TaskId) : Stance → Stance → TaskOutcome → (torn : Bool) → Prop where
  | completes (outcome : TaskOutcome) : Closes i (.complete i outcome) .claim outcome false
  | aborts {s : Stance} : s = .wait i ∨ s = .contend i → Closes i s (.body (some ⟨i, false⟩)) .aborted true
  | strands : Closes i (.strand i) .leave .failed true

namespace Stance.Closes

variable {outcome : TaskOutcome} {torn : Bool} (h : Closes i s s' outcome torn)
include h

theorem seat : s.seat? = some ⟨i, !torn⟩ := by
  cases h with
  | aborts hs => rcases hs with rfl | rfl <;> rfl
  | _ => rfl

theorem hands : s.hands? = none := by
  cases h with
  | aborts hs => rcases hs with rfl | rfl <;> rfl
  | _ => rfl

end Stance.Closes

/-- Who shows a task as ended has shown it before, or its host has ended it in this step. -/
theorem Utters.closes (h : Utters m a own m' k k') {d : TaskHandle} (hd : (m'.books g).handles.get? i = some d)
    (ended : d.state = .finished) : (m.books g).handles.get? i = some d ∨
      ∃ record outcome torn, own = some g ∧ (m.books g).records.get? i = some record ∧ d.outcome = some outcome ∧
        k'.notice? = some (g, { kind := .finished outcome, task := lastView record.view }) ∧
        k.stance.Closes i k'.stance outcome torn := by
  have kept (same : (m.books g).SameTasks (m'.books g)) : (m.books g).handles.get? i = some d := same.handles ▸ hd
  have moved {g' : CogId} {j : TaskId} {st : TaskState} {f : TaskRecord → TaskRecord} (hst : st ≠ .finished)
      (changes : m.Changes g' m' fun y y' => y.Moves y' j st f) : (m.books g).handles.get? i = some d := by
    rcases changes.at g with moves | same
    · rw [moves.handles, Table.get?_modify] at hd
      split at hd
      · obtain ⟨old, -, rfl⟩ := Option.map_eq_some_iff.mp hd
        exact absurd ended hst
      · exact hd
    · exact kept same
  have entered {g' : CogId} {view : TaskView} (changes : m.Changes g' m' fun y y' => y.Enters y' view) :
      (m.books g).handles.get? i = some d := by
    rcases changes.at g with enters | same
    · rw [enters.handles, Table.get?_put] at hd
      split at hd
      · cases hd
        cases ended
      · exact hd
    · exact kept same
  -- One task ends here; if it is another, the handle has been there.
  have closed {g' : CogId} {j : TaskId} {outcome : TaskOutcome} {record : TaskRecord} {torn : Bool}
      (hown : own = some g') (hr : (m.books g').records.get? j = some record)
      (changes : m.Changes g' m' fun y y' => y.Ends y' j outcome)
      (hn : k'.notice? = some (g', { kind := .finished outcome, task := lastView record.view }))
      (closes : k.stance.Closes j k'.stance outcome torn) : (m.books g).handles.get? i = some d ∨
        ∃ record outcome torn, own = some g ∧ (m.books g).records.get? i = some record ∧ d.outcome = some outcome ∧
          k'.notice? = some (g, { kind := .finished outcome, task := lastView record.view }) ∧
          k.stance.Closes i k'.stance outcome torn := by
    by_cases hg : g = g'
    · subst hg
      rw [changes.here.handles, Table.get?_modify] at hd
      split at hd
      · next hi =>
        subst hi
        obtain ⟨old, -, rfl⟩ := Option.map_eq_some_iff.mp hd
        exact .inr ⟨record, outcome, torn, hown, hr, rfl, hn, closes⟩
      · exact .inl hd
    · exact .inl (kept (changes.elsewhere g hg))
  cases h with
  | tells _ _ _ books | still books | starts books | forsakes books | handed _ _ books => exact .inl (kept (books g))
  | submits changes | enters changes => exact .inl (entered changes)
  | withdraws changes =>
    rcases changes.at g with withdraws | same
    · rw [withdraws.handles, Table.get?_remove] at hd
      split at hd
      · cases hd
      · exact .inl hd
    · exact .inl (kept same)
  | claims _ _ _ changes | resumes _ _ _ changes | hands _ changes | suspends _ _ changes =>
    exact .inl (moved (by simp) changes)
  | readies _ _ changes =>
    rcases changes.at g with readies | same
    · exact .inl (readies.2.1 ▸ hd)
    · exact .inl (kept same)
  | aborts hown hph hr changes =>
    refine closed hown hr changes rfl (.aborts ?_)
    rcases hph with rfl | ⟨failure, rfl⟩
    · exact .inl rfl
    · exact .inr rfl
  | completes hown hr changes => exact closed hown hr changes rfl (.completes _)
  | strands hown hr changes => exact closed hown hr changes rfl .strands

/-- A task that has ended has no record. -/
theorem Machine.Reachable.unrecorded (h : Reachable (.empty r memory) m) {d : TaskHandle}
    (hd : m.handle? g i = some d) (ended : d.state = .finished) : (m.books g).records.get? i = none := by
  obtain ⟨x, hx, hd⟩ := Option.bind_eq_some_iff.mp hd
  rw [books_eq hx, Option.eq_none_iff_forall_ne_some]
  intro record hr
  have faithful := (h.attended hx).faithful
  cases hd.symm.trans (faithful.shown hr)
  exact (faithful.sound hr).unfinished ended

/-- The view of a task that its host has without the slot shows a guard. -/
theorem History.label_of_seat (h : History (.empty r memory) moves m) (hl : m.look (.context c) = some (some g, s))
    (seat : s.seat? = some ⟨i, false⟩) (hr : (m.books g).records.get? i = some record) :
    ∃ label, record.view.guard = some label := by
  obtain ⟨-, x, hx⟩ := h.reachable.ordered.home hl
  have state := h.state_of_seat hl seat hr
  rw [books_eq hx] at hr
  exact Option.isSome_iff_exists.mp (((h.reachable.attended hx).faithful.sound hr).guarded.mpr state)

section
variable (h : History (.empty r memory) moves m) (ha : m.act move = some m')
include h ha

/-- Who is stranded in this move was unfinished, and has ended. -/
theorem History.ended_of_stranded? (hi : (⟨m, move, m'⟩ : Move S A V).stranded? g = some i) :
    ((m.books g).records.get? i).isSome ∧ ∃ d, m'.handle? g i = some d ∧ d.state = .finished := by
  have ho := h.reachable.ordered
  obtain ⟨a, turn⟩ := Move.stranded?_turn hi
  have present : ((m.books g).records.get? i).isSome := by
    unfold Move.stranded? at hi
    rw [turn] at hi
    dsimp only at hi
    split at hi
    · next there =>
      cases hx : m.cogs.get? g with
      | none => simp [hx] at there
      | some x => simpa [books_eq hx, hx] using there
    · cases hi
  refine ⟨present, ?_⟩
  have shift := shift_act ho ha
  generalize hact : move.actor? = actor at shift
  cases shift.vantage ho g with
  | aside hb => cases (Beside.not_stranded (v := ⟨m, move, m'⟩) hb).symm.trans hi
  | grant hb _ hg => cases (hg.not_stranded hact hb).symm.trans hi
  | deed ht hw hd =>
    rw [ht.turn hact] at turn
    cases turn
    have course := (h.reachable.filed hw.before).course ho ht h.reachable.blank ha hw hd
    rw [handle?_books, books_eq hw.here]
    rw [books_eq hw.before] at present
    obtain ⟨old, hold⟩ := Option.isSome_iff_exists.mp present
    cases course with
    | rest keeps => cases keeps.seat
    | withdraw _ keeps => cases keeps.seat
    | enter _ keeps => cases keeps.seat
    | fade _ _ absent => cases hold.symm.trans absent
    | strand _ _ _ ends =>
      rw [ends.handles, Table.get?_modify, if_pos rfl, (h.reachable.attended hw.before).faithful.shown hold]
      exact ⟨_, rfl, rfl⟩

end

/-- A task that has been stranded has ended. -/
theorem History.ended_of_stranded (h : History (.empty r memory) moves m) (hi : i ∈ stranded g moves) :
    ∃ d, m.handle? g i = some d ∧ d.state = .finished := by
  induction h with
  | refl => cases hi
  | @act moves m m' move h ha ih =>
    rw [stranded_snoc] at hi
    rcases List.mem_append.mp hi with old | new
    · obtain ⟨d, hd, ended⟩ := ih old
      exact ⟨d, h.handle_final (.act .refl ha) hd ended, ended⟩
    · exact (h.ended_of_stranded? ha (Option.mem_toList.mp new)).2

/-- Whether a task is without the slot when its host ends it tells whether it is aborted or stranded. -/
theorem Stance.Closes.torn_iff {outcome : TaskOutcome} {torn : Bool} (closes : s.Closes i s' outcome torn)
    (h : Reachable (.empty r memory) m) (hl : m.look a = some (some g, s))
    (turn : (⟨m, move, m'⟩ : Move S A V).turn = some (a, some g, s, s'))
    (hr : (m.books g).records.get? i = some record) (unstranded : i ∉ stranded g moves) :
    torn = true ↔ outcome = .aborted ∨ i ∈ stranded g (moves ++ [⟨m, move, m'⟩]) := by
  rw [stranded_snoc]
  cases closes with
  | completes =>
    have honest : outcome ≠ .aborted := by
      rintro rfl
      exact Honest.reachable h _ _ i hl
    simp [Move.stranded?, turn, unstranded, honest]
  | aborts => simp
  | strands =>
    have present : ((m.cogs.get? g).bind fun x => x.scheduler.records.get? i).isSome := by
      obtain ⟨-, x, hx⟩ := h.ordered.home hl
      rw [hx, Option.bind_some, ← books_eq hx, hr]
      rfl
    simp [Move.stranded?, turn, present]

/-- What has been raised tells how the task has ended. -/
def Epilogue (moves : List (Move S A V)) (g : CogId) (i : TaskId) (d : TaskHandle) : Prop :=
  ∃ n outcome torn, d.outcome = some outcome ∧ Tale (events g i moves) (.ended n outcome torn) ∧
    (torn = true ↔ outcome = .aborted ∨ i ∈ stranded g moves)

section
variable (h : History (.empty r memory) moves m) (ha : m.act move = some m') {d : TaskHandle}
include h ha

/-- Nothing more is raised about a task that has ended, and it is not stranded any more. -/
theorem History.epilogue_before (epilogue : Epilogue moves g i d) (hd : m.handle? g i = some d)
    (ended : d.state = .finished) : Epilogue (moves ++ [⟨m, move, m'⟩]) g i d := by
  obtain ⟨n, outcome, torn, how, tale, ends⟩ := epilogue
  have absent := h.reachable.unrecorded hd ended
  have apart : (⟨m, move, m'⟩ : Move S A V).stranded? g ≠ some i := by
    intro hi
    have present := (h.ended_of_stranded? ha hi).1
    rw [absent] at present
    cases present
  refine ⟨n, outcome, torn, how, ?_, ?_⟩
  · rwa [h.events_of_absent ha absent]
  · simpa [stranded_snoc, apart] using ends

end

/-- In every run, what has been raised about a task that has ended tells how, once and for all. -/
theorem History.concluded (h : History (.empty r memory) moves m) {d : TaskHandle} (hd : m.handle? g i = some d)
    (ended : d.state = .finished) : Epilogue moves g i d := by
  induction h with
  | refl => cases hd
  | @act moves m m' move h ha ih =>
    rcases h.reachable.says_act ha with ⟨books, -⟩ | ⟨a, t, k', rfl, ht, ht', utters⟩
    · rw [handle?_books, (books g).handles, ← handle?_books] at hd
      exact h.epilogue_before ha (ih hd) hd ended
    · rw [handle?_books] at hd
      rcases utters.closes hd ended with hd | ⟨record, outcome, torn, hown, hr, how, hn, closes⟩
      · rw [← handle?_books] at hd
        exact h.epilogue_before ha (ih hd) hd ended
      · have hl := look_eq m a ht
        rw [hown] at hl
        obtain ⟨⟨c, rfl⟩, x, hx⟩ := h.reachable.ordered.home hl
        have turn : (⟨m, .step (.context c), m'⟩ : Move S A V).turn =
            some (.context c, some g, t.control.stance, k'.stance) := by
          simp [Move.turn, Action.actor?, hl, look_eq m' _ ht']
        have unstranded : i ∉ stranded g moves := by
          intro hi
          obtain ⟨d, hd, ended⟩ := h.ended_of_stranded hi
          cases hr.symm.trans (h.reachable.unrecorded hd ended)
        have id : record.view.id = i := (h.roll.2 hx).tidy.id_eq (books_eq hx ▸ hr)
        have told : events g i (moves ++ [⟨m, .step (.context c), m'⟩]) =
            events g i moves ++ [{ kind := .finished outcome, task := lastView record.view }] := by
          rw [events_of_step ht', hn]
          simp [about, lastView, id]
        have state := h.state_of_seat hl closes.seat hr
        have narrated := h.narrated hl closes.seat hr
        refine ⟨record.view.suspensions, outcome, torn, how, ?_, closes.torn_iff h.reachable hl turn hr unstranded⟩
        rw [told]
        cases torn with
        | false => exact narrated.finished closes.hands state outcome
        | true =>
          obtain ⟨label, guarded⟩ := h.label_of_seat hl closes.seat hr
          exact narrated.torn closes.hands state guarded outcome

end ObjectGroups
