/-
The states that the handle of a task shows.

A task is queued, runs, is suspended and runs again, and ends: at the end of
its body, by an abort, or with a body that has lost the slot to a panic. The
outcome comes with the end and stays. `Lifts` lists the steps with the stance
of the thread that takes them. A step of one task leaves everything else that
the scheduler keeps about tasks as it was, order included.
-/
import ObjectGroups.Proofs.Cancellation
import ObjectGroups.Proofs.Roll

namespace ObjectGroups

variable {S A V : Type} {m m' : Machine S A V} {a : Agent} {g : CogId} {c : ContextId}
  {own : Option CogId} {s s' : Stance} {x x' : Cog S A V} {k : TaskId} {move : Action S A V}
  {v : Move S A V} {d d' : TaskHandle} {r : Registry} {memory : A} {moves : List (Move S A V)}

open Machine Scheduler

/-- What the handle of the task shows. -/
def Machine.handle? (m : Machine S A V) (g : CogId) (k : TaskId) : Option TaskHandle :=
  (m.cogs.get? g).bind fun x => x.scheduler.handles.get? k

theorem Machine.handle?_eq (hx : m.cogs.get? g = some x) : m.handle? g k = x.scheduler.handles.get? k := by
  simp [handle?, hx]

theorem Machine.handle?_books (m : Machine S A V) : m.handle? g k = (m.books g).handles.get? k := by
  unfold handle? books
  cases m.cogs.get? g <;> rfl

/-! ## One move -/

/-- What a move makes of the handle of a task. -/
inductive Lifts (v : Move S A V) (g : CogId) (k : TaskId) : TaskHandle → TaskHandle → Prop where
  | stays (d : TaskHandle) : Lifts v g k d d
  | starts {c : ContextId} :
      v.turn = some (.context c, some g, .claim, .body (some ⟨k, true⟩)) →
      Lifts v g k {} { state := .running }
  | suspends {c : ContextId} {s' : Stance} : v.turn = some (.context c, some g, .release k, s') →
      Lifts v g k { state := .running } { state := .suspended }
  | resumes {c : ContextId} :
      v.turn = some (.context c, some g, .contend k, .body (some ⟨k, true⟩)) →
      Lifts v g k { state := .suspended } { state := .running }
  | completes {c : ContextId} {outcome : TaskOutcome} : outcome ≠ .aborted →
      v.turn = some (.context c, some g, .complete k outcome, .claim) →
      Lifts v g k { state := .running } { state := .finished, outcome := some outcome }
  /-- The await is over, as its context has been interrupted. -/
  | aborts {c : ContextId} {s : Stance} : s = .contend k ∨ s = .wait k →
      v.turn = some (.context c, some g, s, .body (some ⟨k, false⟩)) →
      Lifts v g k { state := .suspended } { state := .finished, outcome := some .aborted }
  /-- The body has ended without the slot. -/
  | strands {c : ContextId} : v.turn = some (.context c, some g, .strand k, .leave) →
      Lifts v g k { state := .suspended } { state := .finished, outcome := some .failed }

/-- A task that has ended stays as it is. -/
theorem Lifts.final (h : Lifts v g k d d') (hd : d.state = .finished) : d' = d := by
  cases h with
  | stays => rfl
  | _ => cases hd

theorem Course.lifts {y y' : Scheduler S A V} (h : Course a g own y y' s s')
    (turn : v.turn = some (a, own, s, s')) (hy : y.Faithful)
    (hq : ∀ k ∈ y.queued, ∀ r, y.records.get? k = some r → r.view.state = .queued)
    (home : own = some g → ∃ c, a = .context c ∧ ∀ k active, s.seat? = some ⟨k, active⟩ → y.Attends c k s)
    (honest : ∀ k, s ≠ .complete k .aborted) (new : ∀ k, s.letter? = some k → y.handles.get? k = none)
    (hd : y.handles.get? k = some d) :
    (∃ d', y'.handles.get? k = some d' ∧ Lifts v g k d d') ∨ s.offers g = some k := by
  have same (hh : y'.handles = y.handles) :
      (∃ d', y'.handles.get? k = some d' ∧ Lifts v g k d d') ∨ s.offers g = some k :=
    .inl ⟨d, hh ▸ hd, .stays d⟩
  -- The handle of one task changes; it shows what its record says.
  have one {i : TaskId} {f : TaskHandle → TaskHandle} (present : (y.records.get? i).isSome)
      (hh : y'.handles = y.handles.modify i f)
      (lifts : k = i → ∀ r, y.records.get? i = some r →
        Lifts v g i { state := r.view.state } (f { state := r.view.state })) :
      (∃ d', y'.handles.get? k = some d' ∧ Lifts v g k d d') ∨ s.offers g = some k := by
    by_cases hk : k = i
    · subst hk
      obtain ⟨r, hr⟩ := Option.isSome_iff_exists.mp present
      have shown := hy.shown hr
      cases hd.symm.trans shown
      refine .inl ⟨_, ?_, lifts rfl r hr⟩
      rw [hh, Table.get?_modify, if_pos rfl, shown]
      rfl
    · refine .inl ⟨d, ?_, .stays d⟩
      rw [hh, Table.get?_modify, if_neg hk, hd]
  have hosted {i : TaskId} {active : Bool} (hown : own = some g) (seat : s.seat? = some ⟨i, active⟩) :
      ∃ c, a = .context c ∧ y.Attends c i s := by
    obtain ⟨c, ha, attends⟩ := home hown
    exact ⟨c, ha, attends i active seat⟩
  cases h with
  | rest _ tasks => exact same tasks.handles
  | unwind _ _ tasks => exact same tasks.handles
  | retire _ _ tasks => exact same tasks.handles
  | fade _ _ _ tasks => exact same tasks.handles
  | prepare _ _ _ hh => exact same hh
  | @enter _ _ view letter _ enters =>
    have hk : k ≠ view.id := by
      rintro rfl
      cases hd.symm.trans (new _ letter)
    exact .inl ⟨d, by rw [enters.handles, Table.get?_put, if_neg hk, hd], .stays d⟩
  | @withdraw _ _ i offers _ withdraws =>
    by_cases hk : k = i
    · exact .inr (hk ▸ offers)
    · exact .inl ⟨d, by rw [withdraws.handles, Table.get?_remove, if_neg hk, hd], .stays d⟩
  | start now e hown hqueue hm =>
    refine one hm.present hm.handles fun _ r hr => ?_
    rw [hq _ (by simp [hqueue]) r hr]
    subst e hown
    exact .starts turn
  | suspend label _ hown _ _ hm =>
    refine one hm.present hm.handles fun _ r hr => ?_
    obtain ⟨c, ha, attends⟩ := hosted hown rfl
    rw [attends.running_of rfl hr]
    subst ha hown
    exact .suspends turn
  | resume now e hown _ hm =>
    refine one hm.present hm.handles fun _ r hr => ?_
    obtain ⟨c, -, attends⟩ := hosted hown rfl
    rw [attends.suspended_of rfl hr]
    subst e hown
    exact .resumes turn
  | complete hown _ he =>
    refine one he.present he.handles fun _ r hr => ?_
    obtain ⟨c, ha, attends⟩ := hosted hown rfl
    rw [attends.running_of rfl hr]
    subst ha hown
    exact .completes (by rintro rfl; exact honest _ rfl) turn
  | @abort _ i _ e hown _ hst he =>
    refine one he.present he.handles fun _ r hr => ?_
    have suspends : s.suspends = some i := by rcases hst with rfl | rfl <;> rfl
    obtain ⟨c, -, attends⟩ := hosted hown (Stance.seat_of_suspends suspends)
    rw [attends.suspended_of suspends hr]
    subst e hown
    exact .aborts hst turn
  | strand e hown _ he =>
    refine one he.present he.handles fun _ r hr => ?_
    obtain ⟨c, -, attends⟩ := hosted hown rfl
    rw [attends.idle_of rfl hr]
    subst e hown
    exact .strands turn

/-! ## Whole runs -/

/-- A handle goes on by one step of its task, or its task is taken back. -/
theorem History.lifts (h : History (.empty r memory) moves m) (ha : m.act move = some m')
    (hd : m.handle? g k = some d) :
    (∃ d', m'.handle? g k = some d' ∧ Lifts ⟨m, move, m'⟩ g k d d') ∨ m.Offers g k := by
  have ho : m.Ordered := h.reachable.ordered
  obtain ⟨x₀, hx₀, hd⟩ := Option.bind_eq_some_iff.mp hd
  have shift := shift_act ho ha
  generalize hact : move.actor? = actor at shift
  cases shift.vantage ho g with
  | aside _ hx =>
    rcases hx with ⟨absent, -⟩ | ⟨x, x', hx, hx', same, -⟩
    · cases hx₀.symm.trans absent
    · cases hx₀.symm.trans hx
      exact .inl ⟨d, by rw [handle?_eq hx', same, hd], .stays d⟩
  | @deed a own loud s s' x x' ht hw hd' =>
    cases hx₀.symm.trans hw.before
    have filed := h.reachable.filed hw.before
    have attended := h.reachable.attended hw.before
    have roll := h.roll.2 hw.before
    have course := filed.course ho ht h.reachable.blank ha hw hd'
    rw [handle?_eq hw.here]
    refine (course.lifts (ht.turn hact) attended.faithful (fun k hk _ hr => roll.state_of_queued hk hr)
      ?_ (fun k e => Honest.reachable h.reachable a own k (e ▸ ht.before)) (fun k letter => ?_) hd).imp_right
      fun offers => ⟨a, own, s, ht.before, offers⟩
    · rintro rfl
      obtain ⟨⟨c, rfl⟩, -⟩ := ho.home ht.before
      exact ⟨c, rfl, fun k active seat => attended.hosted ht.before seat⟩
    · rw [← Option.not_isSome_iff_eq_none]
      intro known
      exact (roll.posted k (roll.known.mp known)).arrived a own s ht.before letter
  | grant hb hw hg =>
    cases hx₀.symm.trans hw.before
    refine .inl ⟨d, ?_, .stays d⟩
    rw [handle?_eq hw.here, ← hd]
    cases hg <;> rfl

/-- A task that has been accepted is not taken back. -/
theorem Machine.Account.not_offered {taken begun : List TaskId} (h : m.Account g x taken begun)
    (hk : k ∈ taken) : ¬ m.Offers g k := by
  intro offered
  obtain ⟨q, hq, whole⟩ := h.pending k offered
  have nodup := h.tidy.nodup
  rw [hq, ← List.append_assoc, ← whole] at nodup
  exact (List.nodup_append.mp nodup).2.2 k hk k List.mem_cons_self rfl

theorem Machine.Account.mem_of_taken {taken begun : List TaskId} (h : m.Account g x taken begun)
    (hk : k ∈ taken) : k ∈ begun ++ x.scheduler.queued := by
  by_cases offered : ∃ t, m.Offers g t
  · obtain ⟨t, ht⟩ := offered
    obtain ⟨q, hq, rfl⟩ := h.pending t ht
    rw [hq, ← List.append_assoc]
    exact List.mem_append_left _ hk
  · exact h.settled (fun t ht => offered ⟨t, ht⟩) ▸ hk

/-- The handle of a task in the queue shows that it has not begun. -/
theorem History.handle_of_queued (h : History (.empty r memory) moves m) (hx : m.cogs.get? g = some x)
    (hk : k ∈ x.scheduler.queued) : m.handle? g k = some {} := by
  obtain ⟨record, hr⟩ := Option.isSome_iff_exists.mp ((h.reachable.filed hx).queued k hk)
  have shown := (h.reachable.attended hx).faithful.shown hr
  rw [handle?_eq hx, shown, (h.roll.2 hx).state_of_queued hk hr]

theorem History.handle_of_accepted (h : History (.empty r memory) moves m) (ha : m.act move = some m')
    (hk : (⟨m, move, m'⟩ : Move S A V).accepted? g = some k) : m'.handle? g k = some {} := by
  have ho : m.Ordered := h.reachable.ordered
  have next : History (.empty r memory) (moves ++ [⟨m, move, m'⟩]) m' := .act h ha
  have shift := shift_act ho ha
  generalize hact : move.actor? = actor at shift
  cases shift.vantage ho g with
  | aside hb =>
    rw [(Beside.silent (v := ⟨m, move, m'⟩) hb).1] at hk
    cases hk
  | @deed a own loud s s' x x' ht hw hd =>
    rw [hd.accepted? hact ho ht] at hk
    refine next.handle_of_queued hw.here ?_
    cases hd.queues with
    | accept i _ _ _ _ hp _ hq =>
      cases hk.symm.trans hp
      simp [hq]
    | forsake hs hs' =>
      rw [hs, hs'] at hk
      cases hk
    | same _ _ hp => cases hk.symm.trans hp
    | take _ _ _ _ _ _ hp => cases hk.symm.trans hp
    | offer _ _ _ _ _ _ hp => cases hk.symm.trans hp
    | withdraw _ _ _ hp => cases hk.symm.trans hp
  | @grant a own s s' d x x' hb hw hg =>
    rw [(hg.silent hact hb).1] at hk
    obtain ⟨q, hq⟩ := (h.reachable.filed hw.before).last k ⟨a, own, s, hb.before, hk⟩
    have queue : x'.scheduler.queued = x.scheduler.queued := by cases hg <;> rfl
    exact next.handle_of_queued hw.here (by simp [queue, hq])

/-- What a handle shows once its task has ended, it shows for good. -/
theorem History.handle_final {later : List (Move S A V)} {n : Machine S A V}
    (h : History (.empty r memory) moves n) (hl : History n later m) (hd : n.handle? g k = some d)
    (ended : d.state = .finished) : m.handle? g k = some d := by
  induction hl with
  | refl => exact hd
  | @act later n₁ n₂ move hl ha ih =>
    have before := h.trans hl
    rcases before.lifts ha ih with ⟨d', hd', lifts⟩ | ⟨a, own, s, hs, offers⟩
    · rw [lifts.final ended] at hd'
      exact hd'
    · -- A task that may be taken back has not begun.
      obtain ⟨x, hx, -⟩ := Option.bind_eq_some_iff.mp ih
      obtain ⟨q, hq⟩ := (before.reachable.filed hx).last k ⟨a, own, s, hs, offers⟩
      cases ih.symm.trans (before.handle_of_queued hx (by simp [hq]))
      cases ended

/-! ## One task at a time -/

/-- Of all tasks of all cogs, the move is about the task `k` of the cog `i` at most. -/
def Move.Sole (v : Move S A V) (i : CogId) (k : TaskId) : Prop :=
  ∀ g x x', v.before.cogs.get? g = some x → v.after.cogs.get? g = some x' →
    x.scheduler.SameTasks x'.scheduler ∨ (g = i ∧ x.scheduler.Concerns x'.scheduler k)

theorem Machine.Reachable.sole (h : Reachable (.empty r memory) m) (ha : m.act move = some m') :
    ∃ i k, (⟨m, move, m'⟩ : Move S A V).Sole i k := by
  have ho : m.Ordered := h.ordered
  have shift := shift_act ho ha
  -- Nothing happens to any task.
  have none (hc : ∀ g x x', m.cogs.get? g = some x → m'.cogs.get? g = some x' →
      x'.scheduler = x.scheduler) : ∃ i k, (⟨m, move, m'⟩ : Move S A V).Sole i k := by
    refine ⟨⟨0⟩, ⟨0⟩, fun g x x' hx hx' => .inl ?_⟩
    rw [hc g x x' hx hx']
    exact ⟨rfl, rfl, rfl⟩
  have still (hc : m'.cogs = m.cogs) : ∃ i k, (⟨m, move, m'⟩ : Move S A V).Sole i k := by
    refine none fun g x x' hx hx' => ?_
    rw [hc] at hx'
    cases hx.symm.trans hx'
    rfl
  have works {i : CogId} {y y' : Cog S A V} (hw : Works m i y y' m') {k : TaskId}
      (hy : y.scheduler.SameTasks y'.scheduler ∨ y.scheduler.Concerns y'.scheduler k) :
      ∃ i k, (⟨m, move, m'⟩ : Move S A V).Sole i k := by
    refine ⟨i, k, fun g x x' hx hx' => ?_⟩
    rcases hw.cases hx' with ⟨rfl, rfl⟩ | ⟨-, same⟩
    · cases hx.symm.trans hw.before
      exact hy.imp_right fun concerns => ⟨rfl, concerns⟩
    · cases hx.symm.trans same
      exact .inl ⟨rfl, rfl, rfl⟩
  generalize move.actor? = actor at shift
  cases shift with
  | quiet _ _ hc => exact still hc
  | deed ht hw hd =>
    have filed := h.filed hw.before
    rcases (filed.course ho ht h.blank ha hw hd).concerns (fun k hk => filed.offers_last ht hk) with
      same | ⟨k, concerns, -⟩
    · exact works hw (k := ⟨0⟩) (.inl same)
    · exact works hw (.inr concerns)
  | allocate _ _ hc => exact still hc
  | birth _ hw hg =>
    refine works hw (k := ⟨0⟩) (.inl ?_)
    cases hg <;> exact ⟨rfl, rfl, rfl⟩
  | launch _ hc => exact still hc
  | letter _ _ hc => exact still hc
  | gone _ _ _ _ hc => exact still hc
  | arrive _ _ hc => exact still hc
  | found name state _ hc =>
    refine none fun g x x' hx hx' => ?_
    have hne : g ≠ ⟨m.nextCog⟩ := by
      rintro rfl
      exact Nat.lt_irrefl _ (ho.newCog (Option.isSome_iff_exists.mpr ⟨x, hx⟩))
    rw [hc, Table.get?_put, if_neg hne, hx] at hx'
    cases hx'
    rfl
  | furnish _ hc hf =>
    refine none fun g x x' hx hx' => ?_
    rw [hc, Table.get?_modify, hx] at hx'
    split at hx'
    · cases hx'
      rw [hf]
    · cases hx'
      rfl
  | rest _ hc => exact still hc

/-- The lives of tasks in the run with these moves. -/
structure Lifecycle (start : Machine S A V) (moves : List (Move S A V)) (m : Machine S A V) : Prop where
  accepts {earlier later : List (Move S A V)} {v : Move S A V} {g : CogId} {k : TaskId} :
    moves = earlier ++ v :: later → v.accepted? g = some k → v.after.handle? g k = some {}
  /-- The handle of an accepted task goes on by one step of its task. -/
  lifts {earlier later : List (Move S A V)} {v : Move S A V} {g : CogId} {k : TaskId} :
    moves = earlier ++ v :: later → k ∈ accepted g earlier →
    ∃ d d', v.before.handle? g k = some d ∧ v.after.handle? g k = some d' ∧ Lifts v g k d d'
  final {earlier later : List (Move S A V)} {n : Machine S A V} {g : CogId} {k : TaskId} {d : TaskHandle} :
    moves = earlier ++ later → History start earlier n → History n later m →
    n.handle? g k = some d → d.state = .finished → m.handle? g k = some d
  outcome {g : CogId} {k : TaskId} {d : TaskHandle} : m.handle? g k = some d →
    (d.outcome.isSome ↔ d.state = .finished)
  records {g : CogId} {x : Cog S A V} {k : TaskId} : m.cogs.get? g = some x → x.lock = none →
    ((x.scheduler.records.get? k).isSome ↔
      k ∈ accepted g moves ∧ ∃ d, m.handle? g k = some d ∧ d.state ≠ .finished)
  agrees {g : CogId} {x : Cog S A V} {k : TaskId} {record : TaskRecord} : m.cogs.get? g = some x →
    x.scheduler.records.get? k = some record →
    m.handle? g k = some { state := record.view.state } ∧ record.Sound
  /-- All other tasks keep their records, their handles and their places. -/
  sole {earlier later : List (Move S A V)} {v : Move S A V} : moves = earlier ++ v :: later →
    ∃ i k, v.Sole i k

/-- In every run whose threads can have the names they are given, tasks go from state to state
as `Lifts` says, records agree with handles, and each move is about one task at most. -/
theorem task_lifecycle (r : Registry) (memory : A) (h : History (.empty r memory) moves m)
    (hn : ∀ v ∈ moves, v.before.Nameable) : Lifecycle (.empty r memory) moves m := by
  constructor
  case accepts =>
    rintro earlier later ⟨n, move, n'⟩ g k rfl hk
    obtain ⟨before, ha, -⟩ := h.at_move
    exact before.handle_of_accepted ha hk
  case lifts =>
    rintro earlier later ⟨n, move, n'⟩ g k rfl hk
    obtain ⟨before, ha, -⟩ := h.at_move
    have accounts := before.accounts (g := g) fun v hv => hn v (by simp [hv])
    cases hx : n.cogs.get? g with
    | none =>
      rw [(accounts.absent hx).1] at hk
      cases hk
    | some x =>
      have account := accounts.present hx
      obtain ⟨d, hd⟩ := Option.isSome_iff_exists.mp ((before.roll.2 hx).known.mpr (account.mem_of_taken hk))
      have hd : n.handle? g k = some d := (handle?_eq hx).trans hd
      rcases before.lifts ha hd with ⟨d', hd', lifts⟩ | offered
      · exact ⟨d, d', hd, hd', lifts⟩
      · exact absurd offered (account.not_offered hk)
  case final =>
    intro earlier later n g k d _ before rest hd ended
    exact before.handle_final rest hd ended
  case outcome =>
    intro g k d hd
    obtain ⟨x, hx, hd⟩ := Option.bind_eq_some_iff.mp hd
    have faithful := (h.reachable.attended hx).faithful
    cases hr : x.scheduler.records.get? k with
    | none => simp [faithful.ended hd hr]
    | some record =>
      cases hd.symm.trans (faithful.shown hr)
      simp [(faithful.sound hr).unfinished]
  case records =>
    intro g x k hx hlock
    have faithful := (h.reachable.attended hx).faithful
    have settled := ((h.accounts hn).present hx).settled (h.reachable.ordered.no_offers hx hlock)
    have known : (x.scheduler.handles.get? k).isSome ↔ k ∈ accepted g moves :=
      settled ▸ (h.roll.2 hx).known
    rw [handle?_eq hx]
    constructor
    · intro hr
      obtain ⟨record, hr⟩ := Option.isSome_iff_exists.mp hr
      have shown := faithful.shown hr
      exact ⟨known.mp (by simp [shown]), _, shown, (faithful.sound hr).unfinished⟩
    · rintro ⟨-, d, hd, unfinished⟩
      by_contra finished
      exact unfinished (faithful.ended hd (by simpa using finished)).1
  case agrees =>
    intro g x k record hx hr
    have faithful := (h.reachable.attended hx).faithful
    exact ⟨(handle?_eq hx).trans (faithful.shown hr), faithful.sound hr⟩
  case sole =>
    rintro earlier later ⟨n, move, n'⟩ rfl
    obtain ⟨before, ha, -⟩ := h.at_move
    exact before.reachable.sole ha

/-- A task awaits a guard that holds, and ends. -/
def lifeActions : List (Action Unit Unit Unit) :=
  [.found "cog" (),
    .arrive (.submit ⟨1⟩ "first" (.await .always fun _ => .exit (.ok ())) fun _ => .exit (.ok ()))] ++
    List.replicate 7 (.step (.caller 1)) ++ List.replicate 16 (.step (.context ⟨1⟩))

def lifeMoves : List (Move Unit Unit Unit) :=
  (Machine.empty { namePrefix := "cog", admits := fun _ => true } ()).moves lifeActions

theorem task_lifecycle_awaited :
    Lifecycle (.empty { namePrefix := "cog", admits := fun _ => true } ()) lifeMoves
      (lifeActions.foldl perform (.empty { namePrefix := "cog", admits := fun _ => true } ())) ∧
    accepted ⟨1⟩ lifeMoves = [⟨1⟩] ∧
    (lifeMoves.filterMap fun v => v.after.handle? ⟨1⟩ ⟨1⟩).destutter (· ≠ ·) =
      [{}, { state := .running }, { state := .suspended }, { state := .running },
        { state := .finished, outcome := some .completed }] := by
  have named : ∀ v ∈ lifeMoves, v.before.Nameable := by decide +kernel
  exact ⟨task_lifecycle _ () (history_moves _ lifeActions) named, by decide +kernel, by decide +kernel⟩

end ObjectGroups
