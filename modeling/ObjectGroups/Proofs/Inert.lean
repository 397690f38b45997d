/-
An aborted task is inert.

The abort ends the task in the books while its body goes on without the slot.
Whatever the body does from then on, its context has nothing more to say about
the cog: work on the state and awaits are refused, the exit finds the task
ended and changes nothing, and the context neither claims a task nor is retired
once more. A body without the slot can still submit tasks; this changes no
state and ends no task.
-/
import ObjectGroups.Proofs.Contexts
import ObjectGroups.Proofs.Outcomes

namespace ObjectGroups

variable {S A V : Type} {m m' : Machine S A V} {g : CogId} {c : ContextId} {own : Option CogId}
  {s s' : Stance} {x x' : Cog S A V} {k j : TaskId} {move : Action S A V} {v w : Move S A V}
  {moves earlier later : List (Move S A V)} {aw : Awaiting S A V} {r : Registry} {memory : A}

open Machine Scheduler

/-! ## Threads of aborted tasks -/

/-- The thread hosts the task without the slot and is in no await, or is about to end. -/
def Stance.Lapsed (k : TaskId) (s : Stance) : Prop :=
  (s.seat? = some ⟨k, false⟩ ∧ s.suspends = none) ∨ s = .leave

namespace Stance.Lapsed

theorem slot (h : s.Lapsed k) : s.slot = false := by
  rcases h with ⟨seat, -⟩ | rfl
  · have idle : s ≠ .claim := by
      rintro rfl
      cases seat
    simp [Stance.slot, seat, idle]
  · rfl

theorem not_claim (h : s.Lapsed k) : s ≠ .claim := by
  rintro rfl
  rcases h with ⟨seat, -⟩ | e
  · cases seat
  · cases e

/-- Whatever the thread does next, it does not leave the task before its end. -/
theorem passes {a : Agent} (h : s.Lapsed k) (hp : Passes m m' a (some g) s s') : s'.Lapsed k := by
  have seated {s' : Stance} (hseat : s'.seat? = s.seat?) (hw : s'.suspends = s.suspends)
      (hs : s ≠ .leave) : s'.Lapsed k := by
    obtain ⟨seat, idle⟩ := h.resolve_right hs
    exact .inl ⟨hseat.trans seat, hw.trans idle⟩
  have never {P : Prop} (hs : ¬ s.Lapsed k) : P := absurd h hs
  cases hp with
  | quiet hq => cases hq with
    | same => exact h
    | await t => exact never (by simp [Stance.Lapsed, Stance.seat?])
    | leave seat none => exact .inr rfl
    | strand t => exact seated rfl rfl (by simp)
    | start seat => exact seated rfl rfl (by simp)
    | dropped stage seat => exact seated rfl rfl (by simp)
    | enter _ d hd => exact seated (by simp) (by simp) (by rintro rfl; cases hd)
  | deed hd => cases hd with
    | abort now hst =>
      refine never ?_
      rcases hst with rfl | ⟨rfl, -⟩ <;> simp [Stance.Lapsed, Stance.suspends]
    | submit | enqueue | withdraw | unwindSubmit => exact seated rfl rfl (by simp)
    | strand | fade => exact .inr rfl
    | _ => exact never (by simp [Stance.Lapsed, Stance.seat?, Stance.suspends])
  | allocate hst => exact seated (by simp) (by simp) (by rintro rfl; cases hst)
  | grant hg => cases hg with
    | submission => exact seated rfl rfl (by simp)
    | handover => exact never (by simp [Stance.Lapsed, Stance.suspends])
  | launch => exact seated rfl rfl (by simp)
  | letter => exact seated rfl rfl (by simp)

end Stance.Lapsed

namespace Machine

/-- The context has hosted the task and will host no other. -/
structure Lapsed (m : Machine S A V) (c : ContextId) (g : CogId) (k : TaskId) : Prop where
  used : m.Used c
  idle {own : Option CogId} {s : Stance} : m.look (.context c) = some (own, s) → own = some g ∧ s.Lapsed k

theorem Lapsed.act (h : m.Lapsed c g k) (ho : m.Ordered) (ha : m.act move = some m') : m'.Lapsed c g k where
  used := h.used.kept (shift_act ho ha)
  idle := by
    intro own s hl
    have shift := shift_act ho ha
    rcases shift.origin hl with ⟨s₀, hl₀⟩ | ⟨b, own₀, s₀, hb, launches, -⟩
    · obtain ⟨rfl, lapsed⟩ := h.idle hl₀
      refine ⟨rfl, ?_⟩
      by_cases hact : move.actor? = some (.context c)
      · rw [hact] at shift
        exact lapsed.passes (shift.passes hl₀ hl).2
      · have stirred := shift.other ho (by simp [hl₀]) hact
        rw [stirred.look, hl₀] at hl
        cases hl
        exact lapsed
    · exact absurd (s₀.newcomer?_stage.mpr (.inr launches)) (h.used.started b own₀ s₀ hb)

end Machine

/-- A context that has lapsed stays so. -/
theorem History.lapsed {n : Machine S A V} (h : History m moves n) (ho : m.Ordered)
    (hl : m.Lapsed c g k) : n.Lapsed c g k := by
  induction h with
  | refl => exact hl
  | act h ha ih => exact ih.act (ho.reachable h.reachable) ha

/-- A context that has lapsed claims no task. -/
theorem History.claims_lapsed {n : Machine S A V} (h : History m moves n) (ho : m.Ordered)
    (hl₀ : m.Lapsed c g k) {i : CogId} : (c, j) ∉ claims i moves := by
  induction h with
  | refl => simp [claims]
  | @act moves n n' act h ha ih =>
    rw [claims_snoc, List.mem_append, Option.mem_toList]
    rintro (old | claimed)
    · exact ih old
    · obtain ⟨active, turn⟩ := Move.claimed?_turn claimed
      obtain ⟨-, hl, -⟩ := Move.acts turn
      have lapsed := (h.lapsed ho hl₀).idle hl
      exact lapsed.2.not_claim rfl

/-! ## Steps without the slot -/

/-- The thread is in the middle of a submission. -/
def Stance.submits : Stance → Bool
  | .enrol .. | .submit .. => true
  | _ => false

/-- The state is as it was, and no task and no context has been counted. -/
structure Cog.Spared (x x' : Cog S A V) : Prop where
  state : x'.state = x.state
  ended : x'.ended = x.ended
  tally (o : TaskOutcome) : x'.scheduler.tally o = x.scheduler.tally o
  retired : x'.scheduler.metrics.contextsRetired = x.scheduler.metrics.contextsRetired

namespace Machine

/-- A context whose body has ended is on no list of waiters. -/
theorem Reachable.not_waiting (h : Reachable (.empty r memory) m) (hx : m.cogs.get? g = some x)
    (hl : m.look (.context c) = some (own, .strand k)) : c ∉ x.scheduler.waiters := by
  intro hc
  obtain ⟨t, aw, phase, ht, -, hb, early⟩ := h.enlisted g x c hx hc
  have stance : t.control.stance = .strand k := by
    rw [look_eq m _ ht] at hl
    exact congrArg Prod.snd (Option.some.inj hl)
  rw [← Control.stance_behind, hb] at stance
  cases phase <;> cases stance

/-- A context whose task has ended while the body goes on leaves all cogs as they are, but for
the tasks that it submits. -/
theorem Lapsed.spares (h : m.Lapsed c g k) (hr : Reachable (.empty r memory) m)
    (past : ∀ x, m.cogs.get? g = some x → x.scheduler.records.get? k = none)
    (ha : m.act (.step (.context c)) = some m') : (∀ i, m'.cogs.get? i = m.cogs.get? i) ∨
      ∃ s, m.look (.context c) = some (some g, s) ∧ s.submits = true ∧
        ∀ i y y', m.cogs.get? i = some y → m'.cogs.get? i = some y' → y.Spared y' := by
  have ho : m.Ordered := hr.ordered
  have shift : Shift m m' (some (.context c)) := shift_act ho ha
  have still (hc : m'.cogs = m.cogs) : ∀ i, m'.cogs.get? i = m.cogs.get? i := fun i => by rw [hc]
  -- A submission works on one cog.
  have works {i : CogId} {own : Option CogId} {x x' : Cog S A V} {s : Stance} (hl : m.look (.context c) = some (own, s))
      (hs : s.submits = true) (hw : Works m i x x' m') (hx : x.Spared x') :
      ∃ s, m.look (.context c) = some (some g, s) ∧ s.submits = true ∧
        ∀ i y y', m.cogs.get? i = some y → m'.cogs.get? i = some y' → y.Spared y' := by
    obtain ⟨rfl, -⟩ := h.idle hl
    refine ⟨s, hl, hs, fun j y y' hy hy' => ?_⟩
    rcases hw.cases hy' with ⟨rfl, rfl⟩ | ⟨-, same⟩
    · cases hw.before.symm.trans hy
      exact hx
    · cases hy.symm.trans same
      exact ⟨rfl, rfl, fun _ => rfl, rfl⟩
  cases shift with
  | quiet _ _ hc => exact .inl (still hc)
  | allocate _ _ hc => exact .inl (still hc)
  | launch _ hc => exact .inl (still hc)
  | letter _ _ hc => exact .inl (still hc)
  | gone _ _ _ _ hc => exact .inl (still hc)
  | @deed a own i loud s s' x x' ht hw hd =>
    obtain ⟨rfl, lapsed⟩ := h.idle ht.before
    have never {P : Prop} (hs : ¬ s.Lapsed k) : P := absurd lapsed hs
    cases hd with
    | submit | enqueue | withdraw | unwindSubmit =>
      refine .inr (works ht.before rfl hw ⟨rfl, rfl, fun o => ?_, rfl⟩)
      cases o <;> rfl
    | strand =>
      obtain ⟨seat, -⟩ := lapsed.resolve_right (by simp)
      cases seat
      have ended := ho.strand_cases ha hw.before hw.here ht.before ht.after
      simp [Table.has, past _ hw.before] at ended
    | fade =>
      refine .inl fun j => ?_
      have absent := hr.not_waiting hw.before ht.before
      rw [hw.after]
      split
      · next e =>
        have others : ∀ d ∈ x.scheduler.waiters, decide (d ≠ c) = true := by
          intro d hd
          refine decide_eq_true ?_
          rintro rfl
          exact absent hd
        have kept : x.scheduler.removeWaiter c = x.scheduler := by
          unfold removeWaiter
          rw [List.filter_eq_self.mpr others]
        rw [e, hw.before, kept]
      · rfl
    | abort now hst =>
      refine never ?_
      rcases hst with rfl | ⟨rfl, -⟩ <;> simp [Stance.Lapsed, Stance.suspends]
    | _ => exact never (by simp [Stance.Lapsed, Stance.seat?, Stance.suspends])
  | birth hb hw hg =>
    obtain ⟨rfl, lapsed⟩ := h.idle hb.before
    cases hg with
    | submission =>
      refine .inr (works hb.before rfl hw ⟨rfl, rfl, fun o => ?_, rfl⟩)
      cases o <;> rfl
    | handover => exact absurd lapsed (by simp [Stance.Lapsed, Stance.suspends])

end Machine

/-! ## The abort -/

/-- At this phase an await returns that it has been interrupted: it has found so outside the
lock, or finds the flag of its context raised as it looks at the slot. -/
def Phase.exits (flag : Bool) : Phase S → Bool
  | .abort => true
  | .contend _ => flag
  | _ => false

/-- In this move an await of the context returns that it has been interrupted. -/
structure Move.Aborts (v : Move S A V) (c : ContextId) (g : CogId) (aw : Awaiting S A V) : Prop where
  act : v.act = .step (.context c)
  stands : ∃ x t phase, v.before.Stands c g x t aw phase ∧ phase.exits (v.before.interrupted c) = true

/-- The cog and the task of the await of the context that is aborted in this move. -/
def Move.aborted? (c : ContextId) (v : Move S A V) : Option (CogId × TaskId) :=
  match v.act, v.before.threads.get? (.context c) with
  | .step (.context d), some ⟨some g, .awaiting aw phase⟩ =>
    if d = c ∧ v.before.cogs.has g ∧ phase.exits (v.before.interrupted c) then some (g, aw.task) else none
  | _, _ => none

theorem Move.aborted?_aborts (h : v.aborted? c = some (g, k)) : ∃ aw, aw.task = k ∧ v.Aborts c g aw := by
  unfold aborted? at h
  split at h
  · next d i aw phase act thread =>
    split at h
    · next holds =>
      obtain ⟨rfl, there, exits⟩ := holds
      cases h
      obtain ⟨x, hx⟩ := Option.isSome_iff_exists.mp there
      exact ⟨aw, rfl, act, x, _, phase, ⟨thread, rfl, hx, rfl⟩, exits⟩
    · cases h
  · cases h

/-- The error goes to the body, and the task ends in the books. -/
theorem Move.Aborts.ends (h : v.Aborts c g aw) (ha : v.before.act v.act = some v.after) : ∃ x t t',
    v.before.cogs.get? g = some x ∧
    v.before.threads.get? (.context c) = some t ∧ t.cog = some g ∧ t.control.await? = some aw ∧
    v.after.threads.get? (.context c) = some t' ∧ t'.cog = some g ∧
    t'.control.behind = .run (some ⟨aw.task, false⟩) (aw.next (.error .interrupted)) ∧
    v.after.cogs.get? g =
      some { x with scheduler := (x.scheduler.abort aw.task c v.before.now).2, lock := none } := by
  obtain ⟨act, x, t, phase, stands, exits⟩ := h
  rw [act] at ha
  obtain ⟨control, ht', strides⟩ := step_strides stands.thread stands.home stands.control stands.cog ha
  have ended : control.behind = .run (some ⟨aw.task, false⟩) (aw.next (.error .interrupted)) ∧
      v.after.cogs.get? g =
        some { x with scheduler := (x.scheduler.abort aw.task c v.before.now).2, lock := none } := by
    cases strides with
    | aborts _ hb hx' => exact ⟨hb, hx'⟩
    | proceeds proceeds => cases proceeds with
      | taken _ _ _ _ going | refused _ _ _ _ going => cases going.symm.trans exits
      | _ => cases exits
    | fails _ _ _ _ going | unwinds _ _ _ going | resumes _ _ _ _ going => cases going.symm.trans exits
    | _ => cases exits
  exact ⟨x, t, _, stands.cog, stands.thread, stands.home, stands.awaits, ht', stands.home, ended⟩

namespace Machine.Lapsed

variable {t : Thread S A V} {seat : Option Seat}

/-- The seat of a body that runs on the context. -/
theorem seat_of_run (h : m.Lapsed c g k) (ht : m.threads.get? (.context c) = some t) {b : Body S A V}
    (hk : t.control = .run seat b) : seat = some ⟨k, false⟩ := by
  have hl := look_eq m _ ht
  rw [hk] at hl
  exact ((h.idle hl).2.resolve_right (by simp [Control.stance])).1

theorem access (h : m.Lapsed c g k) (ht : m.threads.get? (.context c) = some t) {change : S → S}
    {next : S → Body S A V} {refused : Body S A V} (hk : t.control = .run seat (.access change next refused)) :
    m.act (.step (.context c)) = some (m.setControl (.context c) (.run seat refused)) := by
  obtain rfl := h.seat_of_run ht hk
  simp only [Machine.act, step, ht, hk, stepBody]
  cases t.cog with
  | none => rfl
  | some i => cases hi : m.cogs.get? i <;> simp [hi]

theorem await (h : m.Lapsed c g k) (ht : m.threads.get? (.context c) = some t) {guard : Guard S}
    {next : Exit TaskError Unit → Body S A V} (hk : t.control = .run seat (.await guard next)) :
    m.act (.step (.context c)) =
      some (m.setControl (.context c) (.run seat (next (.error .notActive)))) := by
  obtain rfl := h.seat_of_run ht hk
  simp [Machine.act, step, ht, hk, stepBody]

/-- A context whose task has ended is not engaged. -/
theorem not_engaged (h : m.Lapsed c g k) (past : x.scheduler.records.get? k = none) :
    ¬ m.Engaged g x c := by
  rintro ⟨s, hl, engages⟩
  obtain ⟨-, lapsed⟩ := h.idle hl
  rcases engages with slot | ⟨j, seat, recorded⟩
  · cases slot.symm.trans lapsed.slot
  · rcases lapsed with ⟨seat', -⟩ | rfl
    · cases seat.symm.trans seat'
      simp [past] at recorded
    · cases seat

end Machine.Lapsed

/-! ## Whole runs -/

/-- What an await that has returned that it has been interrupted, in the move `v`, means for its
task, its context and the cog: at once, in the moves since, and in the state `m` after them. -/
structure Inert (v : Move S A V) (moves later : List (Move S A V)) (m : Machine S A V) (c : ContextId)
    (g : CogId) (x : Cog S A V) (aw : Awaiting S A V) : Prop where
  returned : ∃ t, v.after.threads.get? (.context c) = some t ∧ t.cog = some g ∧
    t.control.behind = .run (some ⟨aw.task, false⟩) (aw.next (.error .interrupted))
  /-- The task ends, the slot and the queue stay as they are. -/
  settled : ∃ y y', v.before.cogs.get? g = some y ∧ v.after.cogs.get? g = some y' ∧
    y.scheduler.Ends y'.scheduler aw.task .aborted ∧
    y.scheduler.Counts y'.scheduler (some .aborted) 1 y.scheduler.active ∧
    y'.scheduler.activeTask = y.scheduler.activeTask ∧ y'.scheduler.queue = y.scheduler.queue ∧
    y'.state = y.state ∧ y'.ended = y.ended
  access {t : Thread S A V} {seat : Option Seat} {change : S → S} {next : S → Body S A V}
    {refused : Body S A V} : m.threads.get? (.context c) = some t →
    t.control = .run seat (.access change next refused) →
    m.act (.step (.context c)) = some (m.setControl (.context c) (.run seat refused))
  await {t : Thread S A V} {seat : Option Seat} {guard : Guard S}
    {next : Exit TaskError Unit → Body S A V} : m.threads.get? (.context c) = some t →
    t.control = .run seat (.await guard next) →
    m.act (.step (.context c)) = some (m.setControl (.context c) (.run seat (next (.error .notActive))))
  /-- Whatever the body or the exit of the context does next, all cogs stay as they are, unless
  the body is submitting a task. -/
  spares {m' : Machine S A V} : m.act (.step (.context c)) = some m' →
    (∀ i, m'.cogs.get? i = m.cogs.get? i) ∨
      ∃ s, m.look (.context c) = some (some g, s) ∧ s.submits = true ∧
        ∀ i y y', m.cogs.get? i = some y → m'.cogs.get? i = some y' → y.Spared y'
  cancelled : x.scheduler.Cancelled aw.task
  /-- The counters count the handles, and the task is counted once. -/
  tallied : x.scheduler.Tallied
  counted (o : TaskOutcome) : (x.scheduler.endings o).count aw.task = if o = .aborted then 1 else 0
  /-- The cog has counted tasks that have not been aborted. -/
  reckoned : m.Reckoned g x
  idle {i : CogId} {k : TaskId} : (c, k) ∉ claims i later
  /-- The context is counted once among those that have retired. -/
  retired : x.scheduler.metrics.contextsRetired = (retirements g moves).length
  once : (retirements g moves).count c = 1

/-- In every run, once an await has returned that it has been interrupted, neither its body nor
its context does anything to the cog but to submit tasks, and the task stays aborted. -/
theorem aborted_inert (r : Registry) (memory : A) (h : History (.empty r memory) moves m)
    (hmoves : moves = earlier ++ v :: later) (hv : v.Aborts c g aw) (hx : m.cogs.get? g = some x) :
    Inert v moves later m c g x aw := by
  subst hmoves
  obtain ⟨before, ha, rest⟩ := h.at_move
  have after : History (.empty r memory) (earlier ++ [v]) v.after := .act before ha
  have ho' : v.after.Ordered := after.reachable.ordered
  obtain ⟨y, t, t', hy, ht, hg, awaits, ht', hg', returned, hy'⟩ := hv.ends ha
  have charge := Control.charge_of_await awaits
  have hl := look_eq v.before _ ht
  rw [hg] at hl
  have hl' := look_eq v.after _ ht'
  rw [hg', ← Control.stance_behind, returned] at hl'
  have lapsed : v.after.Lapsed c g aw.task := by
    refine ⟨.of_look ho' (by simp [hl']), fun hl₁ => ?_⟩
    cases hl'.symm.trans hl₁
    exact ⟨rfl, .inl ⟨rfl, rfl⟩⟩
  have lapsed' := rest.lapsed ho' lapsed
  -- The task ends in the books.
  have present : (y.scheduler.records.get? aw.task).isSome := by
    obtain ⟨record, hr, -⟩ := (before.reachable.filed hy).hosted hl charge
    simp [hr]
  obtain ⟨ends, counts⟩ := ends_abort present c v.before.now
  have shown : v.after.handle? g aw.task = some { state := .finished, outcome := some .aborted } := by
    obtain ⟨record, hr⟩ := Option.isSome_iff_exists.mp present
    rw [handle?_eq hy', ends.handles, Table.get?_modify, if_pos rfl,
      (before.reachable.attended hy).faithful.shown hr]
    rfl
  have final := after.handle_final rest shown rfl
  rw [handle?_eq hx] at final
  have faithful := (h.reachable.attended hx).faithful
  have past : x.scheduler.records.get? aw.task = none := by
    rw [Option.eq_none_iff_forall_ne_some]
    intro record hr
    have outcome := congrArg TaskHandle.outcome (Option.some.inj (final.symm.trans (faithful.shown hr)))
    cases outcome
  have roster := h.roster.2 hx
  constructor
  case returned => exact ⟨t', ht', hg', returned⟩
  case settled => exact ⟨y, _, hy, hy', ends, counts, by simp, by simp, rfl, rfl⟩
  case access => exact fun ht hk => lapsed'.access ht hk
  case await => exact fun ht hk => lapsed'.await ht hk
  case spares =>
    intro m' step
    refine lapsed'.spares h.reachable (fun x' hx' => ?_) step
    cases hx.symm.trans hx'
    exact past
  case cancelled => exact ⟨past, final⟩
  case tallied => exact h.tallied hx
  case counted =>
    intro o
    have distinct : (Table.keys x.scheduler.handles).Nodup := (h.roll.2 hx).distinct
    have listed : aw.task ∈ x.scheduler.endings o ↔ o = .aborted := by
      rw [mem_endings distinct]
      simp [final, eq_comm]
    rw [(nodup_endings distinct).count]
    simp only [listed]
  case reckoned => exact h.reachable.reckoned hx
  case idle => exact rest.claims_lapsed ho' lapsed
  case retired => exact roster.retired
  case once =>
    have started : c ∈ starts g (earlier ++ v :: later) := by
      unfold starts
      rw [List.filterMap_append]
      exact List.mem_append_left _ ((before.roster.2 hy).mine hl)
    exact List.count_eq_one_of_mem roster.once (roster.past.mpr ⟨started, lapsed'.not_engaged past⟩)

/-- A task is interrupted in its await. Another context has the slot while the body tries to work
on the state and to await once more, and fails. -/
def inertActions : List (Action Nat Unit Unit) :=
  [.found "cog" 0,
    .arrive (.submit ⟨1⟩ "first" (.await (.future ⟨1⟩) fun _ =>
        .access (· + 1) (fun _ => .exit (.ok ())) (.await .always fun _ => .exit (.error .notActive)))
      fun _ => .submit ⟨1⟩ "second" (.block (fun _ => false) (.exit (.ok ()))) fun _ =>
        .request (.cancel ⟨1⟩) fun _ => .exit (.ok ()))] ++
    List.replicate 7 (.step (.caller 1)) ++ List.replicate 9 (.step (.context ⟨1⟩)) ++
    List.replicate 12 (.step (.caller 1)) ++ List.replicate 3 (.step (.context ⟨2⟩)) ++
    List.replicate 14 (.step (.context ⟨1⟩))

def inertMoves : List (Move Nat Unit Unit) :=
  (Machine.empty { namePrefix := "cog", admits := fun _ => true } ()).moves inertActions

def inerted : Machine Nat Unit Unit :=
  inertActions.foldl perform (.empty { namePrefix := "cog", admits := fun _ => true } ())

theorem aborted_inert_refused : ∃ earlier v later aw x, inertMoves = earlier ++ v :: later ∧
    v.Aborts ⟨1⟩ ⟨1⟩ aw ∧ later.length = 6 ∧ inerted.look (.context ⟨1⟩) = none ∧
    inerted.cogs.get? ⟨1⟩ = some x ∧ Inert v inertMoves later inerted ⟨1⟩ ⟨1⟩ x aw ∧
    x.state = 0 ∧ x.scheduler.active = some ⟨2⟩ ∧ x.scheduler.metrics.aborted = 1 := by
  have told : (inertMoves[31]?).bind (Move.aborted? ⟨1⟩) = some (⟨1⟩, ⟨1⟩) := by decide +kernel
  obtain ⟨v, hv, aborted⟩ := Option.bind_eq_some_iff.mp told
  obtain ⟨enough, rfl⟩ := List.getElem?_eq_some_iff.mp hv
  have parts : inertMoves = inertMoves.take 31 ++ inertMoves[31] :: inertMoves.drop 32 := by
    rw [← List.drop_eq_getElem_cons enough, List.take_append_drop]
  obtain ⟨aw, -, aborts⟩ := Move.aborted?_aborts aborted
  have founded : (inerted.cogs.get? ⟨1⟩).isSome := by decide +kernel
  obtain ⟨x, hx⟩ := Option.isSome_iff_exists.mp founded
  have after : (inerted.cogs.get? ⟨1⟩).map (fun x =>
      (x.state, x.scheduler.active, x.scheduler.metrics.aborted)) = some (0, some ⟨2⟩, 1) := by decide +kernel
  rw [hx] at after
  have shown : (x.state, x.scheduler.active, x.scheduler.metrics.aborted) = (0, some ⟨2⟩, 1) :=
    Option.some.inj after
  simp only [Prod.mk.injEq] at shown
  exact ⟨_, _, _, aw, x, parts, aborts, by decide +kernel, by decide +kernel, hx,
    aborted_inert { namePrefix := "cog", admits := fun _ => true } () (history_moves _ inertActions) parts
      aborts hx, shown⟩

end ObjectGroups
