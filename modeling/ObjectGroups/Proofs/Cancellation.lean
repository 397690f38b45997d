/-
A task is aborted by an interrupt of its context, and only by one.

The handle of a task shows that it has been aborted from the one move on in
which its await is given up for an interrupt. That interrupt need not be meant
for this task: the flag belongs to the context, which may have got it while it
hosted another task, or none. What can be said is that no await of the context
has ended since (`Cancellation`).
-/
import ObjectGroups.Proofs.Candid
import ObjectGroups.Proofs.Interrupts
import ObjectGroups.Proofs.Phases

namespace ObjectGroups

variable {S A V : Type} {m m' : Machine S A V} {a : Agent} {g : CogId} {c : ContextId}
  {own : Option CogId} {s s' : Stance} {x x' : Cog S A V} {aw : Awaiting S A V} {phase : Phase S}
  {t : Thread S A V} {k : TaskId} {move : Action S A V}

open Machine

/-! ## Who ends a task as aborted -/

namespace Scheduler

variable {y y' : Scheduler S A V} {d : ContextId} {now : Instant}

/-- The handle of the task shows that it has been aborted. -/
def Aborted (y : Scheduler S A V) (k : TaskId) : Prop :=
  ∃ h, y.handles.get? k = some h ∧ h.outcome = some .aborted

theorem aborted_of_handles (he : y'.handles = y.handles) (h : y'.Aborted k) : y.Aborted k := by
  unfold Aborted at *
  rwa [he] at h

theorem aborted_setState {j : TaskId} {st : TaskState} {f : TaskRecord → TaskRecord}
    (h : (y.setState j st f).Aborted k) : y.Aborted k := by
  unfold setState at h
  split at h
  · obtain ⟨handle, hh, ho⟩ := h
    simp only [Table.get?_modify] at hh
    split at hh
    · obtain ⟨old, hold, rfl⟩ := Option.map_eq_some_iff.mp hh
      exact ⟨old, hold, ho⟩
    · exact ⟨handle, hh, ho⟩
  · exact h

/-- A task is aborted if it was, or if it ends as such. -/
theorem aborted_finish {j : TaskId} {outcome : TaskOutcome}
    (h : (y.finish j outcome now).2.Aborted k) : y.Aborted k ∨ (k = j ∧ outcome = .aborted) := by
  unfold finish at h
  split at h
  · exact .inl h
  · obtain ⟨handle, hh, ho⟩ := h
    simp only [Table.get?_modify] at hh
    split at hh
    · next e =>
      obtain ⟨old, -, rfl⟩ := Option.map_eq_some_iff.mp hh
      exact .inr ⟨e, Option.some.inj ho⟩
    · exact .inl ⟨handle, hh, ho⟩

theorem aborted_enqueue {view : TaskView} {body : Body S A V} (h : (y.enqueue view body).Aborted k) :
    y.Aborted k := by
  obtain ⟨handle, hh, ho⟩ := h
  simp only [enqueue, Table.get?_put] at hh
  split at hh
  · cases hh
    cases ho
  · exact ⟨handle, hh, ho⟩

theorem aborted_withdraw {j : TaskId} (h : (y.withdraw j).Aborted k) : y.Aborted k := by
  obtain ⟨handle, hh, ho⟩ := h
  simp only [withdraw, Table.get?_remove] at hh
  split at hh
  · cases hh
  · exact ⟨handle, hh, ho⟩

theorem aborted_suspend {j : TaskId} {label : String} (h : (y.suspend j d label).Aborted k) :
    y.Aborted k := by
  have before := aborted_setState (y := { y.release d with activeTask := none }) h
  exact aborted_of_handles handles_release before

theorem aborted_resume {j : TaskId} (h : (y.resume j d now).Aborted k) : y.Aborted k :=
  aborted_setState (y := { y with active := some d, activeTask := some j }) h

theorem aborted_abort {j : TaskId} (h : (y.abort j d now).2.Aborted k) : y.Aborted k ∨ k = j :=
  (aborted_finish (y := (y.removeWaiter d).retire) h).imp_right And.left

theorem aborted_complete {j : TaskId} {outcome : TaskOutcome}
    (h : (y.complete j outcome now).2.Aborted k) : y.Aborted k ∨ outcome = .aborted :=
  (aborted_finish (y := { y with activeTask := none }) h).imp_right And.right

theorem aborted_strand {j : TaskId} (h : (y.strand j d now).2.Aborted k) : y.Aborted k := by
  unfold strand at h
  rcases aborted_finish h with before | ⟨-, e⟩
  · exact aborted_of_handles handles_release before
  · cases e

end Scheduler

open Scheduler

theorem Deed.aborted {loud : Bool} (h : Deed g a own loud s x s' x')
    (hs : ∀ j, s ≠ .complete j .aborted) (hk : x'.scheduler.Aborted k) : x.scheduler.Aborted k ∨
      ∃ c, a = .context c ∧ own = some g ∧ (s = .contend k ∨ s = .wait k) ∧
        s' = .body (some ⟨k, false⟩) := by
  cases h with
  | @take c x t body rest now =>
    exact .inl (aborted_setState (y := { x.scheduler with queue := rest, activeTask := some t }) hk)
  | retire => exact .inl (aborted_of_handles handles_release hk)
  | submit body => exact .inl (aborted_enqueue hk)
  | enqueue body => exact .inl (aborted_enqueue hk)
  | withdraw => exact .inl (aborted_withdraw hk)
  | suspend label => exact .inl (aborted_suspend hk)
  | handOver label => exact .inl (aborted_suspend hk)
  | abort now hst =>
    refine (aborted_abort hk).imp_right ?_
    rintro rfl
    exact ⟨_, rfl, rfl, hst.imp_right And.left, rfl⟩
  | resume now => exact .inl (aborted_resume hk)
  | complete now =>
    refine .inl ((aborted_complete hk).resolve_right ?_)
    rintro rfl
    exact hs _ rfl
  | @strand c t x now => exact .inl (aborted_strand (y := x.scheduler.removeWaiter c) hk)
  | _ => exact .inl hk

/-- No task is about to be completed as aborted. -/
theorem Shift.completes {actor : Option Agent} (h : Shift m m' actor) {j : TaskId}
    (hl : m'.look a = some (own, .complete j .aborted)) :
    m.look a = some (own, .complete j .aborted) := by
  rcases h.came hl with ⟨rfl, s₀, hl₀⟩ | hl₀ | e | e
  · obtain ⟨-, passes⟩ := h.passes hl₀ hl
    generalize hs : Stance.complete j .aborted = s at passes
    cases passes with
    | quiet hq => cases hq with
      | same => exact hs ▸ hl₀
      | enter _ d hd =>
        have stage := Stance.stage?_restage _ (.launch d) hd
        rw [← hs] at stage
        cases stage
      | _ => cases hs
    | deed hd => cases hd with
      | finish outcome honest =>
        cases hs
        exact absurd rfl honest
      | _ => cases hs
    | allocate hst =>
      have stage := Stance.stage?_restage _ (.register m.registry.nextContext) hst
      rw [← hs] at stage
      cases stage
    | grant hg => cases hg <;> cases hs
    | launch => cases hs
    | letter => cases hs
  · exact hl₀
  · cases e
  · cases e

namespace Machine

/-- No task is about to be completed as aborted. -/
def Honest (m : Machine S A V) : Prop := ∀ a own j, m.look a ≠ some (own, .complete j .aborted)

theorem Honest.reachable {r : Registry} {memory : A} (h : Reachable (.empty r memory) m) :
    m.Honest := by
  induction h with
  | refl => nofun
  | act h ha ih =>
    intro a own j hl
    exact ih a own j ((shift_act h.ordered ha).completes hl)

/-- The handle of the task shows that it has been aborted. -/
def Aborted (m : Machine S A V) (g : CogId) (k : TaskId) : Prop :=
  ∃ x, m.cogs.get? g = some x ∧ x.scheduler.Aborted k

/-- A task that is aborted was so before, or its await has just ended. -/
theorem Aborted.act (ho : m.Ordered) (hn : m.Honest) (ha : m.act move = some m')
    (h : m'.Aborted g k) : m.Aborted g k ∨ ∃ c s, move = .step (.context c) ∧
      m.look (.context c) = some (some g, s) ∧ (s = .contend k ∨ s = .wait k) ∧
      m'.look (.context c) = some (some g, .body (some ⟨k, false⟩)) := by
  obtain ⟨x', hx', hk⟩ := h
  have shift := shift_act ho ha
  generalize hact : move.actor? = actor at shift
  cases shift.aftermath ho hx' with
  | founded _ _ empty =>
    obtain ⟨handle, hh, -⟩ := empty ▸ hk
    cases hh
  | aside _ hx same => exact .inl ⟨_, hx, same ▸ hk⟩
  | deed ht hw hd =>
    rcases hd.aborted (fun j e => hn _ _ j (e ▸ ht.before)) hk with before | ⟨c, rfl, rfl, hs, rfl⟩
    · exact .inl ⟨_, hw.before, before⟩
    · exact .inr ⟨c, _, Action.step_of_actor hact, ht.before, hs, ht.after⟩
  | grant _ hw hg =>
    refine .inl ⟨_, hw.before, ?_⟩
    cases hg <;> exact hk

/-! ## What an await can rely upon -/

/-- Only candid guards are awaited. -/
def Candid (m : Machine S A V) : Prop :=
  ∀ a t aw, m.threads.get? a = some t → t.control.await? = some aw → aw.guard.Candid

/-- A thread in an await takes itself for interrupted only if its context is. -/
def Trusts (m : Machine S A V) (c : ContextId) (_ : CogId) (_ : Cog S A V) (_ : Awaiting S A V) :
    Phase S → Prop
  | .wait w => w.Candid ∨ m.interrupted c = true
  | .abort => m.interrupted c = true
  | _ => True

theorem Trusts.of_begins (hc : aw.guard.Candid)
    (h : phase.Begins x c aw ∨ m.Trusts c g x aw phase) : m.Trusts c g x aw phase := by
  rcases h with begins | trusts
  · cases begins with
    | wait => exact .inl (.start hc)
    | _ => trivial
  · exact trusts

/-- A notification and an interrupt leave the thread with what it has. -/
theorem Trusts.stirred {p : Bool} (h : m.Trusts c g x aw phase)
    (hi : m.interrupted c = true → m'.interrupted c = true) :
    m'.Trusts c g x' aw (if p then phase.rouse else phase) := by
  have kept : m'.Trusts c g x' aw phase := by
    cases phase with
    | wait w => exact h.imp_right hi
    | abort => exact hi h
    | _ => trivial
  cases p with
  | false => exact kept
  | true => cases phase with
    | wait w => exact kept.imp_left Wait.Candid.notify
    | _ => exact kept

theorem containedAnswer_interrupted {r : Answer}
    (h : containedAnswer "wait" r = .error .interrupted) : r = .error .interrupted := by
  cases r with
  | ok b => cases h
  | error e =>
    cases h
    rfl
  | panic p => cases h

theorem trusts_act (h : m.Follows m.Trusts) (ho : m.Ordered) (hc : m.Candid)
    (ha : m.act move = some m') : m'.Follows m'.Trusts := by
  refine follows_act ho ha h ?_ ?_
  · intro c g x x' t t' aw phase phase' hact hs before hs' proceeds
    have trusts := Trusts.of_begins (hc _ t aw hs.thread hs.awaits) before
    have kept (hi : m.interrupted c = true) : m'.interrupted c = true :=
      interrupted_kept ho ha (by simp [look, hs.thread]) hi
    cases proceeds with
    | waits _ hm =>
      rcases trusts with candid | hi
      · by_cases hi : m.interrupted c = true
        · exact .inr (kept hi)
        · exact .inl (candid.step (Bool.eq_false_iff.mpr hi) hm)
      · exact .inr (kept hi)
    | interrupted hr hi =>
      rcases hi with made | hi
      · rcases trusts with candid | hi
        · exact absurd (containedAnswer_interrupted made) (candid.result hr)
        · exact kept hi
      · exact kept hi
    | answered _ hp => rcases hp with rfl | rfl <;> trivial
    | _ => trivial
  · intro c g x x' t aw phase hne hs before hm hx'
    have trusts := Trusts.of_begins (hc _ t aw hs.thread hs.awaits) before
    obtain ⟨p, t', hs', -⟩ := hs.stirred hm hx'
    exact ⟨t', _, hs', trusts.stirred (interrupted_kept ho ha (by simp [look, hs.thread]))⟩

/-- Who ends its task as aborted is interrupted. -/
theorem Aborted.interrupted (hf : m.Follows m.Trusts) (ho : m.Ordered) (hc : m.Candid)
    (hn : m.Honest) (ha : m.act move = some m') (h : m'.Aborted g k) (hk : ¬ m.Aborted g k) :
    ∃ c s, m.look (.context c) = some (some g, s) ∧ s.suspends = some k ∧ m.interrupted c = true ∧
      (⟨m, move, m'⟩ : Move S A V).ends? c = some ⟨k, false⟩ := by
  obtain ⟨c, s, rfl, hl, hs, hl'⟩ := (Aborted.act ho hn ha h).resolve_left hk
  have suspends : s.suspends = some k := by rcases hs with rfl | rfl <;> rfl
  refine ⟨c, s, hl, suspends, ?_, by
    simp [Move.ends?, Move.turn, Action.actor?, hl, hl', suspends]⟩
  obtain ⟨t, ht, hg, rfl⟩ := look_eq_some m _ hl
  obtain ⟨-, x, hx⟩ := ho.home hl
  obtain ⟨aw, haw, -⟩ := Control.await_of_suspends suspends
  obtain ⟨control, ht', treads⟩ := step_treads ho ht hg hx haw ha
  have stance : control.stance = .body (some ⟨k, false⟩) := by
    rw [look_eq m' _ ht'] at hl'
    exact congrArg Prod.snd (Option.some.inj hl')
  have before := hf c t g x ht hg hx
  have candid := hc _ t aw ht haw
  generalize t.control = control₀ at treads before hs
  cases treads with
  | tells _ _ awaits =>
    rw [Control.await?_body stance] at awaits
    cases awaits
  | hands => rcases hs with hs | hs <;> cases hs
  | strides strides => cases strides with
    | aborts hp =>
      rcases hp with rfl | ⟨hi, -⟩
      · exact Trusts.of_begins candid before.awaiting
      · exact hi
    | unwinds _ _ hx' =>
      -- A panic of the guard leaves the handles alone.
      obtain ⟨y, hy, handle⟩ := h
      cases hx'.symm.trans hy
      exact absurd ⟨x, hx, handle⟩ hk
    | hands => cases stance
    | proceeds => cases (Control.await?_body stance).symm
    | enlists hb | marked hb | fails _ _ hb | resumes _ _ hb =>
      rw [← Control.stance_behind, hb] at stance
      cases stance

end Machine

/-! ## Whole runs -/

/-- As long as only candid guards are awaited, an await that has failed on an interrupt has
been interrupted. -/
theorem History.trusts {moves : List (Move S A V)} {r : Registry} {memory : A}
    (h : History (.empty r memory) moves m) (hc : ∀ v ∈ moves, v.before.Candid) :
    m.Follows m.Trusts := by
  induction h with
  | refl => exact fun c t g x ht => by cases ht
  | @act moves m m' move h ha ih =>
    have before := ih fun v hv => hc v (List.mem_append_left _ hv)
    exact trusts_act before h.reachable.ordered (hc ⟨m, move, m'⟩ (by simp)) ha

/-- Why the task `k` of the cog `g` has been aborted: its context `c` has been interrupted, and
the await of the task has been the first of the context to end after that. -/
structure Cancellation (moves : List (Move S A V)) (g : CogId) (k : TaskId) (c : ContextId)
    (earlier : List (Move S A V)) (hit : Move S A V) (between : List (Move S A V))
    (last : Move S A V) (later : List (Move S A V)) : Prop where
  moves_eq : moves = earlier ++ hit :: between ++ last :: later
  /-- The interrupt has been delivered, whatever the context was doing. -/
  delivered : hit.interrupts? = some c
  first : ∀ v ∈ between, v.ends? c = none
  /-- The context has claimed the task before or after that. -/
  claimed : (c, k) ∈ claims g (earlier ++ hit :: between)
  ended : last.ends? c = some ⟨k, false⟩
  aborted : ¬ last.before.Aborted g k ∧ last.after.Aborted g k

/-- In every run in which only candid guards are awaited, a task is aborted only after its
context has been interrupted, while it hosted this task or before, and no await of the
context has ended between the interrupt and the abort. -/
theorem cancelled_by_interrupt {moves : List (Move S A V)} (r : Registry) (memory : A)
    (h : History (.empty r memory) moves m) (hc : ∀ v ∈ moves, v.before.Candid)
    (hk : m.Aborted g k) :
    ∃ c earlier hit between last later,
      Cancellation moves g k c earlier hit between last later := by
  induction h with
  | refl =>
    obtain ⟨x, hx, -⟩ := hk
    cases hx
  | @act moves m m' move h ha ih =>
    have ho : m.Ordered := h.reachable.ordered
    have candid : ∀ v ∈ moves, v.before.Candid := fun v hv => hc v (List.mem_append_left _ hv)
    by_cases before : m.Aborted g k
    · obtain ⟨c, earlier, hit, between, last, later, why⟩ := ih candid before
      exact ⟨c, earlier, hit, between, last, later ++ [⟨m, move, m'⟩],
        { why with moves_eq := by simp [why.moves_eq] }⟩
    · obtain ⟨c, s, hl, hs, hi, ended⟩ := Aborted.interrupted (h.trusts candid) ho
        (hc ⟨m, move, m'⟩ (by simp)) (.reachable h.reachable) ha hk before
      rcases h.delivered hi with spent | ⟨earlier, hit, between, rfl, delivered, first⟩
      · have idle := (spent.idle _ s hl).2
        rw [hs] at idle
        cases idle
      · exact ⟨c, earlier, hit, between, ⟨m, move, m'⟩, [],
          { moves_eq := rfl
            delivered
            first
            claimed := h.hosting hl (Stance.seat_of_suspends hs)
            ended
            aborted := ⟨before, hk⟩ }⟩

/-! ## An interrupt that comes too late for one task -/

/-- Whether the guard is the one that always holds. -/
def Guard.isAlways : Guard S → Bool
  | .always => true
  | _ => false

namespace Machine

theorem aborted_iff : m.Aborted g k ↔ ((m.cogs.get? g).bind fun x =>
    (x.scheduler.handles.get? k).bind (·.outcome)) = some .aborted := by
  simp only [Aborted, Scheduler.Aborted, Option.bind_eq_some_iff]

instance : Decidable (m.Aborted g k) := decidable_of_iff _ aborted_iff.symm

/-- The task that the thread of the context hosts. -/
def hosted? (m : Machine S A V) (c : ContextId) : Option TaskId :=
  (m.look (.context c)).bind fun p => p.2.seat?.map (·.task)

theorem candid_of_always (h : ∀ e ∈ m.threads, ((m.threads.get? e.1).bind (·.control.await?)).all
    (·.guard.isAlways) = true) : m.Candid := by
  intro a t aw ht hk
  have always := (awaited_iff Guard.isAlways).mpr h a t aw ht hk
  cases hg : aw.guard with
  | always => exact .always
  | _ => simp [hg, Guard.isAlways] at always

end Machine

/-- A task submits another one to its own cog and interrupts its own context. It does not
await, and ends; its context goes on with the other task, which does. -/
def strayActions : List (Action Unit Unit Unit) :=
  [.found "cog" (),
    .arrive (.submit ⟨1⟩ "first"
      (.submit ⟨1⟩ "second" (.await .always fun _ => .exit (.ok ())) fun _ =>
        .request (.interrupt ⟨1⟩) fun _ => .exit (.ok ()))
      fun _ => .exit (.ok ()))] ++
    List.replicate 7 (.step (.caller 1)) ++ List.replicate 20 (.step (.context ⟨1⟩))

def strayMoves : List (Move Unit Unit Unit) :=
  (Machine.empty { namePrefix := "cog", admits := fun _ => true } ()).moves strayActions

def strayed : Machine Unit Unit Unit :=
  strayActions.foldl perform (.empty { namePrefix := "cog", admits := fun _ => true } ())

theorem candid_stray : ∀ v ∈ strayMoves, v.before.Candid := by
  have always : ∀ v ∈ strayMoves, ∀ e ∈ v.before.threads,
      ((v.before.threads.get? e.1).bind (·.control.await?)).all
        (·.guard.isAlways) = true := by decide +kernel
  exact fun v hv => candid_of_always (always v hv)

/-- Whoever is interrupted in the run hosts the first task, and nobody shuts the registry down;
but it is the second task that is aborted. -/
theorem interrupt_outlives_task : strayed.Aborted ⟨1⟩ ⟨2⟩ ∧ ¬ strayed.Aborted ⟨1⟩ ⟨1⟩ ∧
    (∀ v ∈ strayMoves, v.before.Candid) ∧ strayed.registry.shutdown = false ∧
      ∀ v ∈ strayMoves, ∀ c ∈ v.interrupts?, v.before.hosted? c = some ⟨1⟩ :=
  ⟨by decide +kernel, by decide +kernel, candid_stray, by decide +kernel, by decide +kernel⟩

theorem cancelled_by_interrupt_stray : strayed.Aborted ⟨1⟩ ⟨2⟩ ∧
    ∃ c earlier hit between last later,
      Cancellation strayMoves ⟨1⟩ ⟨2⟩ c earlier hit between last later := by
  have aborted : strayed.Aborted ⟨1⟩ ⟨2⟩ := by decide +kernel
  exact ⟨aborted, cancelled_by_interrupt _ () (history_moves _ strayActions) candid_stray aborted⟩

end ObjectGroups
