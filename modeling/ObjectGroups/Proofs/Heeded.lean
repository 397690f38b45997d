/-
No interrupt is lost.

An interrupt raises the flag of its context for good. From then on an await of
the context has one end: the task is finished as aborted, and its body gets
the error that says so. The thread takes no more than a known number of steps
until then (`Machine.remaining`), and the machine does not come to rest before.
So once all threads are at rest, no task is suspended on a context that has
been interrupted.
-/
import ObjectGroups.Proofs.Alert
import ObjectGroups.Proofs.Remaining
import ObjectGroups.Proofs.Records
import ObjectGroups.Proofs.WakeUps

namespace ObjectGroups

variable {S A V : Type} {m m' : Machine S A V} {g : CogId} {c : ContextId} {x : Cog S A V}
  {aw : Awaiting S A V} {t : Thread S A V} {k : Control S A V} {move : Action S A V}
  {r : Registry} {memory : A}

open Machine

/-- Who awaits hosts the task that does. -/
theorem Control.charge_of_await (h : k.await? = some aw) : k.stance.charge = some aw.task := by
  rw [← k.stance_behind]
  unfold await? at h
  split at h
  · next aw' phase hb =>
    cases h
    rw [hb]
    cases phase <;> rfl
  · next stage aw' hb =>
    cases h
    rw [hb]
    rfl
  · cases h

namespace Scheduler

variable {y : Scheduler S A V} {j : TaskId}

/-- The task has been finished as aborted. -/
def Cancelled (y : Scheduler S A V) (j : TaskId) : Prop :=
  y.records.get? j = none ∧ y.handles.get? j = some { state := .finished, outcome := some .aborted }

theorem cancelled_abort (hr : (y.records.get? j).isSome) (hh : (y.handles.get? j).isSome)
    (now : Instant) : (y.abort j c now).2.Cancelled j := by
  obtain ⟨record, hr⟩ := Option.isSome_iff_exists.mp hr
  obtain ⟨handle, hh⟩ := Option.isSome_iff_exists.mp hh
  have hr' : ((y.removeWaiter c).retire).records.get? j = some record := hr
  have hh' : ((y.removeWaiter c).retire).handles.get? j = some handle := hh
  simp only [abort, finish, hr']
  exact ⟨by simp, by simp [Table.get?_modify, hh']⟩

end Scheduler

/-! ## One move -/

/-- The move ends the await for the interrupt of its context: the error goes to the body, and
the task is finished as aborted. -/
structure Move.Cuts (v : Move S A V) (c : ContextId) (g : CogId) (aw : Awaiting S A V) : Prop where
  act : v.act = .step (.context c)
  awaits : v.before.Awaits c g aw
  interrupted : v.before.interrupted c = true
  error : ∃ t, v.after.threads.get? (.context c) = some t ∧ t.cog = some g ∧
    t.control.behind = .run (some ⟨aw.task, false⟩) (aw.next (.error .interrupted))
  finished : ∃ x, v.after.cogs.get? g = some x ∧ x.scheduler.Cancelled aw.task

/-- How many of the moves are steps of the context. -/
def turns (c : ContextId) (moves : List (Move S A V)) : Nat :=
  moves.countP fun v => v.act.actor? = some (.context c)

namespace Machine

/-- A task that calls `await` while it has the slot is in the await from then on. -/
theorem awaits_of_call {k : TaskId} {guard : Guard S} {next : Exit TaskError Unit → Body S A V}
    (ht : m.threads.get? (.context c) = some t) (hg : t.cog = some g)
    (hk : t.control = .run (some ⟨k, true⟩) (.await guard next))
    (ha : m.act (.step (.context c)) = some m') :
    m'.Awaits c g { task := k, guard, label := awaitLabel m.sight guard, next } := by
  simp only [act, step, ht, hk, stepBody] at ha
  cases ha
  exact ⟨_, thread_set _ ht (.same rfl), hg, rfl⟩

/-- An await of an interrupted context goes on, or is cut. -/
theorem Awaits.next (h : Reachable (.empty r memory) m) (awaits : m.Awaits c g aw)
    (hi : m.interrupted c = true) (ha : m.act move = some m') :
    (m'.Awaits c g aw ∧ m'.interrupted c = true ∧ (aw.guard.library = true →
      m'.remaining c + turns c [⟨m, move, m'⟩] ≤ m.remaining c)) ∨
    (⟨m, move, m'⟩ : Move S A V).Cuts c g aw := by
  have ho : m.Ordered := h.ordered
  obtain ⟨t, ht, hg, hk⟩ := id awaits
  have hl := look_eq m _ ht
  have flag : m'.interrupted c = true := interrupted_kept ho ha (by simp [hl]) hi
  rw [hg] at hl
  obtain ⟨x, hx⟩ := (ho.home hl).2
  by_cases hact : move.actor? = some (.context c)
  · obtain rfl := Action.step_of_actor hact
    have hh : m.Housed := h.housed
    obtain ⟨k, ht', goesOn | ⟨hb, hx'⟩⟩ := hh.interrupted_step ho ht hg hx hk hi ha
    · refine .inl ⟨⟨_, ht', hg, goesOn⟩, flag, fun hlib => ?_⟩
      have nearer := ho.remaining_step h.stock ht hg hx hk hlib hi ha ht' goesOn
      have one : turns c [(⟨m, .step (.context c), m'⟩ : Move S A V)] = 1 := by
        simp [turns, Action.actor?]
      rw [one, remaining_eq ht, remaining_eq ht']
      exact nearer
    · obtain ⟨record, hr, -⟩ := (h.filed hx).hosted hl (Control.charge_of_await hk)
      have recorded : (x.scheduler.records.get? aw.task).isSome := by simp [hr]
      exact .inr
        { act := rfl
          awaits
          interrupted := hi
          error := ⟨_, ht', hg, hb⟩
          finished := ⟨_, hx', Scheduler.cancelled_abort recorded ((h.filed hx).handled _ recorded) _⟩ }
  · have others : turns c [(⟨m, move, m'⟩ : Move S A V)] = 0 := by simp [turns, hact]
    refine .inl ⟨awaits.stays ho ha hact, flag, fun _ => ?_⟩
    rw [others, remaining_eq ht]
    rcases ho.stays ha ht hact with stays | roused
    · exact Nat.le_of_eq (remaining_eq stays)
    · exact Nat.le_of_eq ((remaining_eq roused).trans (Control.remaining_rouse _))

/-- Who is at rest in an await has not been interrupted. -/
theorem Awaits.not_interrupted (h : Reachable (.empty r memory) m) (still : m.Still)
    (awaits : m.Awaits c g aw) : m.interrupted c = false := by
  have ho : m.Ordered := h.ordered
  obtain ⟨t, ht, hg, hk⟩ := awaits
  obtain ⟨x, hx⟩ := ho.hosts ht hg
  exact still.not_interrupted ho h.heeds ht hg hx hk

/-- Only guards of the library are awaited. -/
def Stock (m : Machine S A V) : Prop :=
  ∀ a t aw, m.threads.get? a = some t → t.control.await? = some aw → aw.guard.library = true

instance : Decidable m.Stock := decidable_of_iff _ (awaited_iff Guard.library).symm

/-! ## Whole runs -/

/-- The flag of a context that has been entered stays. -/
theorem interrupted_of_history {moves : List (Move S A V)} (h : Reachable (.empty r memory) m)
    {y : Context} (hy : m.contexts.get? c = some y) (hi : m.interrupted c = true)
    (later : History m moves m') : m'.contexts.get? c = some y ∧ m'.interrupted c = true := by
  induction later with
  | refl => exact ⟨hy, hi⟩
  | act hn ha ih =>
    have reached := h.trans hn.reachable
    have ho := reached.ordered
    exact ⟨reached.addressed.kept ho ha ih.1,
      interrupted_stays ho ha (fun a own s hl => reached.addressed.once ih.1 hl) ih.2⟩

/-- What becomes of an await, from `n` on, whose context is interrupted. -/
inductive Yields (n : Machine S A V) (c : ContextId) (g : CogId) (aw : Awaiting S A V) :
    List (Move S A V) → Machine S A V → Prop where
  /-- It goes on, but the machine is not at rest. -/
  | awaits {later : List (Move S A V)} {m : Machine S A V} : m.Awaits c g aw → ¬ m.Still →
      (aw.guard.library = true → turns c later < n.remaining c) → Yields n c g aw later m
  | cut {between rest : List (Move S A V)} {last : Move S A V} {m : Machine S A V} :
      (∀ v ∈ between, v.after.Awaits c g aw) →
      (aw.guard.library = true → turns c between < n.remaining c) →
      last.Cuts c g aw → Yields n c g aw (between ++ last :: rest) m

theorem Awaits.yields {later : List (Move S A V)} (h : Reachable (.empty r memory) m)
    (awaits : m.Awaits c g aw) (hi : m.interrupted c = true) (hl : History m later m') :
    m.Yields c g aw later m' := by
  -- What holds as long as the await goes on, and afterwards.
  have course : (m'.Awaits c g aw ∧ m'.interrupted c = true ∧
        (∀ v ∈ later, v.after.Awaits c g aw) ∧
        (aw.guard.library = true → m'.remaining c + turns c later ≤ m.remaining c)) ∨
      ∃ between last rest, later = between ++ last :: rest ∧ (∀ v ∈ between, v.after.Awaits c g aw) ∧
        (aw.guard.library = true → turns c between < m.remaining c) ∧ last.Cuts c g aw := by
    induction hl with
    | refl => exact .inl ⟨awaits, hi, by simp, fun _ => Nat.le_refl _⟩
    | @act later n n' move hn ha ih =>
      rcases ih with ⟨awaits, hi, all, bound⟩ | ⟨between, last, rest, rfl, all, bound, cuts⟩
      · have pos : 0 < n.remaining c := by
          obtain ⟨t, ht, -, hk⟩ := awaits
          rw [remaining_eq ht]
          exact Control.remaining_pos hk
        rcases awaits.next (h.trans hn.reachable) hi ha with ⟨awaits', hi', nearer⟩ | cuts
        · refine .inl ⟨awaits', hi', ?_, fun hlib => ?_⟩
          · simpa [or_imp, forall_and] using ⟨all, awaits'⟩
          · have before := bound hlib
            have step := nearer hlib
            simp only [turns, List.countP_append] at before step ⊢
            omega
        · exact .inr ⟨later, _, [], rfl, all, fun hlib => by have := bound hlib; omega, cuts⟩
      · exact .inr ⟨between, last, rest ++ [⟨n, move, n'⟩], by simp, all, bound, cuts⟩
  rcases course with ⟨awaits', hi', -, bound⟩ | ⟨between, last, rest, rfl, all, bound, cuts⟩
  · have reached := h.trans hl.reachable
    refine .awaits awaits' (fun still => ?_) fun hlib => ?_
    · rw [awaits'.not_interrupted reached still] at hi'
      cases hi'
    · obtain ⟨t, ht, -, hk⟩ := awaits'
      have pos := Control.remaining_pos hk
      have := bound hlib
      rw [remaining_eq ht] at this
      omega
  · exact .cut all bound cuts

theorem recorded_of_history {moves : List (Move S A V)} (h : History (.empty r memory) moves m)
    (stock : ∀ v ∈ moves, v.before.Stock) : m.Recorded := by
  induction h with
  | refl => exact .empty r memory
  | @act moves m m' move h ha ih =>
    have ho := h.reachable.ordered
    have hh := h.reachable.housed
    have before := ih fun v hv => stock v (List.mem_append_left _ hv)
    exact before.act ho ha fun c g t aw _ ht _ hk =>
      hh.not_unwinds ho (stock ⟨m, move, m'⟩ (by simp) _ t aw ht hk)

end Machine

/-- In the run with these moves, no interrupt is lost. -/
structure Heeded (start : Machine S A V) (moves : List (Move S A V)) (m : Machine S A V) : Prop where
  /-- An interrupt raises the flag of its context for good. -/
  lasts {earlier later : List (Move S A V)} {hit : Move S A V} {c : ContextId} :
    moves = earlier ++ hit :: later → hit.interrupts? = some c → m.interrupted c = true
  /-- Wherever an await is when the flag is up, it is cut. -/
  yields {earlier later : List (Move S A V)} {n : Machine S A V} {c : ContextId} {g : CogId}
    {aw : Awaiting S A V} : moves = earlier ++ later → History start earlier n →
    History n later m → n.Awaits c g aw → n.interrupted c = true → n.Yields c g aw later m
  /-- So is one that is called on an interrupted context. -/
  refuses {earlier later : List (Move S A V)} {v : Move S A V} {c : ContextId} {g : CogId}
    {t : Thread S A V} {k : TaskId} {guard : Guard S} {next : Exit TaskError Unit → Body S A V} :
    moves = earlier ++ v :: later → v.act = .step (.context c) → v.before.interrupted c = true →
    v.before.threads.get? (.context c) = some t → t.cog = some g →
    t.control = .run (some ⟨k, true⟩) (.await guard next) →
    v.after.Yields c g { task := k, guard, label := awaitLabel v.before.sight guard, next } later m
  /-- At rest, no task is suspended on an interrupted context. -/
  rests {g : CogId} {x : Cog S A V} {t : TaskId} {record : TaskRecord} :
    (∀ v ∈ moves, v.before.Stock) → m.Still → m.cogs.get? g = some x →
    x.scheduler.records.get? t = some record → record.view.state = .suspended →
    ∃ c aw, record.view.context = some c ∧ m.Awaits c g aw ∧ aw.task = t ∧ m.interrupted c = false

theorem no_interrupt_lost {moves : List (Move S A V)} (r : Registry) (memory : A)
    (h : History (.empty r memory) moves m) : Heeded (.empty r memory) moves m := by
  constructor
  case lasts =>
    rintro earlier later hit c rfl hits
    obtain ⟨before, ha, rest⟩ := h.at_move
    have ho := before.reachable.ordered
    obtain ⟨y, hy, -⟩ := before.reachable.addressed.sends ho ha hits
    exact (interrupted_of_history (before.reachable.trans (.act .refl ha))
      (before.reachable.addressed.kept ho ha hy) (interrupted_of_signal ha hits) rest).2
  case yields =>
    intro earlier later n c g aw _ before rest awaits hi
    exact awaits.yields before.reachable hi rest
  case refuses =>
    rintro earlier later ⟨n, move, n'⟩ c g t k guard next rfl rfl hi ht hg hk
    obtain ⟨before, ha, rest⟩ := h.at_move
    have awaits := awaits_of_call ht hg hk ha
    have flag := interrupted_kept before.reachable.ordered ha (by simp [look_eq n _ ht]) hi
    exact awaits.yields (before.reachable.trans (.act .refl ha)) flag rest
  case rests =>
    intro g x t record stock still hx hr suspended
    have ho := h.reachable.ordered
    obtain ⟨a, s, hl, hs⟩ := (recorded_of_history h stock).suspended hx ⟨record, hr, suspended⟩
    obtain ⟨⟨c, rfl⟩, -⟩ := ho.home hl
    obtain ⟨th, ht, hg, rfl⟩ := look_eq_some m _ hl
    obtain ⟨aw, hk, rfl⟩ := Control.await_of_suspends hs
    have awaits : m.Awaits c g aw := ⟨th, ht, hg, hk⟩
    obtain ⟨record', hr', context⟩ := (h.reachable.filed hx).hosted hl (Control.charge_of_await hk)
    cases hr.symm.trans hr'
    exact ⟨c, aw, context, awaits, rfl, awaits.not_interrupted h.reachable still⟩

/-- Two tasks wait for a future, and the context of the first is interrupted in its sleep. -/
def tellActions : List (Action Unit Unit Unit) :=
  [.found "cog" (),
    .arrive (.submit ⟨1⟩ "first"
      (.await (.all [.any [.future ⟨1⟩, .field "never" fun _ => .ok false], .timer none 0])
        fun _ => .exit (.ok ())) fun _ =>
      .submit ⟨1⟩ "second" (.await (.future ⟨1⟩) fun _ => .exit (.ok ())) fun _ =>
        .request (.cancel ⟨1⟩) fun _ => .exit (.ok ()))] ++
    List.replicate 7 (.step (.caller 1)) ++ List.replicate 9 (.step (.context ⟨1⟩)) ++
    List.replicate 10 (.step (.caller 1)) ++ List.replicate 9 (.step (.context ⟨2⟩))

def told : Machine Unit Unit Unit :=
  tellActions.foldl perform (.empty { namePrefix := "cog", admits := fun _ => true } ())

/-- What the context does from then on. -/
def heedActions : List (Action Unit Unit Unit) := List.replicate 8 (.step (.context ⟨1⟩))

def toldMoves : List (Move Unit Unit Unit) :=
  (Machine.empty { namePrefix := "cog", admits := fun _ => true } ()).moves tellActions ++
    told.moves heedActions

theorem no_interrupt_lost_asleep : (∃ v ∈ toldMoves, v.interrupts? = some ⟨1⟩) ∧
    (∃ aw, told.Awaits ⟨1⟩ ⟨1⟩ aw ∧
      told.Yields ⟨1⟩ ⟨1⟩ aw (told.moves heedActions) (heedActions.foldl perform told)) ∧
    (heedActions.foldl perform told).Still ∧
    ∃ c aw, (heedActions.foldl perform told).Awaits c ⟨1⟩ aw ∧ aw.task = ⟨2⟩ ∧
      (heedActions.foldl perform told).interrupted c = false := by
  have heeded := no_interrupt_lost { namePrefix := "cog", admits := fun _ => true } ()
    ((history_moves _ tellActions).trans (history_moves told heedActions))
  have stock : ∀ v ∈ toldMoves, v.before.Stock := by decide +kernel
  have still : (heedActions.foldl perform told).Still := by decide +kernel
  obtain ⟨t, ht⟩ : ∃ t, told.threads.get? (.context ⟨1⟩) = some t :=
    Option.isSome_iff_exists.mp (by decide +kernel)
  have home : (told.threads.get? (.context ⟨1⟩)).map (·.cog) = some (some ⟨1⟩) := by decide +kernel
  have awaits : ((told.threads.get? (.context ⟨1⟩)).bind (·.control.await?)).isSome = true := by
    decide +kernel
  rw [ht] at home awaits
  obtain ⟨aw, hk⟩ := Option.isSome_iff_exists.mp awaits
  have first : told.Awaits ⟨1⟩ ⟨1⟩ aw := ⟨t, ht, Option.some.inj home, hk⟩
  obtain ⟨x, hx⟩ : ∃ x, (heedActions.foldl perform told).cogs.get? ⟨1⟩ = some x :=
    Option.isSome_iff_exists.mp (by decide +kernel)
  have suspended : ((heedActions.foldl perform told).cogs.get? ⟨1⟩).bind
      (fun x => (x.scheduler.records.get? ⟨2⟩).map (·.view.state)) = some .suspended := by
    decide +kernel
  rw [hx] at suspended
  obtain ⟨record, hr, hs⟩ := Option.map_eq_some_iff.mp suspended
  obtain ⟨c, aw₂, -, second, task, calm⟩ := heeded.rests stock still hx hr hs
  exact ⟨by decide +kernel,
    ⟨aw, first, heeded.yields rfl (history_moves _ tellActions) (history_moves told heedActions)
      first (by decide +kernel)⟩,
    still, c, aw₂, second, task, calm⟩

end ObjectGroups
