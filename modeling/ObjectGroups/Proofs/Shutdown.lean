/-
What a shutdown comes to.

Shutdown raises the registry's flag, and then sends an interrupt to each context
that is live. The flag comes first, so nobody comes to host a task after the
sweep: a context that hosts one then has been live at the sweep, and an
interrupt is on its way to it (`Machine.Swept`). A context that has been entered
too late for the sweep finds the flag up when it is between tasks. So once the
machine is at rest no task is suspended, and only contexts in their bodies are
live.
-/
import ObjectGroups.Proofs.Closing
import ObjectGroups.Proofs.Conservation

namespace ObjectGroups

variable {S A V : Type} {m m' n : Machine S A V} {a : Agent} {g : CogId} {c : ContextId}
  {own : Option CogId} {s : Stance} {x : Cog S A V} {k : TaskId} {seat : Seat} {move : Action S A V}
  {moves earlier later : List (Move S A V)} {call : Move S A V} {r : Registry} {memory : A}

open Machine

/-! ## The sweep -/

namespace Machine

/-- The context is interrupted, or an interrupt is on its way to it. -/
def Warned (m : Machine S A V) (c : ContextId) : Prop :=
  m.interrupted c = true ∨ ∃ a, .interrupt (.own c) ∈ m.signals a

theorem Warned.kept (h : m.Warned c) (ho : m.Ordered) (ha : m.act move = some m')
    (there : (m.look (.context c)).isSome) : m'.Warned c := by
  rcases h with flag | ⟨a, sends⟩
  · exact .inl (interrupted_kept ho ha there flag)
  · by_cases hact : move.actor? = some a
    · rcases (aside_act ho ha).signals a hact with none | ⟨first, rest, before, after, -⟩
      · rw [none] at sends
        cases sends
      · rw [before] at sends
        rcases List.mem_cons.mp sends with rfl | later
        · exact .inl (interrupted_of_signal ha (by simp [Move.interrupts?, hact, before]))
        · exact .inr ⟨a, after ▸ later⟩
    · have there : (m.look a).isSome := by
        cases ht : m.threads.get? a with
        | none => simp [signals, ht] at sends
        | some t => simp [look, ht]
      exact .inr ⟨a, ((shift_act ho ha).other ho there hact).signals ▸ sends⟩

theorem Sweeps.other (h : m.Sweeps a) (ho : m.Ordered) (ha : m.act move = some m')
    (hact : move.actor? ≠ some a) : m'.Sweeps a := by
  obtain ⟨t, seat, next, ht, hk⟩ := h
  rcases ho.stays ha ht hact with stays | roused
  · exact ⟨t, seat, next, stays, hk⟩
  · exact ⟨t.rouse, seat, next, roused, by simp [hk, Control.rouse]⟩

/-- Whoever hosts a task is warned, or the sweep is yet to come. -/
def Swept (m : Machine S A V) : Prop := (∃ a, m.Sweeps a) ∨ ∀ g c s seat,
  m.look (.context c) = some (some g, s) → s.seat? = some seat → m.Warned c

theorem Swept.act (h : m.Swept) (hr : Reachable (.empty r memory) m) (ha : m.act move = some m')
    (closed : m.registry.shutdown = true) : m'.Swept := by
  have ho : m.Ordered := hr.ordered
  -- Nobody claims a task, so who hosts one has hosted it before.
  have hosted {g : CogId} {c : ContextId} {s : Stance} {seat : Seat}
      (hl : m'.look (.context c) = some (some g, s)) (hs : s.seat? = some seat) :
      ∃ s₀ active, m.look (.context c) = some (some g, s₀) ∧ s₀.seat? = some ⟨seat.task, active⟩ :=
    (ho.hosted_or_claimed ha hl hs).resolve_right (by simp [ho.not_claimed ha closed])
  rcases h with ⟨a, sweeps⟩ | all
  · by_cases hact : move.actor? = some a
    · obtain rfl := Action.step_of_actor hact
      refine .inr fun g c s seat hl hs => .inr ⟨a, ?_⟩
      obtain ⟨s₀, -, hl₀, -⟩ := hosted hl hs
      have entered := (hr.housed.thread hl₀).1
      obtain ⟨y, hy, -⟩ := entered.entry
      obtain ⟨t, seat, next, ht, hk⟩ := sweeps
      have h : m.step a = some m' := ha
      simp only [step, ht, hk] at h
      cases h
      rw [signals_eq (thread_set _ ht (.same rfl))]
      exact List.mem_flatMap.mpr ⟨c, entered.live, by simp [interruption, hy]⟩
    · exact .inl ⟨a, sweeps.other ho ha hact⟩
  · refine .inr fun g c s seat hl hs => ?_
    obtain ⟨s₀, active, hl₀, hs₀⟩ := hosted hl hs
    exact (all g c s₀ _ hl₀ hs₀).kept ho ha (by simp [hl₀])

end Machine

/-- Once the registry is closed, all contexts with tasks are warned, or will be. -/
theorem History.swept (h : History (.empty r memory) moves m) (closed : m.registry.shutdown = true) :
    m.Swept := by
  induction h with
  | refl => exact .inr fun g c s seat hl => by cases hl
  | act h ha ih =>
    have closing := (aside_act h.reachable.ordered ha).closing
    generalize hact : Action.actor? _ = actor at closing
    cases closing with
    | same e =>
      rw [e] at closed
      exact (ih closed).act h.reachable ha closed
    | close _ sweeps => exact .inl ⟨_, sweeps⟩

/-! ## At rest -/

/-- Whether the body goes on, or waits in a call that is no await: for contexts or a task to end,
on a parker, or for a guard without a task. -/
def Control.inBody : Control S A V → Bool
  | .run .. | .idle .. | .linger .. | .park .. | .hold .. => true
  | _ => false

namespace Machine

/-- The thread is in its body, which has not returned. The body may try in vain to submit to a
cog that is not there. -/
def InBody (m : Machine S A V) (a : Agent) : Prop :=
  ∃ t, m.threads.get? a = some t ∧ (t.control.inBody = true ∨
    ∃ seat i view, t.control.stance = .enrol seat i view ∧ m.cogs.get? i = none)

namespace Still

theorem not_sweeps (h : m.Still) : ¬ m.Sweeps a := by
  rintro ⟨t, seat, next, ht, hk⟩
  have blocked := (h a).blocked ht (by simp [hk])
  simp [step, ht, hk] at blocked

/-- Who is at rest, but in no await, is in its body. -/
theorem inBody (h : m.Still) (ho : m.Ordered) (hl : m.look a = some (own, s))
    (hs : ∀ k, s ≠ .wait k) : m.InBody a := by
  have resting := h.resting ho hl
  obtain ⟨t, ht, -, rfl⟩ := look_eq_some m a hl
  refine ⟨t, ht, ?_⟩
  rcases resting with ⟨seat, body⟩ | lost | ⟨k, waits⟩
  · have blocked (hk : ∀ seat b, t.control ≠ .run seat b) : m.step a = none := (h a).blocked ht hk
    refine .inl ?_
    cases hk : t.control with
    | run | idle | linger | park | hold => rfl
    | signal seat signals next =>
      have sent := h.signals_nil ho a
      rw [signals_eq ht, hk] at sent
      obtain rfl : signals = [] := sent
      have stuck := blocked (by simp [hk])
      simp [step, ht, hk, stepSignal] at stuck
    | sweep seat next => exact absurd ⟨t, seat, next, ht, hk⟩ h.not_sweeps
    | notify i n after =>
      have stuck := blocked (by simp [hk])
      simp [step, ht, hk] at stuck
    | starting stage e =>
      have stuck := blocked (by simp [hk])
      simp [step, ht, hk] at stuck
    | awaiting aw phase =>
      rw [hk] at body
      cases phase <;> cases body
    | _ =>
      rw [hk] at body
      cases body
  · exact .inr lost
  · exact absurd waits (hs k)

end Still

end Machine

namespace History

variable (h : History (.empty r memory) moves m) (closed : m.registry.shutdown = true) (still : m.Still)
include h closed still

/-- Nobody is at rest in an await. -/
theorem not_waiting (hl : m.look a = some (own, .wait k)) : False := by
  have ho : m.Ordered := h.reachable.ordered
  obtain ⟨g, c, -, rfl, rfl, -⟩ := ho.home_of_hosts hl rfl
  have warned : m.Warned c :=
    (h.swept closed).resolve_left (fun ⟨b, sweeps⟩ => still.not_sweeps sweeps) g c _ _ hl rfl
  rcases warned with flag | ⟨b, sends⟩
  · obtain ⟨t, ht, hg, hs⟩ := look_eq_some m _ hl
    have suspends : t.control.stance.suspends = some k := by
      rw [hs]
      rfl
    obtain ⟨aw, hk, -⟩ := Control.await_of_suspends suspends
    have awaits : m.Awaits c g aw := ⟨t, ht, hg, hk⟩
    rw [awaits.not_interrupted h.reachable still] at flag
    cases flag
  · rw [still.signals_nil ho] at sends
    cases sends

theorem inBody (hl : m.look a = some (own, s)) : m.InBody a :=
  still.inBody h.reachable.ordered hl fun _ e => h.not_waiting closed still (e ▸ hl)

theorem inBody_of_live (hr : r.live = []) (hc : c ∈ m.registry.live) : m.InBody (.context c) := by
  rcases h.reachable.manned hr c hc with there | ⟨b, own, s, hl, hs⟩
  · obtain ⟨⟨own, s⟩, hl⟩ := Option.isSome_iff_exists.mp there
    exact h.inBody closed still hl
  · -- Who starts a context can go on.
    rcases still.resting h.reachable.ordered hl with ⟨seat, rfl⟩ | ⟨seat, i, view, rfl, -⟩ | ⟨k, rfl⟩ <;>
      cases hs

omit closed in
/-- A context that has been entered for a cog is there only if it has claimed a task. -/
theorem gone_of_idle {entry : Context} (hy : m.contexts.get? c = some entry) (hg : entry.cog = some g)
    (idle : ∀ k, (c, k) ∉ claims g moves) : m.look (.context c) = none := by
  by_contra there
  obtain ⟨⟨own, s⟩, hl⟩ := Option.ne_none_iff_exists'.mp there
  obtain ⟨y, hy', rfl⟩ := (h.reachable.housed.thread hl).1.entry
  cases hy.symm.trans hy'
  rw [hg] at hl
  obtain ⟨⟨⟨k, active⟩, seat⟩, -⟩ := still.hosting h.reachable hl
  exact idle k (h.hosting hl seat)

end History

/-! ## Whole runs -/

/-- The books of the cog show the task as one that has not begun. -/
def Machine.Unbegun (m : Machine S A V) (g : CogId) (k : TaskId) : Prop :=
  ∃ x record, m.cogs.get? g = some x ∧ x.scheduler.records.get? k = some record ∧
    record.view.state = .queued ∧ x.scheduler.handles.get? k = some {}

/-- What holds in the run with these moves once shutdown has been called for. The call comes
whenever it does: threads may be anywhere in a submission or in the start of a context. -/
structure Quiescence (earlier : List (Move S A V)) (call : Move S A V) (later : List (Move S A V))
    (m : Machine S A V) : Prop where
  closed : m.registry.shutdown = true
  /-- No task is claimed any more: a context between tasks leaves. -/
  unclaimed (g : CogId) : claims g (call :: later) = []
  leaves {c : ContextId} {g : CogId} {t : Thread S A V} {x : Cog S A V} :
    m.threads.get? (.context c) = some t → t.cog = some g → t.control = .claim →
    m.cogs.get? g = some x → x.lock = none → m.act (.step (.context c)) =
      some (((m.onScheduler g fun _ => (x.scheduler.release c).retire).broadcast g).setControl
        (.context c) .leave)
  /-- Whoever is in the queue then, or comes to it later, stays there, in its place. -/
  queued {between rest : List (Move S A V)} {n : Machine S A V} {g : CogId} {p : List TaskId} :
    later = between ++ rest → History call.after between n → History n rest m → n.Lines g p →
      m.Lines g p ∧ ∀ k ∈ p, m.Unbegun g k
  /-- A submission is refused. It uses up a number. -/
  refused {a : Agent} {t : Thread S A V} {seat : Option Seat} {g : CogId} {name : String}
    {task : Body S A V} {next : Exit RuntimeError TaskId → Body S A V} :
    m.threads.get? a = some t → t.control = .run seat (.submit g name task next) →
    m.act (.step a) =
      some ({ m with nextTask := m.nextTask.next }.setControl a (.run seat (next (.error .shutDown))))
  /-- At rest no task is suspended. -/
  awake {g : CogId} {x : Cog S A V} {k : TaskId} {record : TaskRecord} : m.Still →
    m.cogs.get? g = some x → x.scheduler.records.get? k = some record → record.view.state ≠ .suspended
  /-- At rest a live context is in its body. -/
  bodies {c : ContextId} : m.Still → c ∈ m.registry.live → m.InBody (.context c)
  /-- Once all bodies have returned, nobody is left. -/
  emptied : m.Still → (∀ c ∈ m.registry.live, ¬ m.InBody (.context c)) →
    m.registry.live = [] ∧ ∀ g x, m.cogs.get? g = some x → x.scheduler.active = none
  /-- A context that has been entered for a cog, and has not claimed a task before the call,
  never does. At rest it has gone, and if it has been started it has been retired. -/
  late {g : CogId} {c : ContextId} {entry : Context} : m.contexts.get? c = some entry →
    entry.cog = some g → (∀ k, (c, k) ∉ claims g earlier) →
    (∀ k, (c, k) ∉ claims g (earlier ++ call :: later)) ∧
      (m.Still → m.threads.get? (.context c) = none ∧ c ∉ m.registry.live ∧
        (c ∈ starts g (earlier ++ call :: later) → c ∈ retirements g (earlier ++ call :: later)))

/-- In every run in which only guards of the library are awaited, nothing begins once shutdown has
been called for, and all that is suspended comes to its end. -/
theorem quiescent_after_shutdown (r : Registry) (memory : A) (hr : r.live = [])
    (h : History (.empty r memory) (earlier ++ call :: later) m)
    (stock : ∀ v ∈ earlier ++ call :: later, v.before.Stock) (calls : call.shutsDown = true) :
    Quiescence earlier call later m := by
  have ho : m.Ordered := h.reachable.ordered
  obtain ⟨before, ha, rest⟩ := h.at_move
  have reached : Reachable (.empty r memory) call.after := .act before.reachable ha
  have shut : call.after.registry.shutdown = true := closed_of_call calls ha
  have closed : m.registry.shutdown = true := rest.closed reached shut
  have unclaimed (g : CogId) : claims g (call :: later) = [] := by
    have after : claims g later = [] := rest.claims_closed reached shut
    simpa [claims, Move.claimed?_of_shutsDown calls] using after
  constructor
  case closed => exact closed
  case unclaimed => exact unclaimed
  case leaves => exact fun ht hg hk hx free => leaves_of_closed closed ht hg hk hx free
  case queued =>
    intro between rest n g p _ first last hp
    have lines : m.Lines g p :=
      last.lines (reached.trans first.reachable) (first.closed reached shut) hp
    refine ⟨lines, fun k hk => ?_⟩
    obtain ⟨x, hx, first, -⟩ := lines
    have queued := first.subset hk
    obtain ⟨record, hrec⟩ := Option.isSome_iff_exists.mp ((h.reachable.filed hx).queued k queued)
    have handle := h.handle_of_queued hx queued
    rw [handle?_eq hx] at handle
    exact ⟨x, record, hx, hrec, (h.roll.2 hx).state_of_queued queued hrec, handle⟩
  case refused => exact fun ht hk => refused_of_closed closed ht hk
  case awake =>
    intro g x k record still hx hrec suspended
    obtain ⟨a, s, hl, hs⟩ := (recorded_of_history h stock).suspended hx ⟨record, hrec, suspended⟩
    rcases still.resting ho hl with ⟨seat, rfl⟩ | ⟨seat, i, view, rfl, -⟩ | ⟨j, rfl⟩
    · cases hs
    · cases hs
    · exact h.not_waiting closed still hl
  case bodies => exact fun still hc => h.inBody_of_live closed still hr hc
  case emptied =>
    intro still returned
    have none : m.registry.live = [] :=
      List.eq_nil_iff_forall_not_mem.mpr fun c hc => returned c hc (h.inBody_of_live closed still hr hc)
    refine ⟨none, fun g x hx => ?_⟩
    rw [Option.eq_none_iff_forall_ne_some]
    intro c active
    obtain ⟨s, hl, -⟩ := h.reachable.held hx active
    have live := (h.reachable.housed.thread hl).1.live
    rw [none] at live
    cases live
  case late =>
    intro g c entry hy hg idle
    have never : ∀ k, (c, k) ∉ claims g (earlier ++ call :: later) := by
      intro k claimed
      rw [claims_append, unclaimed, List.append_nil] at claimed
      exact idle k claimed
    refine ⟨never, fun still => ?_⟩
    have gone := h.gone_of_idle still hy hg never
    refine ⟨by simpa [look] using gone, fun live => ?_, fun started => ?_⟩
    · obtain ⟨t, ht, -⟩ := h.inBody_of_live closed still hr live
      simp [look, ht] at gone
    · cases hx : m.cogs.get? g with
      | none => simp [(h.roster.1 hx).1] at started
      | some x =>
        refine (h.roster.2 hx).past.mpr ⟨started, ?_⟩
        rintro ⟨s, hl, -⟩
        cases gone.symm.trans hl

/-- One task is suspended, one runs and one is in the queue. Somebody else has found the registry
open, and is about to enter a context for a task of another cog. -/
def askActions : List (Action Unit Unit Unit) :=
  [.found "first" (), .found "second" (),
    .arrive (.submit ⟨1⟩ "suspended" (.await (.future ⟨1⟩) fun _ => .exit (.ok ())) fun _ =>
      .submit ⟨1⟩ "running" (.block (fun _ => false) (.exit (.ok ()))) fun _ =>
        .submit ⟨1⟩ "queued" (.exit (.ok ())) fun _ => .request .shutdown fun _ => .exit (.ok ())),
    .arrive (.submit ⟨2⟩ "late" (.exit (.ok ())) fun _ => .exit (.ok ()))] ++
    List.replicate 6 (.step (.caller 1)) ++ List.replicate 9 (.step (.context ⟨1⟩)) ++
    List.replicate 6 (.step (.caller 1)) ++ List.replicate 9 (.step (.context ⟨2⟩)) ++
    List.replicate 3 (.step (.caller 1)) ++ List.replicate 3 (.step (.caller 2))

def asked : Machine Unit Unit Unit :=
  askActions.foldl perform (.empty granting ())

def asking : List (Move Unit Unit Unit) :=
  (Machine.empty granting ()).moves askActions

/-- The registry is closed, and the sweep is about to begin. -/
def closing : Machine Unit Unit Unit := asked.perform (.step (.caller 1))

/-- The sweep, the start that is under way, and what the contexts do. -/
def quietActions : List (Action Unit Unit Unit) :=
  List.replicate 9 (.step (.caller 1)) ++ List.replicate 9 (.step (.caller 2)) ++
    List.replicate 9 (.step (.context ⟨1⟩)) ++ List.replicate 9 (.step (.context ⟨3⟩))

def quiet : Machine Unit Unit Unit := quietActions.foldl perform closing

def quietMoves : List (Move Unit Unit Unit) :=
  asking ++ ⟨asked, .step (.caller 1), closing⟩ :: closing.moves quietActions

theorem quiescent_after_shutdown_late :
    (asked.look (.caller 2)).bind (·.2.newcomer?) = some ⟨3⟩ ∧ ⟨3⟩ ∉ asked.registry.live ∧ quiet.Still ∧
    Quiescence asking ⟨asked, .step (.caller 1), closing⟩ (closing.moves quietActions) quiet ∧
    quiet.registry.live = [⟨2⟩] ∧ (quiet.cogs.get? ⟨1⟩).map (·.scheduler.queued) = some [⟨3⟩] ∧
    starts ⟨2⟩ quietMoves = [⟨3⟩] ∧ retirements ⟨2⟩ quietMoves = [⟨3⟩] ∧ claims ⟨2⟩ quietMoves = [] := by
  have there : (asked.act (.step (.caller 1))).isSome := by decide +kernel
  have happens : asked.act (.step (.caller 1)) = some closing := act_perform there
  have first : History (.empty granting ()) asking asked :=
    history_moves _ askActions
  have run : History (.empty granting ())
      (asking ++ ⟨asked, .step (.caller 1), closing⟩ :: closing.moves quietActions) quiet :=
    first.join happens (history_moves closing quietActions)
  have stock : ∀ v ∈ asking ++ ⟨asked, .step (.caller 1), closing⟩ :: closing.moves quietActions,
      v.before.Stock := by decide +kernel
  have calls : (⟨asked, .step (.caller 1), closing⟩ : Move Unit Unit Unit).shutsDown = true := by decide +kernel
  have quiescence : Quiescence asking ⟨asked, .step (.caller 1), closing⟩ (closing.moves quietActions) quiet :=
    quiescent_after_shutdown granting () rfl run stock calls
  exact ⟨by decide +kernel, by decide +kernel, by decide +kernel, quiescence, by decide +kernel,
    by decide +kernel, by decide +kernel, by decide +kernel, by decide +kernel⟩

end ObjectGroups
