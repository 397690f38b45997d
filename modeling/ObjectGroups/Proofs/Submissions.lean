/-
Submissions to a runtime whose configuration has been found valid.

A submission takes a few steps of its caller, and waits for nobody but a thread
that has the lock of the scheduler and can go on. It is answered with the task,
or with an error that has come to nothing, or it unwinds: the system panics over
a thread name that holds the character zero. The name of a context is made of
the prefix in the configuration and the name of the cog, and neither is looked
at for this character before. So a submission that needs a context unwinds just
if one of the two holds it. The panic comes from under the lock of the scheduler
and undoes nothing but the lock and the entry of the context; the task stays in
the queue, and nobody is told of it.
-/
import ObjectGroups.Machine.Create
import ObjectGroups.Proofs.Refusals
import ObjectGroups.Proofs.Rest

namespace ObjectGroups

variable {S A V : Type} {m m' m₀ : Machine S A V} {a : Agent} {g : CogId} {c : ContextId}
  {x : Cog S A V} {t : Thread S A V} {seat : Option Seat} {view : TaskView}
  {next : Exit RuntimeError TaskId → Body S A V} {move : Action S A V} {moves : List (Move S A V)}
  {config : RuntimeConfig} {r : Registry} {memory : A}

open Machine

/-! ## Names of threads -/

/-- A context of a cog with this name cannot have a thread, since its own holds the character zero. -/
def RuntimeConfig.Unnameable (config : RuntimeConfig) (label : String) : Prop :=
  '\x00' ∈ config.threads.namePrefix.toList ∨ '\x00' ∈ label.toList

namespace Machine

theorem Reachable.namePrefix (h : Reachable (.empty r memory) m) :
    m.registry.namePrefix = r.namePrefix := by
  induction h with
  | refl => rfl
  | act h ha ih => exact (aside_act h.ordered ha).namePrefix.trans ih

/-- A runtime begins with an empty registry that has the prefix of its configuration. -/
theorem create_eq (created : create config memory = .ok m₀) : ∃ r : Registry,
    r.live = [] ∧ r.namePrefix = config.threads.namePrefix ∧ m₀ = .empty r memory := by
  unfold create at created
  split at created
  · exact ⟨_, rfl, rfl, (Except.ok.inj created).symm⟩
  · cases created

theorem grant_panic {p : Payload} (h : m.grant c = .panic p) : p = Registry.namePanic := by
  unfold grant at h
  split at h
  · exact (Exit.panic.inj h).symm
  · split at h <;> cases h

/-- The system panics over the name of a context just if the prefix or the name of its cog holds zero. -/
theorem Reachable.grant_panics (h : Reachable (.empty r memory) m)
    (same : r.namePrefix = config.threads.namePrefix) (ht : m.threads.get? a = some t)
    (hk : t.control = .starting (.launch c) (.submission seat g view next)) (hx : m.cogs.get? g = some x) :
    (∃ p, m.grant c = .panic p) ↔ config.Unnameable x.name := by
  have hl : m.look a = some (t.cog, .submit (.launch c) seat g view) := look_starting m a ht hk
  have name := (h.housed.launch hl (c := c) rfl).name g x rfl hx
  have nameable := Registry.nameable_iff m.registry x.name c
  rw [h.namePrefix, same] at nameable
  unfold RuntimeConfig.Unnameable grant
  rw [name]
  by_cases named : Registry.nameable (m.registry.contextName x.name c) = true
  · have clean := nameable.mp named
    by_cases admitted : m.registry.admits c = true <;> simp [named, admitted, clean]
  · simp only [named, Bool.not_false, if_true, Exit.panic.injEq, exists_eq', true_iff]
    exact not_and_or.mp (fun clean => named (nameable.mpr clean)) |>.imp not_not.mp not_not.mp

end Machine

/-! ## The way of a submission -/

/-- A notification is nothing to a thread that submits a task. -/
theorem Control.rouse_submits {k : Control S A V} (h : k.submits? = some (g, view, next)) : k.rouse = k := by
  cases k with
  | awaiting | idle | linger | park | hold => cases h
  | _ => rfl

theorem Control.toGo_pos {k : Control S A V} (h : k.submits? = some (g, view, next)) : 0 < k.toGo := by
  cases k with
  | notify => exact Nat.succ_pos _
  | enrol => exact Nat.succ_pos _
  | starting stage e => cases stage <;> exact Nat.succ_pos _
  | _ => cases h

/-- A call that has unwound. The task is left in the queue, with its record and its count, and nobody has
the slot. -/
structure Forsaken (a : Agent) (g : CogId) (view : TaskView) (task : Body S A V) (first : Move S A V)
    (later : List (Move S A V)) (last : Move S A V) : Prop
    extends Fruitless a g view task first later last where
  books : last.after.books g = (first.before.books g).enqueue view task
  idle : (last.after.books g).active = none

/-- A call over the name of whose context the system panics goes on with the panic at once. -/
theorem Machine.Ordered.told_panic (ho : m.Ordered) (ha : m.act (.step a) = some m')
    (ht : m.threads.get? a = some t) (hk : t.control = .starting (.launch c) (.submission seat g view next))
    {p : Payload} (panics : m.grant c = .panic p) :
    m'.threads.get? a = some { t with control := .run seat (next (.panic p)) } ∧
      m' = (m.strike c).startUnwound a t.cog p (.submission seat g view next) := by
  obtain ⟨k, ht', tries⟩ := ho.tries ht hk ha
  cases tries with
  | granted _ granted => cases granted.symm.trans panics
  | denied e denied => simp [denial?, panics] at denied
  | unwound _ q panics' unwound =>
    cases panics'.symm.trans panics
    exact ⟨ht', unwound⟩

/-- A call over the name of whose context the system panics is forsaken. -/
theorem History.forsaken (h : History (.empty r memory) moves m) (hr : r.live = [])
    (ha : m.act (.step a) = some m') (ht : m.threads.get? a = some t)
    (hk : t.control = .starting (.launch c) (.submission seat g view next)) {p : Payload}
    (panics : m.grant c = .panic p) : ∃ earlier first later task, moves = earlier ++ first :: later ∧
      Forsaken a g view task first later ⟨m, .step a, m'⟩ := by
  obtain ⟨earlier, first, later, task, rfl, before, -, attempt⟩ := h.attempted ht hk
  refine ⟨earlier, first, later, task, rfl, ?_⟩
  have ho : m.Ordered := h.reachable.ordered
  obtain ⟨-, unwound⟩ := ho.told_panic ha ht hk panics
  have locks : m.look a = some (t.cog, .submit (.launch c) seat g view) := look_starting m a ht hk
  obtain ⟨x, hx, -, idle⟩ := ho.locks locks rfl
  have hx' : m'.cogs.get? g = some { x with lock := none } := by
    rw [unwound]
    simp [startUnwound, setLock, cog_onCog, hx]
  have books : m'.books g = m.books g := by rw [books_eq hx', books_eq hx]
  constructor
  case toFruitless =>
    refine attempt.fruitless before h.reachable hr ha (step_start ha ht hk) ?_ ?_ ?_
    · rintro d ⟨⟩ d' granted
      cases granted.symm.trans panics
    · rintro d ⟨⟩
      rw [unwound]
      simp [startUnwound, setLock, onCog, Registry.strike]
    · simp [unlocked, hx']
  case books => exact books.trans attempt.books
  case idle =>
    rw [books_eq hx']
    exact idle rfl

namespace Machine

/-- What comes of a step of the thread `a` that submits a task. It is about to do `k`, and then `k'`;
`moves` is what has happened before. -/
inductive Replies (config : RuntimeConfig) (moves : List (Move S A V)) (m m' : Machine S A V) (a : Agent)
    (g : CogId) (view : TaskView) (next : Exit RuntimeError TaskId → Body S A V) (k k' : Control S A V) :
    Prop where
  | pending : k'.submits? = some (g, view, next) → k'.toGo < k.toGo →
      Replies config moves m m' a g view next k k'
  | accepted (seat : Option Seat) : k'.behind = .run seat (next (.ok view.id)) →
      (⟨m, .step a, m'⟩ : Move S A V).accepted? g = some view.id →
      Replies config moves m m' a g view next k k'
  | refused (seat : Option Seat) (e : RuntimeError) : k' = .run seat (next (.error e)) →
      (∃ earlier first later task, moves = earlier ++ first :: later ∧
        Undone a g view task first later ⟨m, .step a, m'⟩) →
      Replies config moves m m' a g view next k k'
  | unwound (seat : Option Seat) (x : Cog S A V) : k' = .run seat (next (.panic Registry.namePanic)) →
      m.cogs.get? g = some x → config.Unnameable x.name →
      (∃ earlier first later task, moves = earlier ++ first :: later ∧
        Forsaken a g view task first later ⟨m, .step a, m'⟩) →
      Replies config moves m m' a g view next k k'

/-- How submissions fare. `moves` is what has happened so far. -/
structure Serves (config : RuntimeConfig) (moves : List (Move S A V)) (m : Machine S A V) : Prop where
  /-- A call is refused at once, or is about to put its task into the queue. -/
  enters {a : Agent} {t : Thread S A V} {seat : Option Seat} {g : CogId} {name : String} {task : Body S A V}
    {next : Exit RuntimeError TaskId → Body S A V} : m.threads.get? a = some t →
      t.control = .run seat (.submit g name task next) → ∃ m' k, m.act (.step a) = some m' ∧
        m'.threads.get? a = some { t with control := k } ∧
          (k = .run seat (next (.error .shutDown)) ∨ ∃ view, k = .enrol seat g view task next)
  /-- It is blocked only while somebody has the lock who can go on. -/
  waits {a : Agent} {t : Thread S A V} {g : CogId} {view : TaskView}
    {next : Exit RuntimeError TaskId → Body S A V} {x : Cog S A V} : m.threads.get? a = some t →
      t.control.submits? = some (g, view, next) → m.cogs.get? g = some x → m.step a = none →
        ∃ b, x.lock = some b ∧ m.step b ≠ none
  /-- Others leave it where it is. -/
  stays {a : Agent} {t : Thread S A V} {g : CogId} {view : TaskView}
    {next : Exit RuntimeError TaskId → Body S A V} {move : Action S A V} {m' : Machine S A V} :
      m.threads.get? a = some t → t.control.submits? = some (g, view, next) → m.act move = some m' →
        move.actor? ≠ some a → m'.threads.get? a = some t
  /-- Its own steps bring it nearer to its answer, and in the end to one. -/
  replies {a : Agent} {t : Thread S A V} {g : CogId} {view : TaskView}
    {next : Exit RuntimeError TaskId → Body S A V} {m' : Machine S A V} : m.threads.get? a = some t →
      t.control.submits? = some (g, view, next) → m.act (.step a) = some m' →
        ∃ k, m'.threads.get? a = some { t with control := k } ∧
          m.Replies config moves m' a g view next t.control k
  /-- Before it is answered it takes less than this many steps. -/
  ends {a : Agent} {t : Thread S A V} {g : CogId} {view : TaskView}
    {next : Exit RuntimeError TaskId → Body S A V} {later : List (Move S A V)} {n : Machine S A V} :
      m.threads.get? a = some t → t.control.submits? = some (g, view, next) → History m later n →
        (∀ v ∈ later, ∃ t', v.after.threads.get? a = some t' ∧ t'.control.submits? = some (g, view, next)) →
          later.countP (·.act.actor? = some a) < t.control.toGo
  /-- It unwinds whenever it asks for the thread of a context that cannot have the name. -/
  unwinds {a : Agent} {t : Thread S A V} {c : ContextId} {seat : Option Seat} {g : CogId} {view : TaskView}
    {next : Exit RuntimeError TaskId → Body S A V} {x : Cog S A V} {m' : Machine S A V} :
      m.threads.get? a = some t → t.control = .starting (.launch c) (.submission seat g view next) →
        m.cogs.get? g = some x → config.Unnameable x.name → m.act (.step a) = some m' →
          m'.threads.get? a = some { t with control := .run seat (next (.panic Registry.namePanic)) } ∧
            ∃ earlier first later task, moves = earlier ++ first :: later ∧
              Forsaken a g view task first later ⟨m, .step a, m'⟩

/-- Whoever keeps a submission waiting has the lock, and can go on. -/
theorem Ordered.submission_waits (ho : m.Ordered) (ht : m.threads.get? a = some t)
    (hk : t.control.submits? = some (g, view, next)) (hx : m.cogs.get? g = some x)
    (blocked : m.step a = none) : ∃ b, x.lock = some b ∧ m.step b ≠ none := by
  cases hc : t.control with
  | notify i n after => simp [step, ht, hc] at blocked
  | starting stage e => simp [step, ht, hc] at blocked
  | enrol seat i view' task next' =>
    rw [hc] at hk
    cases hk
    obtain ⟨b, hb⟩ : ∃ b, x.lock = some b := by
      cases free : x.lock with
      | none =>
        by_cases idle : x.scheduler.active.isNone = true <;>
          simp [step, ht, hc, stepEnrol, hx, free, idle] at blocked
      | some b => exact ⟨b, rfl⟩
    obtain ⟨own, s, hl, hs⟩ := ho.locker hx hb
    exact ⟨b, hb, ho.step_of_locks hl hs⟩
  | _ =>
    rw [hc] at hk
    cases hk

/-- Others leave a submission where it is. -/
theorem Ordered.submission_stays (ho : m.Ordered) (ha : m.act move = some m') (ht : m.threads.get? a = some t)
    (hk : t.control.submits? = some (g, view, next)) (other : move.actor? ≠ some a) :
    m'.threads.get? a = some t := by
  rcases ho.stays ha ht other with stays | roused
  · exact stays
  · exact roused.trans (congrArg (fun k => some { t with control := k }) (Control.rouse_submits hk))

/-- A submission is denied its context, or goes on or is answered otherwise. -/
theorem Ordered.denied_or_heard (ho : m.Ordered) (ha : m.act (.step a) = some m') (ht : m.threads.get? a = some t)
    (hk : t.control.submits? = some (g, view, next)) :
    (∃ stage seat e, t.control = .starting stage (.submission seat g view next) ∧ m.denial? stage = some e ∧
      m'.threads.get? a = some { t with control := .run seat (next (.error e)) }) ∨
    ∃ k, m'.threads.get? a = some { t with control := k } ∧ Heard m m' a g view next t.control k := by
  by_cases denied : ∃ stage errand e, t.control = .starting stage errand ∧ m.denial? stage = some e
  · obtain ⟨stage, errand, e, hc, denied⟩ := denied
    rw [hc] at hk
    cases errand with
    | submission seat =>
      cases hk
      exact .inl ⟨stage, seat, e, hc, denied, ho.told_denied ha ht hc denied⟩
    | _ => cases hk
  · exact .inr (ho.heard ha ht hk fun stage errand hc =>
      Option.eq_none_iff_forall_ne_some.mpr fun e he => denied ⟨stage, errand, e, hc, he⟩)

/-- A step of a submission that does not answer it brings it nearer to its answer. -/
theorem Ordered.submission_nears (ho : m.Ordered) (ha : m.act (.step a) = some m')
    (ht : m.threads.get? a = some t) (hk : t.control.submits? = some (g, view, next)) {t' : Thread S A V}
    (ht' : m'.threads.get? a = some t') (hk' : t'.control.submits? = some (g, view, next)) :
    t'.control.toGo < t.control.toGo := by
  have answered {k : Control S A V} {seat : Option Seat} {b : Body S A V} (told : k.behind = .run seat b) :
      k.submits? ≠ some (g, view, next) := by
    rw [Control.submits?_body (by rw [← Control.stance_behind, told]; rfl)]
    simp
  rcases ho.denied_or_heard ha ht hk with ⟨stage, seat, e, -, -, told⟩ | ⟨k, told, heard⟩
  · cases told.symm.trans ht'
    exact absurd hk' (answered rfl)
  · cases told.symm.trans ht'
    cases heard with
    | pending _ less => exact less
    | accepted seat told => exact absurd hk' (answered told)
    | unwound seat c p _ _ told =>
      cases told
      exact absurd hk' (answered rfl)

end Machine

/-- Before a submission is answered it takes no more steps than it has to go. -/
theorem History.submission_ends {n : Machine S A V} {later : List (Move S A V)} (h : History m later n)
    (start : Reachable (.empty r memory) m) (ht : m.threads.get? a = some t)
    (hk : t.control.submits? = some (g, view, next))
    (goesOn : ∀ v ∈ later, ∃ t', v.after.threads.get? a = some t' ∧
      t'.control.submits? = some (g, view, next)) :
    ∃ t', n.threads.get? a = some t' ∧ t'.control.submits? = some (g, view, next) ∧
      later.countP (·.act.actor? = some a) + t'.control.toGo ≤ t.control.toGo := by
  induction h with
  | refl => exact ⟨t, ht, hk, by simp⟩
  | @act later n n' move h ha ih =>
    obtain ⟨t₁, ht₁, hk₁, count⟩ := ih fun v hv => goesOn v (List.mem_append_left _ hv)
    obtain ⟨t₂, ht₂, hk₂⟩ := goesOn ⟨n, move, n'⟩ (List.mem_append_right _ List.mem_cons_self)
    refine ⟨t₂, ht₂, hk₂, ?_⟩
    have ho : n.Ordered := (start.trans h.reachable).ordered
    rw [List.countP_append, List.countP_singleton]
    by_cases acts : move.actor? = some a
    · obtain rfl := Action.step_of_actor acts
      have nearer := ho.submission_nears ha ht₁ hk₁ ht₂ hk₂
      simp only [acts, decide_true, if_true]
      omega
    · cases (ho.submission_stays ha ht₁ hk₁ acts).symm.trans ht₂
      simp only [acts, decide_false, Bool.false_eq_true, if_false]
      omega

/-- In every run with a valid configuration, submissions are answered, or unwind over a name that no thread
can have. -/
theorem submissions_answered (config : RuntimeConfig) (memory : A) (created : create config memory = .ok m₀)
    (h : History m₀ moves m) : Serves config moves m := by
  obtain ⟨r, hr, same, rfl⟩ := create_eq created
  have ho : m.Ordered := h.reachable.ordered
  constructor
  case enters =>
    intro a t seat g name task next ht hk
    cases shut : m.registry.shutdown with
    | true => exact ⟨_, _, refused_of_closed shut ht hk, thread_set _ ht (.same rfl), .inl rfl⟩
    | false => exact ⟨_, _, enrols_of_open shut ht hk, thread_set _ ht (.same rfl), .inr ⟨_, rfl⟩⟩
  case waits => exact ho.submission_waits
  case stays =>
    intro a t g view next move m' ht hk ha other
    exact ho.submission_stays ha ht hk other
  case replies =>
    intro a t g view next m' ht hk ha
    rcases ho.denied_or_heard ha ht hk with ⟨stage, seat, e, hc, denied, told⟩ | ⟨k, told, heard⟩
    · exact ⟨_, told, .refused seat e rfl (h.undone hr ha ht hc denied)⟩
    · refine ⟨k, told, ?_⟩
      cases heard with
      | pending going less => exact .pending going less
      | accepted seat told accepted => exact .accepted seat told accepted
      | unwound seat c p hc panics told =>
        have hl : m.look a = some (t.cog, .submit (.launch c) seat g view) := look_starting m a ht hc
        obtain ⟨x, hx, -⟩ := ho.locks hl rfl
        have unnameable := (h.reachable.grant_panics same ht hc hx).mp ⟨p, panics⟩
        obtain rfl := grant_panic panics
        exact .unwound seat x told hx unnameable (h.forsaken hr ha ht hc panics)
  case ends =>
    intro a t g view next later n ht hk h' goesOn
    obtain ⟨t', -, hk', count⟩ := h'.submission_ends h.reachable ht hk goesOn
    exact Nat.lt_of_lt_of_le (Nat.lt_add_of_pos_right (Control.toGo_pos hk')) count
  case unwinds =>
    intro a t c seat g view next x m' ht hk hx unnameable ha
    obtain ⟨p, panics⟩ := (h.reachable.grant_panics same ht hk hx).mpr unnameable
    obtain rfl := grant_panic panics
    exact ⟨(ho.told_panic ha ht hk panics).1, h.forsaken hr ha ht hk panics⟩

/-- The registry of a runtime with the default configuration. -/
def plain : Registry := .create "cog" none

/-- The caller ends with the panic that its call unwinds with. -/
def unwinding : Exit RuntimeError TaskId → Body Nat Unit Unit
  | .panic p => .exit (.panic p)
  | _ => .exit (.ok ())

/-- The name of the cog ends in zero, and its caller is about to ask for the thread of a context. -/
def zeroActions : List (Action Nat Unit Unit) :=
  [.found "a\x00" 0, .arrive (.submit ⟨1⟩ "first" (.exit (.ok ())) unwinding)] ++
    List.replicate 4 (.step (.caller 1))

def calling : Machine Nat Unit Unit := zeroActions.foldl perform (.empty plain ())

def lost : TaskView := { id := ⟨1⟩, name := "first", cog := ⟨1⟩, submittedAt := 0 }

theorem calling_starts : (calling.threads.get? (.caller 1)).map (·.control) =
    some (.starting (.launch ⟨1⟩) (.submission none ⟨1⟩ lost unwinding)) := rfl

theorem submissions_answered_zero : create {} () = .ok (.empty plain () : Machine Nat Unit Unit) ∧
    Serves {} ((Machine.empty plain ()).moves zeroActions) calling ∧
    ∃ m' k, calling.act (.step (.caller 1)) = some m' ∧
      calling.Replies {} ((Machine.empty plain ()).moves zeroActions) m' (.caller 1) ⟨1⟩ lost unwinding
        (.starting (.launch ⟨1⟩) (.submission none ⟨1⟩ lost unwinding)) k ∧
      (m'.books ⟨1⟩).queued = [⟨1⟩] ∧ (m'.books ⟨1⟩).active = none := by
  have history := history_moves (.empty plain ()) zeroActions
  have serves : Serves {} ((Machine.empty plain ()).moves zeroActions) calling :=
    submissions_answered {} () rfl history
  have acts : (calling.act (.step (.caller 1))).map (fun m' =>
      ((m'.books ⟨1⟩).queued, (m'.books ⟨1⟩).active)) = some ([⟨1⟩], none) := by decide +kernel
  obtain ⟨m', ha, after⟩ := Option.map_eq_some_iff.mp acts
  obtain ⟨t, ht, hk⟩ := Option.map_eq_some_iff.mp calling_starts
  obtain ⟨k, -, replies⟩ := serves.replies ht (by rw [hk]; rfl) ha
  rw [hk] at replies
  simp only [Prod.mk.injEq] at after
  exact ⟨rfl, serves, m', k, ha, replies, after.1, after.2⟩

/-- The default configuration is valid, but over the name of this cog the call unwinds. Its task is left in
the queue, and nobody is told of it. -/
theorem task_forsaken : create {} () = .ok (.empty plain () : Machine Nat Unit Unit) ∧
    ∃ m' earlier first later task, calling.act (.step (.caller 1)) = some m' ∧
      (Machine.empty plain ()).moves zeroActions = earlier ++ first :: later ∧
      Forsaken (.caller 1) ⟨1⟩ lost task first later ⟨calling, .step (.caller 1), m'⟩ ∧
      (m'.threads.get? (.caller 1)).map (·.control) =
        some (.run none (.exit (.panic (.text "thread name")))) ∧
      (m'.books ⟨1⟩).queued = [⟨1⟩] ∧ (m'.books ⟨1⟩).metrics.submitted = 1 := by
  have acts : (calling.act (.step (.caller 1))).map (fun m' =>
      ((m'.books ⟨1⟩).queued, (m'.books ⟨1⟩).metrics.submitted)) = some ([⟨1⟩], 1) := by decide +kernel
  have told : (calling.act (.step (.caller 1))).map (fun m' =>
      (m'.threads.get? (.caller 1)).map (·.control)) =
        some (some (.run none (.exit (.panic (.text "thread name"))))) := rfl
  obtain ⟨m', ha, after⟩ := Option.map_eq_some_iff.mp acts
  rw [ha] at told
  obtain ⟨t, ht, hk⟩ := Option.map_eq_some_iff.mp calling_starts
  obtain ⟨earlier, first, later, task, whole, forsaken⟩ :=
    (history_moves (.empty plain ()) zeroActions).forsaken rfl ha ht hk (p := Registry.namePanic) rfl
  simp only [Prod.mk.injEq] at after
  exact ⟨rfl, m', earlier, first, later, task, ha, whole, forsaken, Option.some.inj told, after.1, after.2⟩

end ObjectGroups
