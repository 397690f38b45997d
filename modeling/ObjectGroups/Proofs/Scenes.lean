/-
The play goes on.

Each step of a context or of the caller is one that the program of a task, or
of the caller, has in store: the cast stays together (`Cast.Continues`), and
what becomes of the jobs and of the buffer is one of four things (`Scene`).
-/
import ObjectGroups.Proofs.Cast

namespace ObjectGroups.Demo

open Machine

variable {g : CogId} {m m' : Theatre} {act : Action Holding Verdict Nat} {tasks : List (String × Part)}
  {jobs : List Job} {x x' : Cog Holding Verdict Nat} {b b' : Buffer} {J J' : TaskId → Job}

/-- What becomes of the jobs and the buffer while `x` becomes `x'`. -/
inductive Scene (g : CogId) (jobs : List Job) (m : Theatre) (x x' : Cog Holding Verdict Nat)
    (J J' : TaskId → Job) (b b' : Buffer) : Prop where
  | rests : J' = J → b' = b → Table.keys x'.scheduler.handles = Table.keys x.scheduler.handles →
      Scene g jobs m x x' J J' b b'
  | awaits {t : TaskId} {q : Guard Holding} {j' : Job} : (∃ c s active,
      m.look (.context c) = some (some g, s) ∧ s.seat? = some ⟨t, active⟩) → (J t).Awaits q j' →
      J' = Function.update J t j' → b' = b →
      Table.keys x'.scheduler.handles = Table.keys x.scheduler.handles → Scene g jobs m x x' J J' b b'
  | works {t : TaskId} {f : Buffer → Buffer} {j' : Job} : (∃ c s active,
      m.look (.context c) = some (some g, s) ∧ s.seat? = some ⟨t, active⟩) → (J t).Works f j' →
      (J t).Fits b → J' = Function.update J t j' → b' = f b →
      Table.keys x'.scheduler.handles = Table.keys x.scheduler.handles → Scene g jobs m x x' J J' b b'
  | enlists {t : TaskId} {j : Job} : t ∉ Table.keys x.scheduler.handles →
      jobs[(Table.keys x.scheduler.handles).length]? = some j → J' = Function.update J t j →
      b' = b → Table.keys x'.scheduler.handles = Table.keys x.scheduler.handles ++ [t] →
      Scene g jobs m x x' J J' b b'

namespace Cast

/-- The play goes on after a step. -/
def Continues (g : CogId) (tasks : List (String × Part)) (jobs : List Job) (m : Theatre)
    (x : Cog Holding Verdict Nat) (b : Buffer) (J : TaskId → Job) (m' : Theatre) : Prop :=
  ∃ x' b' J', Cast g tasks m' x' b' J' ∧ Scene g jobs m x x' J J' b b'

section
variable (h : Cast g tasks m x b J) (ho : m.Ordered) {c : ContextId} {t : Thread Holding Verdict Nat}
  (ha : m.act (.step (.context c)) = some m') (ht : m.threads.get? (.context c) = some t)
include h ho ha ht

omit ht in
/-- A step that leaves state, tasks and jobs alone. -/
theorem rests (hx' : m'.cogs.get? g = some x') (keeps : x.Keeps x')
    (own : ∀ t', m'.threads.get? (.context c) = some t' → t'.cog = some g ∧ Plays J b t'.control) :
    Continues g tasks jobs m x b J m' := by
  refine ⟨x', b, J, ?_, .rests rfl rfl keeps.tasks.known⟩
  refine h.next ho ha rfl hx' (keeps.state.trans h.state) keeps.tasks.known keeps.tasks.queue
    (fun t ht => .inl (keeps.tasks.ended t ht)) (fun _ => .inl rfl) (.inl rfl) own

/-- A step that leaves state, tasks and jobs alone, after which the context has a part to play. -/
theorem plays (hx' : m'.cogs.get? g = some x') (keeps : x.Keeps x') {k : Control Holding Verdict Nat}
    (ht' : m'.threads.get? (.context c) = some { t with control := k }) (hk : Plays J b k) :
    Continues g tasks jobs m x b J m' := by
  obtain ⟨home, -⟩ := h.context ht
  refine h.rests ho ha hx' keeps fun t' ht₁ => ?_
  cases ht'.symm.trans ht₁
  exact ⟨home, hk⟩

/-- A step after which the task of the context stands at another point of its program, and runs on. -/
theorem advances {k : TaskId} {s : Stance} {active : Bool} {j' : Job} {control : Control Holding Verdict Nat}
    (hl : m.look (.context c) = some (some g, s)) (seat : s.seat? = some ⟨k, active⟩) (unspent : ¬ (J k).Spent)
    (hx' : m'.cogs.get? g = some x') (hs' : x'.state = .buffer b') (keeps : x.scheduler.Keeps x'.scheduler)
    (state : b' = b ∨ ∃ t, m.Runs g (.context c) t) (fits : j'.Fits b')
    (ht' : m'.threads.get? (.context c) = some { t with control })
    (hc : control.behind = .run (some ⟨k, true⟩) j'.body) : Cast g tasks m' x' b' (Function.update J k j') := by
  obtain ⟨home, -⟩ := h.context ht
  refine h.next ho ha rfl hx' hs' keeps.known keeps.queue (fun u hu => .inl (keeps.ended u hu)) (fun u => ?_) state
    fun t' ht₁ => ?_
  · by_cases hu : u = k
    · exact .inr ⟨⟨_, s, active, hl, hu ▸ seat⟩, hu ▸ unspent⟩
    · exact .inl (Function.update_of_ne hu ..)
  · cases ht'.symm.trans ht₁
    refine ⟨home, .of_behind ?_⟩
    rw [hc]
    exact .moved J k fits

theorem step_claim (hk : t.control = .claim) : Continues g tasks jobs m x b J m' := by
  obtain ⟨home, -⟩ := h.context ht
  have step : m.stepClaim (.context c) c g x = some m' := by
    simpa [act, Machine.step, ht, hk, home, h.cog] using ha
  unfold stepClaim at step
  split at step
  · cases step
  · obtain ⟨keeps, head⟩ := x.scheduler.keeps_claim c m.registry.shutdown m.now
    generalize x.scheduler.claim c m.registry.shutdown m.now = claimed at step keeps head
    obtain ⟨taken, y⟩ := claimed
    have entered : (m.onScheduler g fun _ => y).cogs.get? g = some { x with scheduler := y } := by
      simp [onScheduler, cog_onCog, h.cog]
    cases taken with
    | none =>
      cases step
      have roused : m.Stirred (m.onScheduler g fun _ => y) (.context c) := .same rfl
      exact h.plays ho ha ht ((congrArg (Table.get? · g) (cogs_broadcast ..)).trans entered) ⟨rfl, keeps⟩
        (thread_set _ ht roused.broadcast) .leave
    | some e =>
      cases step
      obtain ⟨hbody, fits⟩ := h.queue _ (head _ rfl)
      refine h.plays ho ha ht entered ⟨rfl, keeps⟩ (thread_set _ ht (.same rfl)) ?_
      rw [hbody]
      exact .run e.1 (fits b)

/-- A task that runs comes to its end, begins to await, or works on the buffer. -/
theorem step_run {k : TaskId} (fits : (J k).Fits b) (hk : t.control = .run (some ⟨k, true⟩) (J k).body) :
    Continues g tasks jobs m x b J m' := by
  obtain ⟨home, -⟩ := h.context ht
  have hl : m.look (.context c) = some (some g, .body (some ⟨k, true⟩)) := by
    rw [look_eq m _ ht, hk, home]
    rfl
  have step : m.stepBody (.context c) t (some ⟨k, true⟩) (J k).body = some m' := by
    simpa [act, Machine.step, ht, hk] using ha
  have runs := (J k).runs
  generalize (J k).body = body at step runs
  cases runs with
  | ends spent =>
    simp only [Part.done, stepBody, stepExit, home, if_true] at step
    cases step
    have counted := cog_onCog_self m g (fun y => { y with ended := y.ended + 1 }) h.cog
    exact h.plays ho ha ht counted ⟨rfl, .refl _⟩ (thread_set _ ht (.same rfl)) (.complete k _ spent)
  | awaits hj hn =>
    simp only [stepBody] at step
    cases step
    exact h.plays ho ha ht h.cog (.refl x) (thread_set _ ht (.same rfl)) (.awaits rfl hj hn)
  | @works f j' next refused hj hn =>
    simp only [stepBody, home, h.cog, if_true] at step
    cases step
    have worked := cog_onCog_self m g (fun y => { y with state := .onBuffer f y.state }) h.cog
    have state : Holding.onBuffer f x.state = .buffer (f b) := by rw [h.state]; rfl
    refine ⟨{ x with state := .onBuffer f x.state }, f b, Function.update J k j', ?_,
      .works ⟨c, _, true, hl, rfl⟩ hj fits rfl rfl rfl⟩
    exact h.advances ho ha ht hl rfl hj.unspent worked state (.refl _) (.inr ⟨k, _, hl, rfl⟩) (hj.calm (f b))
      (thread_set _ ht (.same rfl)) (congrArg _ (hn _))

/-- A step of an await leaves state and tasks alone, and ends it only as it should. -/
theorem step_await {aw : Awaiting Holding Verdict Nat} {j' : Job} (follows : m.Follows m.Bides) (hh : m.Housed)
    (calm : m.interrupted c = false) (hk : t.control.await? = some aw) (hj : (J aw.task).Awaits aw.guard j')
    (hn : aw.next (.ok ()) = j'.body) : Continues g tasks jobs m x b J m' := by
  obtain ⟨home, -⟩ := h.context ht
  have hl := look_eq m _ ht
  rw [home] at hl
  have awaits := Control.awaits_of_await hk
  obtain ⟨k, ht', treads⟩ := Bides.treads follows ho hh hj.sure calm ht home h.cog hk ha
  obtain ⟨x', hx', worked⟩ := (shift_act ho ha).cog h.cog (ho.newCog (by simp [h.cog]))
  have keeps : x.Keeps x' := by
    cases worked with
    | idle e =>
      rw [e]
      exact ⟨rfl, .of_eq rfl rfl⟩
    | deed turns deed =>
      cases turns.before.symm.trans hl
      refine deed.keeps_await awaits ?_
      rintro rfl
      have after := turns.after
      rw [look_eq m' _ ht', Option.some.injEq, Prod.mk.injEq] at after
      rcases treads with hk' | ⟨-, -, hk'⟩
      · have awaits' := Control.awaits_of_await hk'
        rw [after.2] at awaits'
        cases awaits'
      · have active := k.stance_behind
        rw [hk', after.2] at active
        cases active
    | grant _ grant => exact grant.keeps
  rcases treads with hk' | ⟨-, holds, hk'⟩
  · exact h.plays ho ha ht hx' keeps ht' (.awaits hk' hj hn)
  · obtain ⟨active, seat⟩ := Stance.seat_of_awaits awaits
    rw [h.state] at holds
    refine ⟨x', b, Function.update J aw.task j', ?_,
      .awaits ⟨c, _, active, hl, seat⟩ hj rfl rfl keeps.tasks.known⟩
    exact h.advances ho ha ht hl seat hj.unspent hx' (keeps.state.trans h.state) keeps.tasks (.inl rfl)
      (hj.fits holds) ht' (hn ▸ hk')

theorem step_complete {k : TaskId} {outcome : TaskOutcome} (spent : (J k).Spent)
    (hk : t.control = .complete k outcome) : Continues g tasks jobs m x b J m' := by
  obtain ⟨home, -⟩ := h.context ht
  have step : m.stepComplete (.context c) g x k outcome = some m' := by
    simpa [act, Machine.step, ht, hk, home, h.cog] using ha
  unfold stepComplete at step
  split at step
  · cases step
  · obtain ⟨known, ended⟩ := x.scheduler.ends_complete_only k outcome m.now
    have queue : (x.scheduler.complete k outcome m.now).2.queue = x.scheduler.queue := Scheduler.queue_complete ..
    generalize x.scheduler.complete k outcome m.now = completed at step known ended queue
    obtain ⟨view, y⟩ := completed
    cases step
    have entered : (((m.onScheduler g fun _ => y).broadcast g).announceEnd (.context c) g outcome view .claim).cogs.get? g =
        some { x with scheduler := y } := by
      simp [onScheduler, cog_onCog, h.cog]
    refine ⟨{ x with scheduler := y }, b, J, ?_, .rests rfl rfl known⟩
    refine h.next ho ha rfl entered h.state known (fun e he => queue ▸ he)
      (fun u hu => (ended u hu).imp_right (by rintro rfl; exact spent)) (fun _ => .inl rfl) (.inl rfl) fun t' ht' => ?_
    have told : m.Stirred ((m.onScheduler g fun _ => y).broadcast g) (.context c) := (Stirred.same rfl).broadcast
    have next : t'.control = announce g (.finished outcome) view .claim ∧ t'.cog = t.cog := by
      cases view with
      | none =>
        cases (thread_set _ ht told).symm.trans ht'
        exact ⟨rfl, rfl⟩
      | some v =>
        cases (thread_set _ ht told.notifyAll).symm.trans ht'
        exact ⟨rfl, rfl⟩
    refine ⟨next.2.trans home, .of_behind ?_⟩
    rw [next.1, behind_announce]
    exact .claim

theorem step_leave (hk : t.control = .leave) : Continues g tasks jobs m x b J m' := by
  have step : some ({ m with threads := m.threads.remove (.context c) }.strike c) = some m' := by
    simpa [act, Machine.step, ht, hk] using ha
  cases step
  refine h.rests ho ha ?_ (.refl x) fun t' ht' => ?_
  · rw [cogs_strike]
    exact h.cog
  · rw [thread_strike, Table.get?_remove_self] at ht'
    cases ht'

theorem step_notify {i : CogId} {n : Notice} {k : Control Holding Verdict Nat} (hk : t.control = .notify i n k)
    (plays : Plays J b k) : Continues g tasks jobs m x b J m' := by
  have step : some ((m.deliver i n).setControl (.context c) k) = some m' := by
    simpa [act, Machine.step, ht, hk] using ha
  cases step
  refine h.plays ho ha ht ?_ (.refl x) (thread_set _ ht (.same (threads_deliver ..))) plays
  show (m.deliver i n).cogs.get? g = some x
  rw [cogs_deliver, h.cog]

/-- The play goes on when a context takes a step. -/
theorem step_context (follows : m.Follows m.Bides) (hh : m.Housed) (calm : m.interrupted c = false) :
    Continues g tasks jobs m x b J m' := by
  obtain ⟨-, plays⟩ := h.context ht
  generalize hk : t.control = k at plays
  cases plays with
  | claim => exact h.step_claim ho ha ht hk
  | run k fits => exact h.step_run ho ha ht fits hk
  | awaits haw hj hn => exact h.step_await ho ha ht follows hh calm (hk ▸ haw) hj hn
  | complete k outcome spent => exact h.step_complete ho ha ht spent hk
  | leave => exact h.step_leave ho ha ht hk
  | notify i n plays => exact h.step_notify ho ha ht hk plays

end

/-! ## Steps of the caller -/

section
variable (h : Cast g tasks m x b J) (ho : m.Ordered)
include h ho

/-- What the caller does keeps the cast if at most a new task comes in. -/
theorem next_caller (ha : m.act (.step (.caller 1)) = some m') (hx' : m'.cogs.get? g = some x')
    (state : x'.state = x.state)
    (queue : ∀ e ∈ x'.scheduler.queue, (e ∈ x.scheduler.queue ∧ J' e.1 = J e.1) ∨
      (e.2 = (J' e.1).body ∧ ∀ b, (J' e.1).Fits b))
    (ended : ∀ t, x'.scheduler.ended t = true → x.scheduler.ended t = true ∧ J' t = J t)
    (place : ∀ t a, m.Berthed t (.seat a) → J' t = J t)
    (own : ∀ t', m'.threads.get? (.caller 1) = some t' →
      t'.cog = none ∧ Directs g tasks x'.scheduler.handles.length t'.control)
    (left : m'.threads.get? (.caller 1) = none → tasks.length ≤ x'.scheduler.handles.length) :
    Cast g tasks m' x' b J' := by
  constructor
  case cog => exact hx'
  case state => exact state.trans h.state
  case queue =>
    intro e he
    rcases queue e he with ⟨before, same⟩ | new
    · exact same ▸ h.queue e before
    · exact new
  case ended =>
    intro t ht
    obtain ⟨before, same⟩ := ended t ht
    exact same ▸ h.ended t before
  case context =>
    intro c t' ht'
    exact h.others ho ha (by simp [Action.actor?])
      (fun s t active hl hs => place t (.context c) ⟨_, s, active, hl, hs⟩) (.inl rfl) ht'
  case caller =>
    intro n t' ht'
    by_cases hn : n = 1
    · subst hn
      obtain ⟨alone, directs⟩ := own t' ht'
      exact ⟨rfl, alone, directs⟩
    · obtain ⟨one, -⟩ := h.others_caller ho ha (by simpa [Action.actor?] using Ne.symm hn) (by simp) ht'
      exact absurd one hn
  case left => exact left

end

section
variable (h : Cast g tasks m x b J) (ho : m.Ordered) (ha : m.act (.step (.caller 1)) = some m')
  {t : Thread Holding Verdict Nat} (ht : m.threads.get? (.caller 1) = some t)
include h ho ha ht

/-- A step that leaves state and tasks alone. -/
theorem directs (hx' : m'.cogs.get? g = some x') (keeps : x.Keeps x') {k : Control Holding Verdict Nat}
    (ht' : m'.threads.get? (.caller 1) = some { t with control := k })
    (hk : Directs g tasks x.scheduler.handles.length k) : Continues g tasks jobs m x b J m' := by
  obtain ⟨-, alone, -⟩ := h.caller ht
  have length : x'.scheduler.handles.length = x.scheduler.handles.length := by
    simpa [Table.keys] using congrArg List.length keeps.tasks.known
  refine ⟨x', b, J, ?_, .rests rfl rfl keeps.tasks.known⟩
  refine h.next_caller ho ha hx' keeps.state (fun e he => .inl ⟨keeps.tasks.queue e he, rfl⟩)
    (fun u hu => ⟨keeps.tasks.ended u hu, rfl⟩) (fun _ _ _ => rfl) (fun t' ht₁ => ?_) fun gone => ?_
  · cases ht'.symm.trans ht₁
    exact ⟨alone, length ▸ hk⟩
  · cases ht'.symm.trans gone

/-- The caller submits the next task, or goes on to wait. -/
theorem step_submits {p : Part} (opened : m.registry.shutdown = false) (hk : t.control = .run none p)
    (submits : Submits g (tasks.drop x.scheduler.handles.length) p) : Continues g tasks jobs m x b J m' := by
  obtain ⟨-, alone, -⟩ := h.caller ht
  have step : m.stepBody (.caller 1) t none p = some m' := by
    simpa [act, Machine.step, ht, hk] using ha
  cases hd : tasks.drop x.scheduler.handles.length with
  | cons e rest =>
    rw [hd] at submits
    obtain ⟨next, rfl, onward⟩ := submits.cons
    simp only [stepBody, opened, Bool.false_eq_true, if_false] at step
    cases step
    have head : tasks[x.scheduler.handles.length]? = some e := by
      rw [← List.head?_drop, hd]
      rfl
    have tail : tasks.drop (x.scheduler.handles.length + 1) = rest := by
      rw [← List.tail_drop, hd]
      rfl
    exact h.directs ho ha ht h.cog (.refl x) (thread_set _ ht (.same rfl)) (.enrol head (tail ▸ onward))
  | nil =>
    rw [hd] at submits
    have meek := submits_nil.mp submits
    cases meek with
    | exit r =>
      simp only [stepBody, stepExit] at step
      cases step
      refine ⟨x, b, J, ?_, .rests rfl rfl rfl⟩
      refine h.next_caller ho ha h.cog rfl (fun e he => .inl ⟨he, rfl⟩) (fun u hu => ⟨hu, rfl⟩)
        (fun _ _ _ => rfl) (fun t' ht' => ?_) fun _ => List.drop_eq_nil_iff.mp hd
      simp at ht'
    | memory change hn =>
      cases step
      exact h.directs ho ha ht h.cog (.refl x) (thread_set _ ht (.same rfl))
        (.run (hd ▸ submits_nil.mpr (hn _)))
    | awaitTask i u d hn =>
      cases step
      exact h.directs ho ha ht h.cog (.refl x) (thread_set _ ht (.same rfl)) (.linger i u _ _ hd hn)

/-- The next task comes in, and is where its job begins. The caller may hold the lock as it goes on. -/
theorem enlists {p : Part} {view : TaskView} {j : Job} {y : Cog Holding Verdict Nat}
    {k : Control Holding Verdict Nat} (hl : m.look (.caller 1) = some (none, .enrol none g view))
    (new : view.id ∉ Table.keys x.scheduler.handles) (hj : jobs[x.scheduler.handles.length]? = some j)
    (hp : p = j.body) (calm : ∀ b, j.Fits b) (hy : m'.cogs.get? g = some y) (hs : y.state = x.state)
    (hq : y.scheduler.queue = x.scheduler.queue ++ [(view.id, p)])
    (hh : y.scheduler.handles = x.scheduler.handles.put view.id ({} : TaskHandle))
    (ht' : m'.threads.get? (.caller 1) = some { t with control := k })
    (hd : Directs g tasks (x.scheduler.handles.length + 1) k) : Continues g tasks jobs m x b J m' := by
  obtain ⟨-, alone, -⟩ := h.caller ht
  have handles : y.scheduler.handles = x.scheduler.handles ++ [(view.id, ({} : TaskHandle))] := by
    refine hh.trans (Table.put_new (fun e he hid => new ?_) _)
    rw [← hid]
    exact List.mem_map_of_mem he
  have length : y.scheduler.handles.length = x.scheduler.handles.length + 1 := by simp [handles]
  have other {u : TaskId} (hu : u ≠ view.id) : Function.update J view.id j u = J u := Function.update_of_ne hu ..
  refine ⟨y, b, Function.update J view.id j, ?_, .enlists new (by simpa [Table.keys] using hj) rfl rfl
    (by simp [handles, Table.keys])⟩
  refine h.next_caller ho ha hy hs (fun e he => ?_) (fun u hu => ?_) (fun u a hu => other ?_) (fun t' ht₁ => ?_) ?_
  · rw [hq] at he
    rcases List.mem_append.mp he with he | he
    · refine .inl ⟨he, other ?_⟩
      rintro e'
      have there := ho.berth (p := .queue g) (q := .letter (.caller 1))
        ⟨x, h.cog, List.mem_map_of_mem he⟩ ⟨_, _, hl, congrArg some e'.symm⟩
      cases there
    · obtain rfl := List.mem_singleton.mp he
      refine .inr ?_
      rw [Function.update_self]
      exact ⟨hp, calm⟩
  · simp only [Scheduler.ended, hh, Table.get?_put] at hu
    split at hu
    · cases hu
    · next hne => exact ⟨hu, other hne⟩
  · rintro rfl
    have there := ho.berth hu (q := .letter (.caller 1)) ⟨_, _, hl, rfl⟩
    cases there
  · cases ht'.symm.trans ht₁
    exact ⟨alone, length ▸ hd⟩
  · intro gone
    cases ht'.symm.trans gone

theorem step_enrol {begun : List TaskId} (roll : m.Roll g x begun) {p : Part} {view : TaskView}
    {next : Exit RuntimeError TaskId → Part} {j : Job} (hk : t.control = .enrol none g view p next)
    (onward : ∀ t, Submits g (tasks.drop (x.scheduler.handles.length + 1)) (next (.ok t)))
    (hj : jobs[x.scheduler.handles.length]? = some j) (hp : p = j.body) (calm : ∀ b, j.Fits b) :
    Continues g tasks jobs m x b J m' := by
  obtain ⟨-, alone, -⟩ := h.caller ht
  have hl : m.look (.caller 1) = some (none, .enrol none g view) := by
    rw [look_eq m _ ht, hk, alone]
    rfl
  have new : view.id ∉ Table.keys x.scheduler.handles := by
    rw [Table.mem_keys, roll.known]
    exact fun hm => (roll.posted _ hm).arrived _ _ _ hl rfl
  have step : m.stepEnrol (.caller 1) none g view p next = some m' := by
    simpa [act, Machine.step, ht, hk] using ha
  unfold stepEnrol at step
  simp only [h.cog] at step
  split at step
  · cases step
  · split at step
    · cases step
      refine h.enlists ho ha ht hl new hj hp calm
        (y := { x with scheduler := x.scheduler.enqueue view p, lock := some (.caller 1) }) ?_ rfl rfl rfl
        (thread_set _ ht (.same rfl)) (.start (onward _))
      simp [onScheduler, setLock, cog_onCog, h.cog]
    · cases step
      have told : m.Stirred ((m.onScheduler g (·.enqueue view p)).broadcast g) (.caller 1) :=
        (Stirred.same rfl).broadcast
      refine h.enlists ho ha ht hl new hj hp calm (y := { x with scheduler := x.scheduler.enqueue view p }) ?_ rfl rfl rfl
        (thread_set _ ht told) (.of_behind ?_)
      · simp [onScheduler, cog_onCog, h.cog]
      · rw [behind_announce]
        exact .run (onward _)

/-- A context is started for the task that has come in. -/
theorem step_start {stage : Stage} {view : TaskView} {next : Exit RuntimeError TaskId → Part}
    {r : Registry} {memory : Verdict} (hr : Reachable (.empty r memory) m) (opened : m.registry.shutdown = false)
    (started : (⟨m, .step (.caller 1), m'⟩ : Move Holding Verdict Nat).misstarts = false)
    (hk : t.control = .starting stage (.submission none g view next))
    (onward : Submits g (tasks.drop x.scheduler.handles.length) (next (.ok view.id))) :
    Continues g tasks jobs m x b J m' := by
  obtain ⟨-, alone, -⟩ := h.caller ht
  have step : some (m.stepStart (.caller 1) none stage (.submission none g view next)) = some m' := by
    simpa [act, Machine.step, ht, hk, alone] using ha
  cases stage with
  | check =>
    simp only [stepStart, opened, Bool.false_eq_true, if_false] at step
    cases step
    exact h.directs ho ha ht h.cog (.refl x) (thread_set _ ht (.same rfl)) (.start onward)
  | register d =>
    cases step
    exact h.directs ho ha ht h.cog (.refl x) (thread_set _ ht (.same rfl)) (.start onward)
  | launch d =>
    have hl : m.look (.caller 1) = some (none, .submit (.launch d) none g view) := by
      rw [look_eq m _ ht, hk, alone]
      rfl
    obtain ⟨x', hx', worked⟩ := (shift_act ho ha).cog h.cog (ho.newCog (by simp [h.cog]))
    rcases hr.grants_or_denies ha ht hk with ⟨⟨a, t₁, e, k, hact, ht₁, hk₁, -, ht', told⟩, born⟩ |
      ⟨⟨a, t₁, e, k, hact, ht₁, hk₁, failed, ht', told, -⟩, unborn⟩
    · cases hact
      cases ht.symm.trans ht₁
      cases hk.symm.trans hk₁
      have keeps : x.Keeps x' := by
        cases worked with
        | idle e =>
          rw [e]
          exact ⟨rfl, .of_eq rfl rfl⟩
        | deed turns =>
          obtain ⟨-, absent, -⟩ := ho.newcomer hl (c := d) rfl
          rw [turns.absent absent] at born
          cases born
        | grant _ grant => exact grant.keeps
      cases told with
      | submission hb =>
        refine h.directs ho ha ht hx' keeps ht' (.of_behind ?_)
        rw [hb]
        exact .run onward
    · cases hact
      cases ht.symm.trans ht₁
      cases hk.symm.trans hk₁
      cases told with
      | submission hb =>
        have after : m'.look (.caller 1) = some (none, .body none) := by
          rw [look_eq m' _ ht', ← k.stance_behind, hb]
          simp [alone, Control.stance]
        simp [Move.misstarts, Move.turn, Action.actor?, hl, after, Stance.stage?, Stance.newcomer?, unborn]
          at started

theorem step_linger {i : CogId} {u : TaskId} {deadline : Option Instant} {sleep : Sleep} {next : Bool → Part}
    (hk : t.control = .linger none i u deadline sleep next) (last : tasks.drop x.scheduler.handles.length = [])
    (meek : ∀ b, Meek (next b)) : Continues g tasks jobs m x b J m' := by
  have step : m.step (.caller 1) = some m' := ha
  simp only [Machine.step, ht, hk] at step
  split at step
  · cases step
  · cases step
    exact h.directs ho ha ht h.cog (.refl x) (thread_set _ ht (.same rfl)) (.linger i u deadline _ last meek)
  · cases step
    exact h.directs ho ha ht h.cog (.refl x) (thread_set _ ht (.same rfl))
      (.run (last ▸ submits_nil.mpr (meek _)))

theorem step_tells {i : CogId} {n : Notice} {k : Control Holding Verdict Nat} (hk : t.control = .notify i n k)
    (directs : Directs g tasks x.scheduler.handles.length k) : Continues g tasks jobs m x b J m' := by
  have step : some ((m.deliver i n).setControl (.caller 1) k) = some m' := by
    simpa [act, Machine.step, ht, hk] using ha
  cases step
  refine h.directs ho ha ht ?_ (.refl x) (thread_set _ ht (.same (threads_deliver ..))) directs
  show (m.deliver i n).cogs.get? g = some x
  rw [cogs_deliver, h.cog]

/-- The play goes on when the caller takes a step. -/
theorem step_caller {r : Registry} {memory : Verdict} {begun : List TaskId}
    (hr : Reachable (.empty r memory) m) (roll : m.Roll g x begun) (opened : m.registry.shutdown = false)
    (started : (⟨m, .step (.caller 1), m'⟩ : Move Holding Verdict Nat).misstarts = false)
    (bodies : tasks.map (·.2) = jobs.map Job.body) (calm : ∀ j ∈ jobs, ∀ b, j.Fits b) :
    Continues g tasks jobs m x b J m' := by
  obtain ⟨-, -, directs⟩ := h.caller ht
  generalize hk : t.control = k at directs
  cases directs with
  | run submits => exact h.step_submits ho ha ht opened hk submits
  | @enrol _ name p view next htask onward =>
    have body : (jobs.map Job.body)[x.scheduler.handles.length]? = some p := by
      rw [← bodies, List.getElem?_map, htask]
      rfl
    rw [List.getElem?_map, Option.map_eq_some_iff] at body
    obtain ⟨j, hj, hp⟩ := body
    exact h.step_enrol ho ha ht roll hk onward hj hp.symm (calm j (List.mem_of_getElem? hj))
  | start onward => exact h.step_start ho ha ht hr opened started hk onward
  | linger i u deadline sleep last meek => exact h.step_linger ho ha ht hk (List.drop_eq_nil_iff.mpr (by simpa using last)) meek
  | notify i n directs => exact h.step_tells ho ha ht hk directs

end

section
variable (h : Cast g tasks m x b J) (ho : m.Ordered) (ha : m.act act = some m')
include h ho ha

/-- The play goes on when no thread takes a step. -/
theorem idle (idle : act.actor? = none) (come : ∀ p, act ≠ .arrive p) : Continues g tasks jobs m x b J m' := by
  obtain ⟨x', hx', worked⟩ := (shift_act ho ha).cog h.cog (ho.newCog (by simp [h.cog]))
  have e : x' = { x with listeners := x'.listeners, held := x'.held } := by
    rw [idle] at worked
    cases worked with
    | idle e => exact e
  rw [e] at hx'
  refine ⟨{ x with listeners := x'.listeners, held := x'.held }, b, J, ?_, .rests rfl rfl rfl⟩
  constructor
  case cog => exact hx'
  case state => exact h.state
  case queue => exact h.queue
  case ended => exact h.ended
  case context =>
    intro c t' ht'
    exact h.others ho ha (by simp [idle]) (fun _ _ _ _ _ => rfl) (.inl rfl) ht'
  case caller =>
    intro n t' ht'
    exact h.others_caller ho ha (by simp [idle]) come ht'
  case left =>
    intro gone
    exact h.left (left_kept ho ha (by simp [idle]) come gone)

end

/-- Nobody sends signals or shuts down. -/
theorem quiet (h : Cast g tasks m x b J) (a : Agent) : m.signals a = [] ∧ ¬ m.Sweeps a := by
  cases ht : m.threads.get? a with
  | none =>
    refine ⟨by simp [signals, ht], ?_⟩
    rintro ⟨t', seat, next, ht', -⟩
    cases ht.symm.trans ht'
  | some t =>
    have silent : t.control.signals = [] ∧ ∀ seat next, t.control ≠ .sweep seat next := by
      cases a with
      | context c =>
        obtain ⟨-, plays⟩ := h.context ht
        generalize t.control = k at plays
        cases plays with
        | awaits hk => cases k with
          | signal | sweep => cases hk
          | _ => exact ⟨rfl, by simp⟩
        | _ => exact ⟨rfl, by simp⟩
      | caller n =>
        obtain ⟨-, -, directs⟩ := h.caller ht
        generalize t.control = k at directs
        cases directs <;> exact ⟨rfl, by simp⟩
    refine ⟨by rw [signals_eq ht, silent.1], ?_⟩
    rintro ⟨t', seat, next, ht', hk⟩
    cases ht.symm.trans ht'
    exact silent.2 seat next hk

end Cast

end ObjectGroups.Demo
