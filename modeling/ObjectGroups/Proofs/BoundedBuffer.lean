/-
The bounded buffer from end to end.

In whatever order contexts take the slot, the buffer never holds more than it
has places for, and nobody takes from an empty one. No state in which nobody
can go on has a task left that has not ended: at rest everyone waits for a
guard that is false, and the books of the items do not allow that
(`Stock.spent_of_stuck`). When all tasks have ended, each item has been taken
once.
-/
import ObjectGroups.Proofs.Playing

namespace ObjectGroups

variable {S A V : Type} {m : Machine S A V} {a : Agent} {t : Thread S A V}

open Machine

/-- Code of a user blocks only where it says so. -/
theorem Machine.block_of_blocked {seat : Option Seat} {p : Body S A V} (h : m.stepBody a t seat p = none) :
    ∃ ready next, p = .block ready next := by
  cases p with
  | block ready next => exact ⟨ready, next, rfl⟩
  | access change next refused =>
    simp only [stepBody] at h
    repeat' split at h
    all_goals cases h
  | await guard next =>
    simp only [stepBody] at h
    split at h <;> cases h
  | submit g name task next =>
    simp only [stepBody] at h
    split at h <;> cases h
  | _ => cases h

namespace Demo

variable {g : CogId} {m : Theatre} {tasks : List (String × Part)} {jobs : List Job}
  {x : Cog Holding Verdict Nat} {b : Buffer} {J : TaskId → Job} {capacity : Nat}
  {moves : List (Move Holding Verdict Nat)} {r : Registry} {memory : Verdict}
  {ready : Verdict → Bool} {next : Part}

/-! ## At rest -/

theorem Job.body_ne_block (j : Job) : j.body ≠ .block ready next := by
  intro e
  have runs := j.runs
  rw [e] at runs
  cases runs

theorem Submits.submits_or_meek {p : Part} (h : Submits g tasks p) :
    (∃ name task next, p = .submit g name task next) ∨ Meek p := by
  cases tasks with
  | nil => exact .inr (submits_nil.mp h)
  | cons e rest =>
    obtain ⟨next, rfl, -⟩ := h.cons
    exact .inl ⟨_, _, next, rfl⟩

theorem Submits.ne_block {p : Part} (h : Submits g tasks p) : p ≠ .block ready next := by
  rintro rfl
  rcases h.submits_or_meek with ⟨_, _, _, e⟩ | meek
  · cases e
  · cases meek

namespace Cast

section
variable (h : Cast g tasks m x b J) (ho : m.Ordered) (settled : m.Settled)
include h ho settled

/-- At rest the caller has submitted all tasks. -/
theorem all_in : tasks.length ≤ x.scheduler.handles.length := by
  have still : m.Still := fun a => .inl (settled a)
  have blocked := settled (.caller 1)
  cases ht : m.threads.get? (.caller 1) with
  | none => exact h.left ht
  | some t =>
    obtain ⟨-, alone, directs⟩ := h.caller ht
    generalize hk : t.control = k at directs
    cases directs with
    | run submits =>
      simp only [step, ht, hk] at blocked
      obtain ⟨ready, next, rfl⟩ := block_of_blocked blocked
      exact absurd rfl submits.ne_block
    | enrol =>
      simp only [step, ht, hk, stepEnrol, h.cog, still.lock_none ho h.cog] at blocked
      split at blocked
      · contradiction
      · split at blocked <;> cases blocked
    | linger i u deadline sleep last => exact List.drop_eq_nil_iff.mp last
    | start | notify => simp [step, ht, hk] at blocked

/-- At rest all contexts are in awaits. -/
theorem waiting {c : ContextId} {own : Option CogId} {s : Stance} (hl : m.look (.context c) = some (own, s)) :
    ∃ k, s = .wait k := by
  have still : m.Still := fun a => .inl (settled a)
  have blocked := settled (.context c)
  obtain ⟨t, ht, hown, hs⟩ := look_eq_some m _ hl
  obtain ⟨-, plays⟩ := h.context ht
  generalize hk : t.control = k at plays hs
  cases plays with
  | run t fits =>
    simp only [step, ht, hk] at blocked
    obtain ⟨ready, next, e⟩ := block_of_blocked blocked
    exact absurd e (J t).body_ne_block
  | notify => simp [step, ht, hk] at blocked
  | awaits hk =>
    have awaits := Control.awaits_of_await hk
    rw [hs] at awaits
    rcases still.resting ho hl with ⟨seat, rfl⟩ | ⟨seat, i, view, rfl, -⟩ | wait
    · cases awaits
    · cases awaits
    · exact wait
  | _ =>
    subst hs
    rcases still.resting ho hl with ⟨seat, e⟩ | ⟨seat, i, view, e, -⟩ | ⟨k, e⟩ <;> cases e

/-- At rest the slot is free and no task is in the queue. -/
theorem idle_at_rest (hist : History (.empty r memory) moves m) (opened : m.registry.shutdown = false)
    (hm : ∀ v ∈ moves, v.misstarts = false) : x.scheduler.active = none ∧ x.scheduler.queued = [] := by
  have still : m.Still := fun a => .inl (settled a)
  have free : x.scheduler.active = none := by
    refine Option.eq_none_iff_forall_ne_some.mpr fun c hc => ?_
    obtain ⟨s, hl, slot⟩ := hist.reachable.held h.cog hc
    obtain ⟨k, rfl⟩ := h.waiting ho settled hl
    cases slot
  refine ⟨free, by_contra fun queued => ?_⟩
  -- Where tasks are in the queue, the slot is taken or about to be given away.
  have driven := hist.driven (hist.opened opened) hm h.cog
  rcases driven.driven queued with active | grants
  · exact active free
  · exact ho.no_grants h.cog (still.lock_none ho h.cog) grants

end

end Cast

namespace Playing

section
variable (h : Playing g tasks jobs capacity moves m x b J) (hist : History (.empty r memory) moves m)
  (hm : ∀ v ∈ moves, v.misstarts = false) (settled : m.Settled)
include h hist hm settled

/-- At rest each task has ended, or waits for a guard that is false. -/
theorem ends_or_waits {t : TaskId} (ht : t ∈ Table.keys x.scheduler.handles) :
    x.scheduler.ended t = true ∨ ∃ q j', (J t).Awaits q j' ∧ q.poll m.sight (.buffer b) = .ok false := by
  have ho : m.Ordered := hist.reachable.ordered
  have still : m.Still := fun a => .inl (settled a)
  have hx := h.cast.cog
  obtain ⟨free, queued⟩ := h.cast.idle_at_rest ho settled hist h.opened hm
  have attended := hist.reachable.attended hx
  obtain ⟨d, hd⟩ := Option.isSome_iff_exists.mp (Table.mem_keys.mp ht)
  cases hr : x.scheduler.records.get? t with
  | none =>
    have finished := (attended.faithful.ended hd hr).1
    exact .inl (by simp [Scheduler.ended, hd, TaskHandle.finished, finished])
  | some record =>
    -- Its record is not that of a task in the queue, so a context hosts it, and is in an await.
    have begun : record.view.state ≠ .queued := by
      intro state
      have waits := mem_unstarted.mpr ⟨record, Table.mem_of_get? hr, state⟩
      rw [(hist.roll.2 hx).tidy.queued, queued] at waits
      cases waits
    obtain ⟨c, s, active, -, hl, seat⟩ := attended.begun hr begun
    obtain ⟨k, rfl⟩ := h.cast.waiting ho settled hl
    cases seat
    obtain ⟨th, hth, home, hs⟩ := look_eq_some m _ hl
    obtain ⟨aw, hk, rfl⟩ := Control.await_of_awaits (k := t) (by rw [hs]; rfl)
    obtain ⟨-, plays⟩ := h.cast.context hth
    obtain ⟨j', awaits⟩ := plays.awaits_job hk
    have refused := Bides.not_true h.follows ho still hx free ⟨th, hth, home, hk⟩ awaits.sure
    rw [h.cast.state] at refused
    exact .inr ⟨_, j', awaits, refused⟩

/-- At rest all tasks have come in and have ended. -/
theorem all_ended (bodies : tasks.map (·.2) = jobs.map Job.body)
    (even : (jobs.map Job.todo).sum.card = (jobs.map Job.wants).sum) (places : 0 < capacity) :
    x.scheduler.handles.length = jobs.length ∧ ∀ t, m.unfinished g t = false := by
  have same : tasks.length = jobs.length := by simpa using congrArg List.length bodies
  have enter := h.cast.all_in hist.reachable.ordered settled
  have few := h.stock.few
  have length : (Table.keys x.scheduler.handles).length = x.scheduler.handles.length := List.length_map ..
  have all : (Table.keys x.scheduler.handles).length = jobs.length := by omega
  have spent := h.stock.spent_of_stuck all even (h.places ▸ places) fun t ht =>
    (h.ends_or_waits hist hm settled ht).imp_left (h.cast.ended t)
  refine ⟨length ▸ all, fun t => ?_⟩
  rw [unfinished, handle?_eq h.cast.cog]
  cases hd : x.scheduler.handles.get? t with
  | none => rfl
  | some d =>
    have ht : t ∈ Table.keys x.scheduler.handles := Table.mem_keys.mpr (by simp [hd])
    rcases h.ends_or_waits hist hm settled ht with ended | ⟨q, j', awaits, -⟩
    · simpa [Scheduler.ended, hd] using ended
    · exact absurd (spent t ht) awaits.unspent

end

/-- Tasks that have all come in and ended have taken what they were to put. -/
theorem all_taken (h : Playing g tasks jobs capacity moves m x b J) (all : x.scheduler.handles.length = jobs.length)
    (even : (jobs.map Job.todo).sum.card = (jobs.map Job.wants).sum) (ended : ∀ t, m.unfinished g t = false) :
    (takings g moves : Multiset Nat) = (jobs.map Job.todo).sum := by
  have known : (Table.keys x.scheduler.handles).length = jobs.length := (List.length_map ..).trans all
  refine h.stock.taken_eq known even fun t ht => h.cast.ended t ?_
  obtain ⟨d, hd⟩ := Option.isSome_iff_exists.mp (Table.mem_keys.mp ht)
  have ended := ended t
  rw [unfinished, handle?_eq h.cast.cog, hd] at ended
  simpa [Scheduler.ended, hd] using ended

end Playing

/-! ## The beginning -/

namespace CommandLine

/-- The system has memory for the places. -/
def affordable (c : CommandLine) : Prop := c.capacity * Buffer.placeSize < memoryLimit

instance (c : CommandLine) : Decidable c.affordable := inferInstanceAs (Decidable (_ < _))

/-- The producers that come to work. -/
def crew (c : CommandLine) : Nat := if c.affordable then c.producers else 0

theorem crew_le (c : CommandLine) : c.crew ≤ c.producers := by
  unfold crew
  split
  · exact le_rfl
  · exact Nat.zero_le _

end CommandLine

/-- The buffer alone, with its caller. -/
def opening (c : CommandLine) (timeout : Span) (r : Registry) : Theatre :=
  ((Machine.empty r none).found "buffer" (.buffer { capacity := c.capacity })).2.arrive
    (Part.bufferStage c ⟨1⟩ timeout Part.done)

/-- What leads to the beginning. -/
def prologue (c : CommandLine) (timeout : Span) (r : Registry) : List (Move Holding Verdict Nat) :=
  (Machine.empty r none).moves [.found "buffer" (.buffer { capacity := c.capacity }),
    .arrive (Part.bufferStage c ⟨1⟩ timeout Part.done)]

variable {c : CommandLine} {timeout : Span} {a : Agent}

theorem history_prologue : History (.empty r none) (prologue c timeout r) (opening c timeout r) :=
  history_moves ..

theorem submits_bufferStage (places : 0 < c.capacity) :
    Submits g (Part.bufferTasks { c with producers := c.crew }) (Part.bufferStage c g timeout Part.done) := by
  have some : c.capacity ≠ 0 := by omega
  unfold Part.bufferStage Part.reserve CommandLine.crew
  rw [if_neg some]
  by_cases affordable : c.affordable
  · have small : ¬ Word.half ≤ c.capacity * Buffer.placeSize := by
      have limit : memoryLimit < Word.half := by decide
      unfold CommandLine.affordable at affordable
      omega
    rw [if_neg small, if_neg (Nat.not_le.mpr affordable), if_pos affordable]
    exact ⟨[], _, rfl, fun ts => meek_waitAll g timeout ts (.exit _)⟩
  · rw [if_neg affordable]
    refine submits_nil.mpr ?_
    split
    · exact meek_finish _
    · rw [if_pos (Nat.not_lt.mp affordable)]
      exact meek_finish _

theorem playing_opening (opened : r.shutdown = false) (places : 0 < c.capacity) :
    Playing ⟨1⟩ (Part.bufferTasks { c with producers := c.crew }) (bufferJobs c.crew c.items) c.capacity
      (prologue c timeout r) (opening c timeout r) { name := "buffer", state := .buffer { capacity := c.capacity } }
      { capacity := c.capacity } fun _ => .consume 0 := by
  have alone {d : ContextId} : (opening c timeout r).threads.get? (.context d) = none := rfl
  constructor
  case cast =>
    constructor
    case cog => rfl
    case state => rfl
    case queue => simp
    case ended =>
      intro t ht
      cases ht
    case context =>
      intro d t ht
      cases alone.symm.trans ht
    case caller =>
      intro n t ht
      obtain ⟨e, rfl⟩ : 1 = n ∧ _ := by simpa [opening, found, arrive, Machine.empty, Table.put, Table.get?] using ht
      exact ⟨e.symm, rfl, .run (submits_bufferStage places)⟩
    case left =>
      intro gone
      cases gone
  case stock => exact .start ..
  case places => rfl
  case follows =>
    intro d t g x ht
    cases alone.symm.trans ht
  case opened => exact opened
  case calm => exact fun d => rfl

theorem takings_prologue (moves : List (Move Holding Verdict Nat)) :
    takings ⟨1⟩ (prologue c timeout r ++ moves) = takings ⟨1⟩ moves := by
  have none : takings ⟨1⟩ (prologue c timeout r) = [] := rfl
  rw [takings, List.filterMap_append]
  exact congrArg (· ++ takings ⟨1⟩ moves) none

/-! ## From end to end -/

/-- The thread is about to change the state of its cog so. -/
def AboutTo (m : Theatre) (a : Agent) (f : Holding → Holding) : Prop :=
  ∃ t seat next refused, m.threads.get? a = some t ∧ t.control = .run seat (.access f next refused)

theorem onBuffer_injective : Function.Injective Holding.onBuffer := fun _ _ e =>
  funext fun b => Holding.buffer.inj (congrFun e (.buffer b))

/-- Whoever is about to change the state works on the buffer, as its job is, and the buffer allows it. -/
theorem Cast.works_of_aboutTo {f : Buffer → Buffer} (h : Cast g tasks m x b J)
    (ha : AboutTo m a (.onBuffer f)) : ∃ t j', (J t).Works f j' ∧ (J t).Fits b := by
  obtain ⟨t, seat, next, refused, ht, hk⟩ := ha
  cases a with
  | context d =>
    obtain ⟨-, plays⟩ := h.context ht
    rw [hk] at plays
    generalize hp : Body.access (Holding.onBuffer f) next refused = p at plays
    cases plays with
    | run k fits =>
      have runs := (J k).runs
      rw [← hp] at runs
      generalize hf : Holding.onBuffer f = change at runs
      cases runs with
      | works hj =>
        obtain rfl := onBuffer_injective hf
        exact ⟨k, _, hj, fits⟩
    | awaits hk' => cases hk'
  | caller n =>
    obtain ⟨-, -, directs⟩ := h.caller ht
    rw [hk] at directs
    cases directs with
    | run submits =>
      rcases submits.submits_or_meek with ⟨_, _, _, e⟩ | meek
      · cases e
      · cases meek

theorem put_ne_take (item : Nat) : (fun b : Buffer => b.put item) ≠ fun b => b.take := by
  intro e
  have slots := congrArg Buffer.slots (congrFun e { capacity := 0 })
  cases slots

/-- Nobody is about to take an item from an empty buffer. -/
theorem Cast.takes (h : Cast g tasks m x b J) (ha : AboutTo m a (.onBuffer (·.take))) : b.slots ≠ [] := by
  obtain ⟨t, j', works, fits⟩ := h.works_of_aboutTo ha
  generalize J t = j at works fits
  generalize hf : (fun b : Buffer => b.take) = f at works
  cases works with
  | put first n => exact absurd hf.symm (put_ne_take first)
  | take n => exact fits

/-- Nobody is about to put an item into a full buffer. -/
theorem Cast.puts {item : Nat} (h : Cast g tasks m x b J) (ha : AboutTo m a (.onBuffer (·.put item))) :
    b.slots.length < b.capacity := by
  obtain ⟨t, j', works, fits⟩ := h.works_of_aboutTo ha
  generalize J t = j at works fits
  generalize hf : (fun b : Buffer => b.put item) = f at works
  cases works with
  | put first n => exact fits
  | take n => exact absurd hf (put_ne_take item)

/-- What holds in every state of a run of the buffer. -/
structure BufferKept (c : CommandLine) (moves : List (Move Holding Verdict Nat)) (m : Theatre)
    (x : Cog Holding Verdict Nat) (b : Buffer) : Prop where
  bounded : b.capacity = c.capacity ∧ b.slots.length ≤ c.capacity
  takes {a : Agent} : AboutTo m a (.onBuffer (·.take)) → b.slots ≠ []
  puts {a : Agent} {item : Nat} : AboutTo m a (.onBuffer (·.put item)) → b.slots.length < c.capacity
  /-- The buffer counts and adds up what has been taken from it. -/
  counted : b.consumed = (takings ⟨1⟩ moves).length ∧ b.checksum = (takings ⟨1⟩ moves).sum
  /-- Neither the sum nor what it is to be compared with overflows. -/
  sized : b.checksum < Word.size ∧ c.producers * c.items * (c.producers * c.items - 1) < Word.size
  /-- No item is taken twice, and none that has not been made. -/
  once : (takings ⟨1⟩ moves).Nodup ∧ ∀ item ∈ takings ⟨1⟩ moves, item < c.producers * c.items
  /-- Where nobody can go on, all tasks have come in, and none of them is unfinished. -/
  live : m.Settled → (c.affordable → x.scheduler.handles.length = 2 * c.producers) ∧
    ∀ t, m.unfinished ⟨1⟩ t = false
  /-- When all tasks have come in and none is unfinished, each item has been taken. -/
  complete : x.scheduler.handles.length = 2 * c.producers → (∀ t, m.unfinished ⟨1⟩ t = false) →
    (takings ⟨1⟩ moves).Perm (List.range (c.producers * c.items)) ∧
      b.consumed = c.producers * c.items ∧
      b.checksum = c.producers * c.items * (c.producers * c.items - 1) / 2 ∧
      m.audit ⟨1⟩ (c.producers * c.items) = none

/-- The scenario of the buffer in whatever order threads take their steps, with no shutdown and no
start of a context that fails. -/
theorem bounded_buffer (opened : r.shutdown = false) (places : 0 < c.capacity)
    (few : c.producers * c.items < 2 ^ 32) (h : History (opening c timeout r) moves m)
    (alone : ∀ v ∈ moves, ∀ p, v.act ≠ .arrive p) (started : ∀ v ∈ moves, v.misstarts = false) :
    ∃ x b, m.cogs.get? ⟨1⟩ = some x ∧ x.state = .buffer b ∧ BufferKept c moves m x b := by
  have bodies : (Part.bufferTasks { c with producers := c.crew }).map (·.2) =
      (bufferJobs c.crew c.items).map Job.body := bufferTasks_body _
  have hist : History (.empty r none) (prologue c timeout r ++ moves) m := history_prologue.trans h
  have hm : ∀ v ∈ prologue c timeout r ++ moves, v.misstarts = false := by
    intro v hv
    rcases List.mem_append.mp hv with first | later
    · rcases List.mem_pair.mp first with rfl | rfl <;> rfl
    · exact started v later
  obtain ⟨x, b, J, playing⟩ := History.playing history_prologue h alone started bodies
    (fun j hj => fits_bufferJobs _ _ hj) (playing_opening opened places)
  have even := even_bufferJobs c.crew c.items
  have stock := playing.stock
  rw [takings_prologue] at stock
  have below : (takings ⟨1⟩ moves : Multiset Nat) ≤ Multiset.range (c.producers * c.items) := by
    refine (sum_todo c.crew c.items ▸ stock.taken_le).trans (Multiset.range_le.mpr ?_)
    exact Nat.mul_le_mul_right _ c.crew_le
  refine ⟨x, b, playing.cast.cog, playing.cast.state, ?_⟩
  constructor
  case bounded => exact ⟨playing.places, playing.places ▸ stock.room⟩
  case takes => exact fun ha => playing.cast.takes ha
  case puts => exact fun ha => playing.places ▸ playing.cast.puts ha
  case counted => exact ⟨stock.consumed, stock.checksum⟩
  case sized =>
    have size := triangle_lt few
    have sum := sum_le below
    rw [← stock.checksum] at sum
    exact ⟨by omega, size⟩
  case once =>
    exact ⟨Multiset.nodup_of_le below (Multiset.nodup_range _), fun item hi =>
      Multiset.mem_range.mp (Multiset.mem_of_le below hi)⟩
  case live =>
    intro settled
    obtain ⟨all, ended⟩ := playing.all_ended hist hm settled bodies even places
    refine ⟨fun affordable => ?_, ended⟩
    rw [all, length_bufferJobs, CommandLine.crew, if_pos affordable]
  case complete =>
    intro all ended
    -- If no producer had come there would be fewer tasks.
    have crew : c.crew = c.producers := by
      have enough := stock.few
      have known : (Table.keys x.scheduler.handles).length = 2 * c.producers := (List.length_map ..).trans all
      have most := c.crew_le
      rw [known, length_bufferJobs] at enough
      omega
    have taken := playing.all_taken (by rw [all, length_bufferJobs, crew]) even ended
    rw [takings_prologue, sum_todo, crew] at taken
    obtain ⟨consumed, checksum⟩ := stock.counts taken
    have audit := Buffer.audit_eq_none consumed checksum
    refine ⟨Multiset.coe_eq_coe.mp taken, consumed, checksum, ?_⟩
    simp [Theatre.audit, Theatre.holding, playing.cast.cog, playing.cast.state, audit]

/-- One producer and one consumer, with two items and one place. -/
def tight : CommandLine := { producers := 1, items := 2, capacity := 1 }

/-- The caller and the two contexts take steps in turn. -/
def turns : List (Action Holding Verdict Nat) :=
  (List.replicate 50 [.step (.caller 1), .step (.context ⟨1⟩), .step (.context ⟨2⟩)]).flatten

def played : Theatre := turns.foldl Machine.perform (opening tight (.ofMillis 1000) granting)

theorem bounded_buffer_played : ∃ x b, played.cogs.get? ⟨1⟩ = some x ∧ x.state = .buffer b ∧
    BufferKept tight ((opening tight (.ofMillis 1000) granting).moves turns) played x b ∧ played.Settled ∧
    b.consumed = 2 ∧ b.checksum = 1 ∧ played.audit ⟨1⟩ 2 = none := by
  have steps : ∀ v ∈ (opening tight (.ofMillis 1000) granting).moves turns,
      v.act.actor?.isSome = true ∧ v.misstarts = false := by decide +kernel
  have alone : ∀ v ∈ (opening tight (.ofMillis 1000) granting).moves turns, ∀ p, v.act ≠ .arrive p := by
    intro v hv p e
    have step := (steps v hv).1
    rw [e] at step
    cases step
  have gone : played.threads.map (·.1) = [] := by decide +kernel
  have settled : played.Settled := fun a => by
    simp [step, List.map_eq_nil_iff.mp gone]
  obtain ⟨x, b, hx, hb, kept⟩ := bounded_buffer (r := granting) rfl (by decide) (by decide)
    (history_moves _ turns) alone fun v hv => (steps v hv).2
  obtain ⟨entered, ended⟩ := kept.live settled
  obtain ⟨-, consumed, checksum, audit⟩ := kept.complete (entered (by decide)) ended
  exact ⟨x, b, hx, hb, kept, settled, consumed, checksum, audit⟩

end Demo

end ObjectGroups
