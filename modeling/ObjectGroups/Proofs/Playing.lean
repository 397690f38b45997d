/-
A run of the buffer, from its beginning on.

The caller comes with the buffer, and from then on no other caller comes. In
every state that is reached the cast is together and the books of the items
balance (`Playing`), whoever takes the next step, as long as no start of a
context fails. Nobody shuts down and nobody is interrupted, since nobody in
the cast does so.
-/
import ObjectGroups.Proofs.Accounting
import ObjectGroups.Proofs.Scenes

namespace ObjectGroups

variable {S A V : Type} {m : Machine S A V} {a : Agent} {moves : List (Move S A V)} {r : Registry} {memory : A}

open Machine

/-- A registry that is open has always been. -/
theorem History.opened (h : History (.empty r memory) moves m) (opened : m.registry.shutdown = false) :
    ∀ v ∈ moves, v.before.registry.shutdown = false := by
  induction h with
  | refl => simp
  | @act moves m m' move h ha ih =>
    have before : m.registry.shutdown = false := by
      refine Bool.eq_false_iff.mpr fun closed => ?_
      cases opened.symm.trans (h.reachable.ordered.closed ha closed)
    intro v hv
    rcases List.mem_append.mp hv with earlier | last
    · exact ih before v earlier
    · obtain rfl := List.mem_singleton.mp last
      exact before

/-- The cog knows the tasks of its threads. -/
theorem History.known_of_seat {g : CogId} {x : Cog S A V} {c : ContextId} {s : Stance} {t : TaskId} {active : Bool}
    (h : History (.empty r memory) moves m) (hx : m.cogs.get? g = some x)
    (hl : m.look (.context c) = some (some g, s)) (hs : s.seat? = some ⟨t, active⟩) :
    t ∈ Table.keys x.scheduler.handles :=
  Table.mem_keys.mpr ((h.roll.2 hx).known.mpr
    (List.mem_append_left _ (List.mem_map_of_mem (h.hosting hl hs))))

namespace Demo

/-! ## What is taken -/

/-- The item that has gone out of the buffer of the cog from one machine to the next. -/
def Theatre.taken? (m m' : Theatre) (g : CogId) : Option Nat :=
  match m.holding g, m'.holding g with
  | some (.buffer b), some (.buffer b') => b.popped? b'
  | _, _ => none

/-- The items that have been taken from the buffer of the cog, in order. -/
def takings (g : CogId) (moves : List (Move Holding Verdict Nat)) : List Nat :=
  moves.filterMap fun v => Theatre.taken? v.before v.after g

theorem takings_snoc (g : CogId) (moves : List (Move Holding Verdict Nat)) (v : Move Holding Verdict Nat) :
    takings g (moves ++ [v]) = takings g moves ++ (Theatre.taken? v.before v.after g).toList := by
  unfold takings
  rw [List.filterMap_append]
  cases h : Theatre.taken? v.before v.after g <;> simp [h]

variable {g : CogId} {m m' : Theatre} {act : Action Holding Verdict Nat} {tasks : List (String × Part)}
  {jobs : List Job} {x x' : Cog Holding Verdict Nat} {b b' : Buffer} {J J' : TaskId → Job}
  {capacity : Nat} {moves : List (Move Holding Verdict Nat)} {r : Registry} {memory : Verdict}

/-- What becomes of the jobs and of the buffer keeps the books of the items. -/
theorem Scene.stock {taken : List Nat} (scene : Scene g jobs m x x' J J' b b')
    (h : Stock jobs (Table.keys x.scheduler.handles) J taken b)
    (distinct : (Table.keys x.scheduler.handles).Nodup)
    (known : ∀ c s t active, m.look (.context c) = some (some g, s) → s.seat? = some ⟨t, active⟩ →
      t ∈ Table.keys x.scheduler.handles) :
    Stock jobs (Table.keys x'.scheduler.handles) J' (taken ++ (b.popped? b').toList) b' ∧
      b'.capacity = b.capacity := by
  have untouched : taken ++ (b.popped? b).toList = taken := by
    rw [Buffer.popped?_eq_none b b le_rfl, Option.toList_none, List.append_nil]
  cases scene with
  | rests hJ hb hk =>
    subst hJ hb
    rw [hk, untouched]
    exact ⟨h, rfl⟩
  | awaits host hj hJ hb hk =>
    subst hJ hb
    rw [hk, untouched]
    exact ⟨h.await hj, rfl⟩
  | works host hj fits hJ hb hk =>
    obtain ⟨c, s, active, hl, hs⟩ := host
    subst hJ hb
    rw [hk]
    exact ⟨h.work distinct (known c s _ active hl hs) hj fits, hj.capacity b⟩
  | enlists new hj hJ hb hk =>
    subst hJ hb
    rw [hk, untouched]
    exact ⟨h.enlist new hj, rfl⟩

/-! ## What is awaited -/

/-- Who is in an await in the play awaits the guard of a job. -/
theorem Plays.awaits_job {k : Control Holding Verdict Nat} {aw : Awaiting Holding Verdict Nat} (h : Plays J b k)
    (hk : k.await? = some aw) : ∃ j', (J aw.task).Awaits aw.guard j' := by
  induction h with
  | awaits hk' hj =>
    cases hk'.symm.trans hk
    exact ⟨_, hj⟩
  | notify i n _ ih => exact ih hk
  | _ => cases hk

theorem Directs.await?_eq_none {n : Nat} {k : Control Holding Verdict Nat} (h : Directs g tasks n k) :
    k.await? = none := by
  induction h with
  | notify i n _ ih => exact ih
  | _ => rfl

theorem Cast.allSure (h : Cast g tasks m x b J) : m.AllSure := by
  intro a t aw ht hk
  cases a with
  | context c =>
    obtain ⟨-, plays⟩ := h.context ht
    obtain ⟨j', awaits⟩ := plays.awaits_job hk
    exact awaits.sure
  | caller n =>
    obtain ⟨-, -, directs⟩ := h.caller ht
    cases directs.await?_eq_none.symm.trans hk

/-! ## The run -/

/-- The cast is together, and the books of the items balance. -/
structure Playing (g : CogId) (tasks : List (String × Part)) (jobs : List Job) (capacity : Nat)
    (moves : List (Move Holding Verdict Nat)) (m : Theatre) (x : Cog Holding Verdict Nat) (b : Buffer)
    (J : TaskId → Job) : Prop where
  cast : Cast g tasks m x b J
  stock : Stock jobs (Table.keys x.scheduler.handles) J (takings g moves) b
  places : b.capacity = capacity
  follows : m.Follows m.Bides
  opened : m.registry.shutdown = false
  calm : ∀ c, m.interrupted c = false

/-- The play goes on, whoever takes the next step. -/
theorem Cast.goes_on (h : Cast g tasks m x b J) (hist : History (.empty r memory) moves m)
    (ha : m.act act = some m') (come : ∀ p, act ≠ .arrive p)
    (started : (⟨m, act, m'⟩ : Move Holding Verdict Nat).misstarts = false)
    (follows : m.Follows m.Bides) (opened : m.registry.shutdown = false) (calm : ∀ c, m.interrupted c = false)
    (bodies : tasks.map (·.2) = jobs.map Job.body) (fits : ∀ j ∈ jobs, ∀ b, j.Fits b) :
    Continues g tasks jobs m x b J m' := by
  have hr := hist.reachable
  cases hact : act.actor? with
  | none => exact h.idle hr.ordered ha hact come
  | some a =>
    obtain rfl := Action.step_of_actor hact
    cases ht : m.threads.get? a with
    | none =>
      have step : m.step a = some m' := ha
      simp [Machine.step, ht] at step
    | some t => cases a with
      | context c => exact h.step_context hr.ordered ha ht follows hr.housed (calm c)
      | caller n =>
        obtain ⟨rfl, -⟩ := h.caller ht
        exact h.step_caller hr.ordered ha ht hr (hist.roll.2 h.cog) opened started bodies fits

theorem Playing.next (h : Playing g tasks jobs capacity moves m x b J) (hist : History (.empty r memory) moves m)
    (ha : m.act act = some m') (come : ∀ p, act ≠ .arrive p)
    (started : (⟨m, act, m'⟩ : Move Holding Verdict Nat).misstarts = false)
    (bodies : tasks.map (·.2) = jobs.map Job.body) (fits : ∀ j ∈ jobs, ∀ b, j.Fits b) :
    ∃ x' b' J', Playing g tasks jobs capacity (moves ++ [⟨m, act, m'⟩]) m' x' b' J' := by
  have ho : m.Ordered := hist.reachable.ordered
  obtain ⟨x', b', J', cast, scene⟩ :=
    h.cast.goes_on hist ha come started h.follows h.opened h.calm bodies fits
  obtain ⟨stock, places⟩ := scene.stock h.stock (hist.roll.2 h.cast.cog).distinct
    fun c s t active hl hs => hist.known_of_seat h.cast.cog hl hs
  refine ⟨x', b', J', cast, ?_, places.trans h.places, ?_, ?_, fun c => ?_⟩
  · have taken : Theatre.taken? m m' g = b.popped? b' := by
      simp [Theatre.taken?, Theatre.holding, h.cast.cog, cast.cog, h.cast.state, cast.state]
    rw [takings_snoc]
    exact taken ▸ stock
  · exact bides_act h.follows ho hist.reachable.housed h.cast.allSure h.calm ha
  · have closing := (aside_act ho ha).closing
    generalize act.actor? = actor at closing
    cases closing with
    | same e => exact e.trans h.opened
    | close _ sweeps => exact absurd sweeps (cast.quiet _).2
  · refine Bool.eq_false_iff.mpr fun hi => ?_
    rcases Machine.raised ho ha hi with before | hit
    · cases (h.calm c).symm.trans before
    · obtain ⟨a, rest, -, signals⟩ := Move.interrupts?_eq hit
      cases (h.cast.quiet a).1.symm.trans signals

theorem History.playing {start : Theatre} {before : List (Move Holding Verdict Nat)}
    (begins : History (.empty r memory) before start) (h : History start moves m)
    (alone : ∀ v ∈ moves, ∀ p, v.act ≠ .arrive p) (hm : ∀ v ∈ moves, v.misstarts = false)
    (bodies : tasks.map (·.2) = jobs.map Job.body) (fits : ∀ j ∈ jobs, ∀ b, j.Fits b)
    (first : Playing g tasks jobs capacity before start x b J) :
    ∃ x b J, Playing g tasks jobs capacity (before ++ moves) m x b J := by
  induction h with
  | refl => exact ⟨x, b, J, by simpa using first⟩
  | @act moves m m' act h ha ih =>
    obtain ⟨x, b, J, playing⟩ := ih (fun v hv => alone v (List.mem_append_left _ hv))
      fun v hv => hm v (List.mem_append_left _ hv)
    have last : (⟨m, act, m'⟩ : Move Holding Verdict Nat) ∈ moves ++ [⟨m, act, m'⟩] := by simp
    rw [← List.append_assoc]
    exact playing.next (begins.trans h) ha (alone _ last) (hm _ last) bodies fits

end Demo

end ObjectGroups
