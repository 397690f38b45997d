/-
The tasks of the bounded buffer, each where it stands in its program.

A producer awaits that the buffer is not full and puts its next item, a
consumer awaits that it is not empty and takes one. A `Job` is what one of
them has left to do: it ends, awaits a guard, or works on the buffer. What all
jobs together are to put are the numbers from 0 on, and they are to take as
many.
-/
import Mathlib.Algebra.BigOperators.Intervals
import ObjectGroups.Demo.Scenario
import ObjectGroups.Proofs.Sure

namespace ObjectGroups.Demo

/-- A task of the buffer at a point of its program. -/
inductive Job where
  /-- Has `n` items to put, from `first` on. -/
  | produce (first n : Nat)
  /-- Has found a free place for `first`, and has `n` more items to put after it. -/
  | put (first n : Nat)
  | consume (n : Nat)
  /-- Has found an item to take, and is to take `n` more. -/
  | take (n : Nat)

namespace Job

variable {j j' : Job} {q : Guard Holding} {f : Buffer → Buffer} {b : Buffer}

/-- What the task is about to run. -/
def body : Job → Part
  | .produce first n => Part.produce first n
  | .put first n => Part.change (.onBuffer (·.put first)) fun _ => Part.produce (first + 1) n
  | .consume n => Part.consume n
  | .take n => Part.change (.onBuffer (·.take)) fun _ => Part.consume n

/-- The items that it has not put yet. -/
def todo : Job → Multiset Nat
  | .produce first n => List.range' first n
  | .put first n => List.range' first (n + 1)
  | _ => 0

/-- How many items it has not taken yet. -/
def wants : Job → Nat
  | .consume n => n
  | .take n => n + 1
  | _ => 0

def Spent (j : Job) : Prop := j.todo = 0 ∧ j.wants = 0

/-- The buffer allows what the task is about to do to it. -/
def Fits (b : Buffer) : Job → Prop
  | .put .. => b.slots.length < b.capacity
  | .take _ => b.slots ≠ []
  | _ => True

/-- The guard that the task is about to await or awaits, and where it stands once the guard holds. -/
inductive Awaits : Job → Guard Holding → Job → Prop where
  | notFull (first n : Nat) : Awaits (.produce first (n + 1)) Holding.notFull (.put first n)
  | notEmpty (n : Nat) : Awaits (.consume (n + 1)) Holding.notEmpty (.take n)

/-- What the task is about to do to the buffer, and where it stands then. -/
inductive Works : Job → (Buffer → Buffer) → Job → Prop where
  | put (first n : Nat) : Works (.put first n) (·.put first) (.produce (first + 1) n)
  | take (n : Nat) : Works (.take n) (·.take) (.consume n)

/-- The three things that a task does. -/
inductive Runs (j : Job) : Part → Prop where
  | ends : j.Spent → Runs j Part.done
  | awaits {q : Guard Holding} {j' : Job} {next : Exit TaskError Unit → Part} : j.Awaits q j' →
      next (.ok ()) = j'.body → Runs j (.await q next)
  | works {f : Buffer → Buffer} {j' : Job} {next : Holding → Part} {refused : Part} : j.Works f j' →
      (∀ s, next s = j'.body) → Runs j (.access (.onBuffer f) next refused)

theorem runs (j : Job) : j.Runs j.body := by
  cases j with
  | produce first n => cases n with
    | zero => exact .ends ⟨rfl, rfl⟩
    | succ n => exact .awaits (.notFull first n) rfl
  | put first n => exact .works (.put first n) fun _ => rfl
  | consume n => cases n with
    | zero => exact .ends ⟨rfl, rfl⟩
    | succ n => exact .awaits (.notEmpty n) rfl
  | take n => exact .works (.take n) fun _ => rfl

/-! ## Awaits -/

namespace Awaits

theorem sure (h : j.Awaits q j') : q.Sure := by
  cases h with
  | notFull first n =>
    refine ⟨_, _, rfl, fun s => ?_⟩
    cases s <;> exact ⟨_, rfl⟩
  | notEmpty n =>
    refine ⟨_, _, rfl, fun s => ?_⟩
    cases s <;> exact ⟨_, rfl⟩

/-- A guard that holds allows what comes after it. -/
theorem fits {v : Sight} (h : j.Awaits q j') (holds : q.poll v (.buffer b) = .ok true) : j'.Fits b := by
  cases h with
  | notFull first n =>
    have room : (.ok (!b.full) : Answer) = .ok true := holds
    simpa [Fits, Buffer.full] using room
  | notEmpty n =>
    have some : (.ok (!b.slots.isEmpty) : Answer) = .ok true := holds
    simpa [Fits] using some

/-- To await is not to work. -/
theorem todo (h : j.Awaits q j') : j'.todo = j.todo := by
  cases h <;> rfl

theorem wants (h : j.Awaits q j') : j'.wants = j.wants := by
  cases h <;> rfl

theorem unspent (h : j.Awaits q j') : ¬ j.Spent := by
  rintro ⟨todo, wants⟩
  cases h with
  | notFull first n => simp [Job.todo] at todo
  | notEmpty n => cases wants

end Awaits

/-! ## Work on the buffer -/

/-- What work on the buffer comes to: an item comes in at its end, or its first item goes out. -/
inductive Effect (j j' : Job) (b b' : Buffer) : Prop where
  | put (item : Nat) : b.slots.length < b.capacity →
      b' = { b with slots := b.slots ++ [item] } → j.todo = item ::ₘ j'.todo → j'.wants = j.wants →
      Effect j j' b b'
  | take (item : Nat) (rest : List Nat) : b.slots = item :: rest →
      b' = { b with slots := rest, consumed := b.consumed + 1, checksum := b.checksum + item } →
      j'.todo = j.todo → j.wants = j'.wants + 1 → Effect j j' b b'

theorem Works.effect (h : j.Works f j') (fits : j.Fits b) : j.Effect j' b (f b) := by
  cases h with
  | put first n =>
    refine .put first fits rfl ?_ rfl
    show (List.range' first (n + 1) : Multiset Nat) = _
    rw [List.range'_succ]
    rfl
  | take n =>
    obtain ⟨slots, capacity, consumed, checksum⟩ := b
    cases slots with
    | nil => exact absurd rfl fits
    | cons item rest => exact .take item rest rfl rfl rfl rfl

theorem Works.unspent (h : j.Works f j') : ¬ j.Spent := by
  rintro ⟨todo, wants⟩
  cases h with
  | put first n => simp [Job.todo] at todo
  | take n => cases wants

theorem Works.capacity (h : j.Works f j') (b : Buffer) : (f b).capacity = b.capacity := by
  cases h with
  | put first n => rfl
  | take n =>
    obtain ⟨slots, capacity, consumed, checksum⟩ := b
    cases slots <;> rfl

/-- What a task does not have to find out, any buffer allows. -/
theorem Works.calm (h : j.Works f j') (b : Buffer) : j'.Fits b := by
  cases h <;> trivial

end Job

/-! ## The jobs of a run -/

/-- What the tasks of the buffer are to do, in the order in which they are submitted. -/
def bufferJobs (producers items : Nat) : List Job :=
  (List.range producers).flatMap fun p => [.produce (p * items) items, .consume items]

theorem bufferTasks_body (c : CommandLine) :
    (Part.bufferTasks c).map (·.2) = (bufferJobs c.producers c.items).map Job.body := by
  simp [Part.bufferTasks, bufferJobs, List.map_flatMap, Job.body]

section
variable (producers items : Nat)

theorem bufferJobs_succ : bufferJobs (producers + 1) items =
    bufferJobs producers items ++ [.produce (producers * items) items, .consume items] := by
  rw [bufferJobs, List.range_succ, List.flatMap_append]
  rfl

theorem length_bufferJobs : (bufferJobs producers items).length = 2 * producers := by
  induction producers with
  | zero => rfl
  | succ n ih =>
    rw [bufferJobs_succ, List.length_append, ih]
    rfl

/-- What comes of adding up over the jobs as one producer and one consumer more come in. -/
theorem sum_bufferJobs {M : Type} [AddCommMonoid M] (f : Job → M) :
    ((bufferJobs (producers + 1) items).map f).sum = ((bufferJobs producers items).map f).sum +
      (f (.produce (producers * items) items) + f (.consume items)) := by
  rw [bufferJobs_succ, List.map_append, List.sum_append]
  simp only [List.map_cons, List.map_nil, List.sum_cons, List.sum_nil, add_zero]

/-- Together the producers put each number below the number of all items once. -/
theorem sum_todo : ((bufferJobs producers items).map Job.todo).sum = Multiset.range (producers * items) := by
  induction producers with
  | zero =>
    rw [Nat.zero_mul]
    rfl
  | succ n ih =>
    have upper : (n + 1) * items = n * items + items := Nat.succ_mul n items
    have last : (Job.produce (n * items) items).todo + (Job.consume items).todo =
        (List.range' (n * items) items : Multiset Nat) := add_zero _
    rw [sum_bufferJobs, ih, last, upper, Multiset.range_add, ← Multiset.coe_range items, Multiset.map_coe,
      List.range'_eq_map_range]

/-- The consumers take as many. -/
theorem sum_wants : ((bufferJobs producers items).map Job.wants).sum = producers * items := by
  induction producers with
  | zero =>
    rw [Nat.zero_mul]
    rfl
  | succ n ih =>
    have last : (Job.produce (n * items) items).wants + (Job.consume items).wants = items := Nat.zero_add items
    rw [sum_bufferJobs, ih, last, Nat.succ_mul]

/-- There is an item for everyone who wants one. -/
theorem even_bufferJobs : ((bufferJobs producers items).map Job.todo).sum.card =
    ((bufferJobs producers items).map Job.wants).sum := by
  rw [sum_todo, sum_wants, Multiset.card_range]

/-- Who has not begun does not rely on the state of the buffer. -/
theorem fits_bufferJobs {j : Job} (hj : j ∈ bufferJobs producers items) (b : Buffer) : j.Fits b := by
  obtain ⟨p, -, hj⟩ := List.mem_flatMap.mp hj
  rcases List.mem_pair.mp hj with rfl | rfl <;> trivial

end

end ObjectGroups.Demo
