/-
The items of the bounded buffer, and where they are.

An item is still to be put, lies in the buffer or has been taken, and the
tasks want as many as have not been taken: awaits change nothing about that,
and work on the buffer moves one item on. So tasks that are to put as many
items as others are to take cannot all be waiting: if the buffer is full then
nobody wants an item, although one is there, and if it is empty and nobody has
an item to put then all have been taken.
-/
import ObjectGroups.Proofs.Jobs

namespace ObjectGroups.Demo

/-- The items when the tasks `ts` have come in, of which `J` tells where they stand, and `taken`
have been taken, in this order. The first job is that of the first task, and so on. -/
structure Stock (jobs : List Job) (ts : List TaskId) (J : TaskId → Job) (taken : List Nat) (b : Buffer) :
    Prop where
  items : (taken : Multiset Nat) + b.slots + (ts.map fun t => (J t).todo).sum =
    ((jobs.take ts.length).map Job.todo).sum
  demand : taken.length + (ts.map fun t => (J t).wants).sum = ((jobs.take ts.length).map Job.wants).sum
  consumed : b.consumed = taken.length
  checksum : b.checksum = taken.sum
  room : b.slots.length ≤ b.capacity
  few : ts.length ≤ jobs.length

variable {jobs : List Job} {ts : List TaskId} {J : TaskId → Job} {taken : List Nat} {b : Buffer}
  {t : TaskId} {j j' : Job} {q : Guard Holding} {f : Buffer → Buffer}

/-! ## Sums over the tasks -/

/-- Tasks that do not move do not matter. -/
theorem map_update {M : Type} (f : Job → M) (ht : t ∉ ts) (J : TaskId → Job) (j : Job) :
    (ts.map fun k => f (Function.update J t j k)) = ts.map fun k => f (J k) :=
  List.map_congr_left fun k hk => by rw [Function.update_of_ne (by rintro rfl; exact ht hk)]

/-- The sum goes from the old to the new value of the task that moves. -/
theorem sum_update {M : Type} [AddCommMonoid M] (f : Job → M) (distinct : ts.Nodup) (ht : t ∈ ts)
    (J : TaskId → Job) (j : Job) :
    ∃ others, (ts.map fun k => f (J k)).sum = f (J t) + others ∧
      (ts.map fun k => f (Function.update J t j k)).sum = f j + others := by
  refine ⟨((ts.erase t).map fun k => f (J k)).sum, (List.sum_map_erase _ ht).symm, ?_⟩
  rw [← List.sum_map_erase _ ht, Function.update_self]
  congr 2
  refine List.map_congr_left fun k hk => ?_
  rw [Function.update_of_ne (distinct.mem_erase_iff.mp hk).1]

namespace Stock

/-- Before the first task comes in there is nothing. -/
theorem start (jobs : List Job) (J : TaskId → Job) (capacity : Nat) :
    Stock jobs [] J [] { capacity } where
  items := by simp
  demand := by simp
  consumed := rfl
  checksum := rfl
  room := Nat.zero_le _
  few := Nat.zero_le _

section
variable (h : Stock jobs ts J taken b)
include h

theorem enlist (new : t ∉ ts) (hj : jobs[ts.length]? = some j) :
    Stock jobs (ts ++ [t]) (Function.update J t j) taken b := by
  have next : jobs.take (ts ++ [t]).length = jobs.take ts.length ++ [j] := by
    rw [List.length_append, List.length_singleton, List.take_add_one, hj]
    rfl
  constructor
  case items =>
    simp only [next, List.map_append, List.sum_append, map_update _ new, ← h.items]
    simp [add_assoc]
  case demand =>
    simp only [next, List.map_append, List.sum_append, map_update _ new, ← h.demand]
    simp [add_assoc]
  case consumed => exact h.consumed
  case checksum => exact h.checksum
  case room => exact h.room
  case few =>
    obtain ⟨inside, -⟩ := List.getElem?_eq_some_iff.mp hj
    rw [List.length_append, List.length_singleton]
    exact inside

/-- An await moves no item. -/
theorem await (hj : (J t).Awaits q j') : Stock jobs ts (Function.update J t j') taken b := by
  have todo : (fun k => (Function.update J t j' k).todo) = fun k => (J k).todo := by
    funext k
    by_cases hk : k = t
    · rw [hk, Function.update_self, hj.todo]
    · rw [Function.update_of_ne hk]
  have wants : (fun k => (Function.update J t j' k).wants) = fun k => (J k).wants := by
    funext k
    by_cases hk : k = t
    · rw [hk, Function.update_self, hj.wants]
    · rw [Function.update_of_ne hk]
  exact { h with items := todo ▸ h.items, demand := wants ▸ h.demand }

end

end Stock

/-- The item that has gone out of the buffer, if one has. -/
def Buffer.popped? (b b' : Buffer) : Option Nat :=
  match b.slots with
  | [] => none
  | item :: rest => if b'.slots = rest then some item else none

theorem Buffer.popped?_eq_none (b b' : Buffer) (h : b.slots.length ≤ b'.slots.length) : b.popped? b' = none := by
  unfold popped?
  split
  · rfl
  · next item rest e =>
    refine if_neg fun e' => ?_
    rw [e, e', List.length_cons] at h
    omega

namespace Stock

section
variable (h : Stock jobs ts J taken b) (distinct : ts.Nodup) (ht : t ∈ ts)
include h distinct ht

/-- Work on the buffer moves an item on. -/
theorem work (hj : (J t).Works f j') (fits : (J t).Fits b) :
    Stock jobs ts (Function.update J t j') (taken ++ (b.popped? (f b)).toList) (f b) := by
  obtain ⟨todo, before, after⟩ := sum_update Job.todo distinct ht J j'
  obtain ⟨wants, before', after'⟩ := sum_update Job.wants distinct ht J j'
  have items := h.items
  have demand := h.demand
  rw [before] at items
  rw [before'] at demand
  cases hj.effect fits with
  | put item free hb htodo hwants =>
    have none : b.popped? (f b) = none := Buffer.popped?_eq_none b _ (by simp [hb])
    rw [none, Option.toList_none, List.append_nil]
    constructor
    case items =>
      rw [after, ← items, htodo, hb, ← Multiset.coe_add, ← Multiset.singleton_add item j'.todo,
        Multiset.coe_singleton]
      simp only [add_assoc]
    case demand => rw [after', ← demand, hwants]
    case consumed => rw [hb, ← h.consumed]
    case checksum => rw [hb, ← h.checksum]
    case room => simpa [hb] using Nat.succ_le_of_lt free
    case few => exact h.few
  | take item rest hs hb htodo hwants =>
    have some : b.popped? (f b) = some item := by simp [Buffer.popped?, hs, hb]
    rw [some, Option.toList_some]
    constructor
    case items =>
      rw [after, ← items, htodo, hb, hs, ← Multiset.coe_add, Multiset.coe_singleton,
        ← Multiset.cons_coe item rest, ← Multiset.singleton_add item]
      simp only [add_assoc]
    case demand =>
      rw [after', ← demand, hwants, List.length_append, List.length_singleton]
      omega
    case consumed => rw [hb, List.length_append, h.consumed, List.length_singleton]
    case checksum => simp [hb, h.checksum]
    case room =>
      have room := h.room
      rw [hs, List.length_cons] at room
      rw [hb]
      exact Nat.le_of_succ_le room
    case few => exact h.few

end

/-! ## When there is nothing left to do -/

section
variable (h : Stock jobs ts J taken b) (all : ts.length = jobs.length)
include h all

theorem items_all : (taken : Multiset Nat) + b.slots + (ts.map fun t => (J t).todo).sum =
    (jobs.map Job.todo).sum := by
  rw [h.items, all, List.take_length]

theorem demand_all : taken.length + (ts.map fun t => (J t).wants).sum = (jobs.map Job.wants).sum := by
  rw [h.demand, all, List.take_length]

variable (even : (jobs.map Job.todo).sum.card = (jobs.map Job.wants).sum)
include even

/-- If nobody wants an item then there is none. -/
theorem nothing_left (wants : ∀ t ∈ ts, (J t).wants = 0) : b.slots = [] ∧
    (ts.map fun t => (J t).todo).sum = 0 := by
  have none : (ts.map fun t => (J t).wants).sum = 0 := by
    refine List.sum_eq_zero fun n hn => ?_
    obtain ⟨t, ht, rfl⟩ := List.mem_map.mp hn
    exact wants t ht
  have demand := h.demand_all all
  have count := congrArg Multiset.card (h.items_all all)
  rw [Multiset.card_add, Multiset.card_add, Multiset.coe_card, Multiset.coe_card, even, ← demand, none] at count
  exact ⟨List.length_eq_zero_iff.mp (by omega), Multiset.card_eq_zero.mp (by omega)⟩

/-- If there is no item, neither in the buffer nor to be put, then nobody wants one. -/
theorem nobody_wants (empty : b.slots = []) (todo : ∀ t ∈ ts, (J t).todo = 0) : ∀ t ∈ ts, (J t).wants = 0 := by
  have none : (ts.map fun t => (J t).todo).sum = 0 := by
    refine List.sum_eq_zero fun n hn => ?_
    obtain ⟨t, ht, rfl⟩ := List.mem_map.mp hn
    exact todo t ht
  have demand := h.demand_all all
  have count := congrArg Multiset.card (h.items_all all)
  rw [Multiset.card_add, Multiset.card_add, Multiset.coe_card, Multiset.coe_card, even, ← demand, none, empty] at count
  have sum : (ts.map fun t => (J t).wants).sum = 0 := by simpa using count
  intro t ht
  have part := List.sum_map_erase (fun t => (J t).wants) ht
  omega

/-- Tasks that all wait for a guard that is false, or have nothing to do, have nothing to do. -/
theorem spent_of_stuck (places : 0 < b.capacity) {v : Sight}
    (stuck : ∀ t ∈ ts, (J t).Spent ∨ ∃ q j', (J t).Awaits q j' ∧ q.poll v (.buffer b) = .ok false) :
    ∀ t ∈ ts, (J t).Spent := by
  by_cases empty : b.slots = []
  · -- There is a free place, so nobody waits to put an item.
    have todo : ∀ t ∈ ts, (J t).todo = 0 := by
      intro t ht
      rcases stuck t ht with spent | ⟨q, j', awaits, refused⟩
      · exact spent.1
      · generalize J t = j at awaits
        cases awaits with
        | notFull first n =>
          have full : (.ok (!b.full) : Answer) = .ok false := refused
          simp [Buffer.full, empty] at full
          omega
        | notEmpty n => rfl
    exact fun t ht => ⟨todo t ht, h.nobody_wants all even empty todo t ht⟩
  · -- There is an item, so nobody waits to take one.
    have wants : ∀ t ∈ ts, (J t).wants = 0 := by
      intro t ht
      rcases stuck t ht with spent | ⟨q, j', awaits, refused⟩
      · exact spent.2
      · generalize J t = j at awaits
        cases awaits with
        | notFull first n => rfl
        | notEmpty n =>
          have none : (.ok (!b.slots.isEmpty) : Answer) = .ok false := refused
          simp [empty] at none
    exact absurd (h.nothing_left all even wants).1 empty

/-- When all tasks are done, what they were to put has been taken. -/
theorem taken_eq (spent : ∀ t ∈ ts, (J t).Spent) : (taken : Multiset Nat) = (jobs.map Job.todo).sum := by
  obtain ⟨empty, todo⟩ := h.nothing_left all even fun t ht => (spent t ht).2
  have items := h.items_all all
  rw [empty, todo] at items
  simpa using items

end

/-- Nothing has been taken that nobody was to put. -/
theorem taken_le (h : Stock jobs ts J taken b) : (taken : Multiset Nat) ≤ (jobs.map Job.todo).sum := by
  have parts : (jobs.map Job.todo).sum = ((jobs.take ts.length).map Job.todo).sum +
      ((jobs.drop ts.length).map Job.todo).sum := by
    rw [← List.sum_append, ← List.map_append, List.take_append_drop]
  rw [parts, ← h.items, add_assoc, add_assoc]
  exact Multiset.le_add_right ..

end Stock

/-! ## Numbers -/

section
variable {n : Nat}

theorem sum_range (n : Nat) : (Multiset.range n).sum = n * (n - 1) / 2 := by
  rw [← Finset.sum_range_id n, Finset.sum, Multiset.map_id', Finset.range_val]

/-- Some of the numbers below `n`, each at most once, sum up to at most what they all do. -/
theorem sum_le (h : (taken : Multiset Nat) ≤ Multiset.range n) : taken.sum ≤ n * (n - 1) / 2 := by
  obtain ⟨rest, e⟩ := Multiset.le_iff_exists_add.mp h
  rw [← sum_range, e, Multiset.sum_add, Multiset.sum_coe]
  exact Nat.le_add_right ..

/-- What the buffer has counted when all numbers below `n` have been taken from it. -/
theorem Stock.counts (h : Stock jobs ts J taken b) (e : (taken : Multiset Nat) = Multiset.range n) :
    b.consumed = n ∧ b.checksum = n * (n - 1) / 2 := by
  have count := congrArg Multiset.card e
  have sum := congrArg Multiset.sum e
  rw [Multiset.coe_card, Multiset.card_range] at count
  rw [Multiset.sum_coe, sum_range] at sum
  exact ⟨h.consumed.trans count, h.checksum.trans sum⟩

/-- Numbers of items that fit a half word can be added up in a word. -/
theorem triangle_lt (few : n < 2 ^ 32) : n * (n - 1) < Word.size := by
  have square : n * (n - 1) < 2 ^ 32 * 2 ^ 32 := Nat.mul_lt_mul'' few (by omega)
  have words : Word.size = 2 ^ 32 * 2 ^ 32 := by decide
  rwa [words]

theorem Buffer.audit_eq_none (hc : b.consumed = n) (hs : b.checksum = n * (n - 1) / 2) : b.audit n = none := by
  simp [audit, hc, hs]

end

end ObjectGroups.Demo
