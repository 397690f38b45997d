/-
The tasks that have come to a cog.

A cog knows a task by its handle, from the moment the task comes into the
queue for good, unless it is taken back. All of them have been claimed or are
in the queue, and no other task is on the roll. This holds whatever names
threads get: a task that a panic has left in the queue is on the roll as well,
although nobody has been told of it.
-/
import Mathlib.Data.List.Perm.Basic
import ObjectGroups.Proofs.Attendance

namespace ObjectGroups

variable {S A V : Type} {m m' : Machine S A V} {a : Agent} {g : CogId} {c : ContextId}
  {own : Option CogId} {s s' : Stance} {x x' : Cog S A V} {k : TaskId} {move : Action S A V}
  {begun : List TaskId}

open Machine Scheduler

namespace Table

variable {κ α : Type} [DecidableEq κ] {table : Table κ α} {i : κ}

theorem mem_keys : i ∈ keys table ↔ (table.get? i).isSome := by
  induction table with
  | nil => simp [keys]
  | cons e table ih =>
    obtain ⟨j, d⟩ := e
    by_cases h : j = i
    · simp [keys, get?, h]
    · rw [get?, if_neg h, ← ih]
      simp [keys, Ne.symm h]

theorem mem_keys_put {j : κ} (b : α) : j ∈ keys (table.put i b) ↔ j = i ∨ j ∈ keys table := by
  induction table with
  | nil => simp [put, keys]
  | cons e table ih =>
    obtain ⟨l, d⟩ := e
    by_cases h : l = i
    · subst h
      simp [put, keys]
    · simp only [put, if_neg h, keys, List.map_cons, List.mem_cons] at ih ⊢
      rw [ih]
      exact or_left_comm

theorem nodup_put (h : (keys table).Nodup) (b : α) : (keys (table.put i b)).Nodup := by
  induction table with
  | nil => simp [put, keys]
  | cons e table ih =>
    obtain ⟨l, d⟩ := e
    obtain ⟨hl, rest⟩ := List.nodup_cons.mp h
    by_cases hli : l = i
    · subst hli
      simpa [put, keys] using h
    · rw [put, if_neg hli]
      refine List.nodup_cons.mpr ⟨fun hm => ?_, ih rest⟩
      rcases (mem_keys_put b).mp hm with e | hm
      · exact hli e
      · exact hl hm

theorem get?_of_mem {b : α} (h : (keys table).Nodup) (hm : (i, b) ∈ table) : table.get? i = some b := by
  induction table with
  | nil => cases hm
  | cons e table ih =>
    obtain ⟨j, d⟩ := e
    obtain ⟨hj, rest⟩ := List.nodup_cons.mp h
    rcases List.mem_cons.mp hm with e | hm
    · cases e
      simp [get?]
    · have other : j ≠ i := by
        rintro rfl
        exact hj (List.mem_map.mpr ⟨_, hm, rfl⟩)
      rw [get?, if_neg other, ih rest hm]

/-! ## Entries that are counted -/

/-- The keys of the entries that satisfy `p`. -/
def keysWhere (p : α → Bool) (table : Table κ α) : List κ := keys (table.filter fun e => p e.2)

variable {p : α → Bool} {table' : Table κ α}

theorem mem_keysWhere (h : (keys table).Nodup) :
    i ∈ keysWhere p table ↔ ∃ b, table.get? i = some b ∧ p b = true := by
  constructor
  · intro hi
    obtain ⟨e, he, rfl⟩ := List.mem_map.mp hi
    obtain ⟨hm, holds⟩ := List.mem_filter.mp he
    exact ⟨e.2, get?_of_mem h hm, holds⟩
  · rintro ⟨b, hb, holds⟩
    exact List.mem_map.mpr ⟨(i, b), List.mem_filter.mpr ⟨mem_of_get? hb, holds⟩, rfl⟩

omit [DecidableEq κ] in
theorem nodup_keysWhere (h : (keys table).Nodup) : (keysWhere p table).Nodup :=
  h.sublist (List.filter_sublist.map _)

section
variable (h : (keys table).Nodup) (h' : (keys table').Nodup)
include h h'

theorem length_keysWhere_kept (hk : ∀ i, (∃ b, table'.get? i = some b ∧ p b = true) ↔
    ∃ b, table.get? i = some b ∧ p b = true) :
    (keysWhere p table').length = (keysWhere p table).length := by
  have perm : (keysWhere p table').Perm (keysWhere p table) := by
    refine (List.perm_ext_iff_of_nodup (nodup_keysWhere h') (nodup_keysWhere h)).mpr fun i => ?_
    rw [mem_keysWhere h', mem_keysWhere h, hk]
  exact perm.length_eq

theorem length_keysWhere_gained {j : κ} (new : ¬ ∃ b, table.get? j = some b ∧ p b = true)
    (hk : ∀ i, (∃ b, table'.get? i = some b ∧ p b = true) ↔
      i = j ∨ ∃ b, table.get? i = some b ∧ p b = true) :
    (keysWhere p table').length = (keysWhere p table).length + 1 := by
  have distinct : (j :: keysWhere p table).Nodup :=
    List.nodup_cons.mpr ⟨fun hm => new ((mem_keysWhere h).mp hm), nodup_keysWhere h⟩
  have perm : (keysWhere p table').Perm (j :: keysWhere p table) := by
    refine (List.perm_ext_iff_of_nodup (nodup_keysWhere h') distinct).mpr fun i => ?_
    rw [mem_keysWhere h', List.mem_cons, mem_keysWhere h, hk]
  rw [perm.length_eq, List.length_cons]

end

end Table

/-- Only who is between tasks claims one. -/
theorem Stance.claims_of_seat (h : s'.seat? = s.seat?) : s.claims s' = none := by
  cases s with
  | claim => cases s' with
    | body seat =>
      obtain rfl : seat = none := h
      rfl
    | _ => rfl
  | _ => rfl

namespace Machine

/-- All tasks that have come to the cog, of which those in `begun` have been claimed. -/
structure Roll (m : Machine S A V) (g : CogId) (x : Cog S A V) (begun : List TaskId) : Prop where
  tidy : x.scheduler.Tidy begun
  posted : ∀ t ∈ begun ++ x.scheduler.queued, m.Posted t
  distinct : (Table.keys x.scheduler.handles).Nodup
  known {k : TaskId} : (x.scheduler.handles.get? k).isSome ↔ k ∈ begun ++ x.scheduler.queued

end Machine

/-- A deed keeps the roll of its cog. -/
theorem Course.known {y y' : Scheduler S A V} (h : Course a g own y y' s s')
    (hn : (begun ++ y.queued).Nodup) (hl : ∀ k, s.offers g = some k → ∃ q, y.queued = q ++ [k])
    (distinct : (Table.keys y.handles).Nodup)
    (known : ∀ k, (y.handles.get? k).isSome ↔ k ∈ begun ++ y.queued) :
    (Table.keys y'.handles).Nodup ∧ ∀ k, (y'.handles.get? k).isSome ↔
      k ∈ begun ++ (s.claims s').toList ++ y'.queued := by
  -- No task comes or goes.
  have same (hq : begun ++ (s.claims s').toList ++ y'.queued = begun ++ y.queued)
      (hh : y'.handles = y.handles ∨ ∃ i f, y'.handles = y.handles.modify i f) :
      (Table.keys y'.handles).Nodup ∧ ∀ k, (y'.handles.get? k).isSome ↔
        k ∈ begun ++ (s.claims s').toList ++ y'.queued := by
    rw [hq]
    rcases hh with hh | ⟨i, f, hh⟩
    · rw [hh]
      exact ⟨distinct, known⟩
    · rw [hh, Table.keys_modify]
      refine ⟨distinct, fun k => ?_⟩
      rw [← known k, Table.get?_modify]
      split <;> simp
  cases h with
  | rest keeps tasks =>
    exact same (by simp [Stance.claims_of_seat keeps.seat, tasks.queued]) (.inl tasks.handles)
  | @unwind k s _ suspends tasks =>
    have seat : Stance.seat? (.body (some ⟨k, false⟩)) = s.seat? := (Stance.seat_of_suspends suspends).symm
    exact same (by simp [Stance.claims_of_seat seat, tasks.queued]) (.inl tasks.handles)
  | retire _ _ tasks => exact same (by simp [Stance.claims, tasks.queued]) (.inl tasks.handles)
  | enter letter keeps enters =>
    rw [enters.handles]
    refine ⟨Table.nodup_put distinct _, fun k => ?_⟩
    rw [Table.get?_put, Stance.claims_of_seat keeps.seat, enters.queued]
    have old := known k
    split
    · next e => simp [e]
    · next e => simpa [e] using old
  | @withdraw _ _ i offers keeps withdraws =>
    obtain ⟨q, before⟩ := hl i offers
    rw [withdraws.handles]
    refine ⟨Table.nodup_remove distinct, fun k => ?_⟩
    have after : y'.queued = q := by rw [withdraws.queued, before, List.dropLast_concat]
    have old := known k
    rw [before, ← List.append_assoc] at hn old
    rw [Table.get?_remove, Stance.claims_of_seat keeps.seat, after]
    have absent : i ∉ begun ++ q := by
      intro hm
      exact (List.nodup_append.mp hn).2.2 i hm i (by simp) rfl
    split
    · next e => simpa [e] using absent
    · next e => simpa [e] using old
  | start now _ _ hq hm =>
    exact same (by simp [Stance.claims, hq]) (.inr ⟨_, _, hm.handles⟩)
  | suspend label _ _ hq _ hm => exact same (by simp [Stance.claims, hq]) (.inr ⟨_, _, hm.handles⟩)
  | prepare _ hq _ hh => exact same (by simp [Stance.claims, hq]) (.inl hh)
  | resume now _ _ hq hm => exact same (by simp [Stance.claims, hq]) (.inr ⟨_, _, hm.handles⟩)
  | complete _ hq he => exact same (by simp [Stance.claims, hq]) (.inr ⟨_, _, he.handles⟩)
  | abort _ _ hq hst he =>
    refine same ?_ (.inr ⟨_, _, he.handles⟩)
    rcases hst with rfl | rfl <;> simp [Stance.claims, hq]
  | strand _ _ hq he => exact same (by simp [Stance.claims, hq]) (.inr ⟨_, _, he.handles⟩)
  | fade _ _ _ tasks => exact same (by simp [Stance.claims, tasks.queued]) (.inl tasks.handles)

namespace Machine.Roll

section
variable (h : m.Roll g x begun) (ho : m.Ordered) (ha : m.act move = some m')
include h ho ha

theorem deed {loud : Bool} (hf : m.Filed g x) (blank : m.Blank) (ht : Turns m a own s s' m')
    (hw : Works m g x x' m') (hd : Deed g a own loud s x s' x') :
    m'.Roll g x' (begun ++ (s.claims s').toList) := by
  have shift := shift_act ho ha
  have course := hf.course ho ht blank ha hw hd
  have last {k : TaskId} (hk : s.offers g = some k) := hf.offers_last ht hk
  have old (t : TaskId) (ht : t ∈ begun ++ x.scheduler.queued) : m'.Posted t := (h.posted t ht).kept shift
  obtain ⟨distinct, known⟩ :=
    course.known h.tidy.nodup (fun k hk => last hk) h.distinct fun k => h.known
  constructor
  case tidy =>
    refine hd.tidy h.tidy (fun _ k active hk => (ho.hosted_apart ht hw.before ht.before hk).2)
      (fun seat view e => ⟨fun hm => ?_, (blank a own seat g view (e ▸ ht.before)).1⟩) fun k hk => last hk
    exact (h.posted _ hm).arrived a own s ht.before (by rw [e]; rfl)
  case posted =>
    have entered {k : TaskId} (hk : s.letter? = some k) (hk' : s'.letter? = none) (hc : s.claims s' = none)
        (hq : x'.scheduler.queued = x.scheduler.queued ++ [k]) :
        ∀ t ∈ begun ++ (s.claims s').toList ++ x'.scheduler.queued, m'.Posted t := by
      intro t hm
      simp only [hc, hq, Option.toList_none, List.append_nil, ← List.append_assoc] at hm
      rcases List.mem_append.mp hm with hm | hm
      · exact old t hm
      · rw [List.mem_singleton.mp hm]
        exact ho.posted shift ht hk hk'
    cases hd.queues with
    | same _ _ _ hc hq => exact fun t hm => old t (by simpa [hc, hq] using hm)
    | take c k _ _ _ _ _ hc hq => exact fun t hm => old t (by simpa [hc, hq] using hm)
    | offer k _ _ hk hk' _ _ hc hq => exact entered hk hk' hc hq
    | accept k _ _ hk hk' _ hc hq => exact entered hk hk' hc hq
    | withdraw k _ _ _ hc hq =>
      intro t hm
      refine old t ?_
      simp only [hc, hq, Option.toList_none, List.append_nil, List.mem_append] at hm ⊢
      exact hm.imp_right fun hm => List.dropLast_subset _ hm
    | forsake hs hs' _ hx =>
      intro t hm
      rw [hs, hs', hx] at hm
      exact old t (by simpa [Stance.claims] using hm)
  case distinct => exact distinct
  case known => exact fun {k} => known k

theorem same (hr : x'.scheduler.records = x.scheduler.records)
    (hh : x'.scheduler.handles = x.scheduler.handles) (hq : x'.scheduler.queue = x.scheduler.queue) :
    m'.Roll g x' begun := by
  have queued : x'.scheduler.queued = x.scheduler.queued := congrArg (List.map _) hq
  constructor
  case tidy => exact h.tidy.same hr hq
  case posted =>
    rw [queued]
    exact fun t hm => (h.posted t hm).kept (shift_act ho ha)
  case distinct => exact hh ▸ h.distinct
  case known =>
    rw [hh, queued]
    exact h.known

end

theorem founded (hs : x.scheduler = {}) : m.Roll g x [] where
  tidy := hs ▸ .start
  posted := by simp [hs, Scheduler.queued]
  distinct := by simp [hs, Table.keys]
  known := by simp [hs, Scheduler.queued]

/-- The record of a task in the queue says that it is queued. -/
theorem state_of_queued (h : m.Roll g x begun) (hk : k ∈ x.scheduler.queued) {record : TaskRecord}
    (hr : x.scheduler.records.get? k = some record) : record.view.state = .queued := by
  obtain ⟨other, hm, state⟩ := mem_unstarted.mp (h.tidy.queued ▸ hk)
  rw [Table.unique h.tidy.distinct (Table.mem_of_get? hr) hm]
  exact state

/-- A task that is on its way into a queue has no record yet. -/
theorem not_recorded (h : m.Roll g x begun) (hl : m.look a = some (own, s)) (hk : s.letter? = some k) :
    x.scheduler.records.get? k = none := by
  rw [Option.eq_none_iff_forall_ne_some]
  intro record hr
  exact (h.posted k (h.tidy.known _ (Table.mem_of_get? hr))).arrived a own s hl hk

end Machine.Roll

/-- In every run, a cog keeps its roll. -/
theorem History.roll {moves : List (Move S A V)} {r : Registry} {memory : A}
    (h : History (.empty r memory) moves m) :
    (m.cogs.get? g = none → claimed g moves = []) ∧
      ∀ {x : Cog S A V}, m.cogs.get? g = some x → m.Roll g x (claimed g moves) := by
  induction h with
  | refl => exact ⟨fun _ => rfl, by intro x hx; cases hx⟩
  | @act moves m m' move h ha ih =>
    have ho : m.Ordered := h.reachable.ordered
    obtain ⟨none, some⟩ := ih
    rw [claimed_snoc]
    have works {x x' : Cog S A V} {begun' : List TaskId} (hw : Works m g x x' m')
        (hx : m'.Roll g x' begun') :
        (m'.cogs.get? g = .none → begun' = []) ∧
          ∀ {x : Cog S A V}, m'.cogs.get? g = .some x → m'.Roll g x begun' := by
      have there := hw.here
      refine ⟨fun absent => ?_, fun hy => ?_⟩
      · cases there.symm.trans absent
      · cases there.symm.trans hy
        exact hx
    have shift := shift_act ho ha
    generalize hact : move.actor? = actor at shift
    cases shift.vantage ho g with
    | aside hb hx =>
      obtain ⟨-, idle⟩ := Beside.silent (v := ⟨m, move, m'⟩) (g := g) hb
      rw [idle]
      simp only [Option.map_none, Option.toList_none, List.append_nil]
      rcases hx with ⟨absent, new⟩ | ⟨x, x', hx, hx', same, -⟩
      · rw [none absent]
        exact ⟨fun _ => rfl, fun hy => .founded (new _ hy).1⟩
      · refine ⟨fun absent => ?_, fun hy => ?_⟩
        · cases hx'.symm.trans absent
        · cases hx'.symm.trans hy
          exact (some hx).same ho ha (by rw [same]) (by rw [same]) (by rw [same])
    | @deed a own loud s s' x x' ht hw hd =>
      rw [hd.claimed_task hact ht]
      exact works hw ((some hw.before).deed ho ha (h.reachable.filed hw.before) h.reachable.blank ht hw hd)
    | grant hb hw hg =>
      rw [(hg.silent hact hb).2]
      simp only [Option.map_none, Option.toList_none, List.append_nil]
      refine works hw ((some hw.before).same ho ha ?_ ?_ ?_) <;> cases hg <;> rfl

end ObjectGroups
