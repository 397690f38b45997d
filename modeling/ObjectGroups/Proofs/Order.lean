/-
What holds of threads, cogs and tasks whenever no step is under way.

`Ordered` ties the stance of each thread to the books of its cog. Whoever is
between receiving the slot and giving it up is the active context there, and
the task it hosts is the active task. A lock names its holder, and the holder
knows; who holds it to hand the slot to a new context finds the slot free. A
task is at one place only: hosted by a thread, on its way into a queue, or in
one. Numbers that come next have not been given out.
-/
import ObjectGroups.Proofs.Books
import ObjectGroups.Proofs.Stance

namespace ObjectGroups

variable {S A V : Type}

/-- Whether a thread in this stance works for a cog. -/
def Stance.hosts (s : Stance) : Bool := s = .claim || s.seat?.isSome

@[simp] theorem Stance.hosts_restage (s : Stance) (stage : Stage) :
    (s.restage stage).hosts = s.hosts := by
  cases s <;> simp [hosts, restage, seat?]

/-- Where an unfinished task can be. -/
inductive Berth where
  /-- Hosted by a thread. -/
  | seat (a : Agent)
  /-- About to be put into a queue by a thread. -/
  | letter (a : Agent)
  | queue (g : CogId)
deriving DecidableEq

namespace Machine

/-- Whether the task is there. -/
def Berthed (m : Machine S A V) (t : TaskId) : Berth → Prop
  | .seat a => ∃ own s active, m.look a = some (own, s) ∧ s.seat? = some ⟨t, active⟩
  | .letter a => ∃ own s, m.look a = some (own, s) ∧ s.letter? = some t
  | .queue g => ∃ x, m.cogs.get? g = some x ∧ t ∈ x.scheduler.queued

structure Ordered (m : Machine S A V) : Prop where
  /-- Only contexts work for cogs, and for cogs that are there. -/
  home {a : Agent} {g : CogId} {s : Stance} : m.look a = some (some g, s) →
    (∃ c, a = .context c) ∧ ∃ x, m.cogs.get? g = some x
  /-- A thread without a cog has no task. -/
  alone {a : Agent} {s : Stance} : m.look a = some (none, s) → s.hosts = false
  /-- Who has received the slot and not given it up is active. -/
  holder {c : ContextId} {g : CogId} {s : Stance} {x : Cog S A V} :
    m.look (.context c) = some (some g, s) → m.cogs.get? g = some x → s.slot = true →
      x.scheduler.active = some c ∧
        ∀ t, s.seat? = some ⟨t, true⟩ → x.scheduler.activeTask = some t
  /-- Who is in the middle of a critical section holds the lock. -/
  locks {a : Agent} {own : Option CogId} {s : Stance} {g : CogId} :
    m.look a = some (own, s) → s.lock own = some g →
      ∃ x, m.cogs.get? g = some x ∧ x.lock = some a ∧
        (s.grants = true → x.scheduler.active = none)
  /-- A lock is held by a thread in the middle of a critical section. -/
  locker {g : CogId} {x : Cog S A V} {a : Agent} :
    m.cogs.get? g = some x → x.lock = some a →
      ∃ own s, m.look a = some (own, s) ∧ s.lock own = some g
  berth {t : TaskId} {p q : Berth} : m.Berthed t p → m.Berthed t q → p = q
  queued {g : CogId} {x : Cog S A V} : m.cogs.get? g = some x → x.scheduler.queued.Nodup
  newTask {t : TaskId} {p : Berth} : m.Berthed t p → t.val < m.nextTask.val
  newContext {c : ContextId} : (m.look (.context c)).isSome → c.val < m.registry.nextContext.val
  /-- The context a thread is about to start is nobody else's and has no thread yet. -/
  newcomer {a : Agent} {own : Option CogId} {s : Stance} {c : ContextId} :
    m.look a = some (own, s) → s.newcomer? = some c →
      c.val < m.registry.nextContext.val ∧ m.look (.context c) = none ∧
        ∀ b own' s', m.look b = some (own', s') → s'.newcomer? = some c → b = a
  newCaller {n : Nat} : (m.look (.caller n)).isSome → n < m.nextCaller
  newCog {g : CogId} : (m.cogs.get? g).isSome → g.val < m.nextCog

/-- A thread that hosts a task or is between tasks is that of a context, for a cog. -/
theorem Ordered.home_of_hosts {m : Machine S A V} (ho : m.Ordered) {a : Agent} {own : Option CogId} {s : Stance}
    (hl : m.look a = some (own, s)) (hs : s.hosts = true) :
    ∃ g c x, own = some g ∧ a = .context c ∧ m.cogs.get? g = some x := by
  cases own with
  | none => cases (ho.alone hl).symm.trans hs
  | some g =>
    obtain ⟨⟨c, rfl⟩, x, hx⟩ := ho.home hl
    exact ⟨g, c, x, rfl, rfl, hx⟩

/-- The context that is about to be launched has no thread yet. -/
theorem Ordered.unlaunched {m : Machine S A V} (ho : m.Ordered) {a : Agent} {own : Option CogId} {s : Stance}
    {c : ContextId} (hl : m.look a = some (own, s)) (hs : s.stage? = some (.launch c)) :
    m.look (.context c) = none :=
  (ho.newcomer hl (by simp [Stance.newcomer?, hs])).2.1

theorem ordered_empty (r : Registry) (memory : A) :
    (Machine.empty r memory : Machine S A V).Ordered := by
  have look_none (a : Agent) : (Machine.empty r memory : Machine S A V).look a = none := rfl
  have cog_none (g : CogId) : (Machine.empty r memory : Machine S A V).cogs.get? g = none := rfl
  have berth_none (t : TaskId) (p : Berth) :
      ¬ (Machine.empty r memory : Machine S A V).Berthed t p := by
    cases p <;> simp [Berthed, look_none, cog_none]
  exact
    { home := fun h => by simp [look_none] at h
      alone := fun h => by simp [look_none] at h
      holder := fun h => by simp [look_none] at h
      locks := fun h => by simp [look_none] at h
      locker := fun h => by simp [cog_none] at h
      berth := fun h => absurd h (berth_none _ _)
      queued := fun h => by simp [cog_none] at h
      newTask := fun h => absurd h (berth_none _ _)
      newContext := fun h => by simp [look_none] at h
      newcomer := fun h => by simp [look_none] at h
      newCaller := fun h => by simp [look_none] at h
      newCog := fun h => by simp [cog_none] at h }

end Machine

end ObjectGroups
