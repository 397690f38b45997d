/-
What each part of a step does to the threads and the cogs of the machine, and
what it leaves alone.

A notification touches the threads alone, of these only the ones that sleep on
its channel, and of these only the flag that tells them to look again
(`Thread.rouse`). A broadcast is one notification of the slot's channel and
one permit for each waiter; `Thread.hears` tells whom it reaches.
-/
import ObjectGroups.Machine.Run

namespace ObjectGroups

variable {S A V : Type}

def Thread.rouse (t : Thread S A V) : Thread S A V := { t with control := t.control.rouse }

@[simp] theorem Thread.rouse_cog (t : Thread S A V) : t.rouse.cog = t.cog := rfl

@[simp] theorem Thread.rouse_control (t : Thread S A V) : t.rouse.control = t.control.rouse := rfl

@[simp] theorem Sleep.notify_notify (s : Sleep) : s.notify.notify = s.notify := by
  cases s <;> rfl

@[simp] theorem Wait.notify_notify (w : Wait S) : w.notify.notify = w.notify := by
  obtain ⟨point, frames⟩ := w
  cases point <;> simp [Wait.notify]

@[simp] theorem Control.rouse_rouse (c : Control S A V) : c.rouse.rouse = c.rouse := by
  cases c with
  | awaiting a p => cases p <;> simp [Control.rouse]
  | _ => simp [Control.rouse]

@[simp] theorem Thread.rouse_rouse (t : Thread S A V) : t.rouse.rouse = t.rouse := by
  simp [Thread.rouse]

/-- A notified thread still sleeps on what it slept on; only it may go on now. -/
@[simp] theorem Thread.sleepsOn_rouse (a : Agent) (t : Thread S A V) (ch : Channel) :
    t.rouse.sleepsOn a ch = t.sleepsOn a ch := by
  obtain ⟨cog, c⟩ := t
  cases c with
  | awaiting aw p => cases p <;> rfl
  | _ => rfl

/-- Whether a broadcast in the scheduler of the cog `g`, with the waiters `ws`, reaches the
thread `a`. -/
def Thread.hears (g : CogId) (ws : List ContextId) (a : Agent) (t : Thread S A V) : Bool :=
  t.sleepsOn a (.slot g) || ws.any fun c => t.sleepsOn a (.parker (.own c))

namespace Machine

variable (m : Machine S A V) (a b : Agent) (g h : CogId)

/-! ## Threads -/

theorem thread_setControl (c : Control S A V) :
    (m.setControl a c).threads.get? b =
      if b = a then (m.threads.get? a).map fun t => { t with control := c }
      else m.threads.get? b := by
  simp only [setControl, Table.get?_modify]
  split
  · next e => rw [e]
  · rfl

theorem thread_notifyAll (ch : Channel) :
    (m.notifyAll ch).threads.get? b =
      (m.threads.get? b).map fun t => if t.sleepsOn b ch then t.rouse else t :=
  Table.get?_map m.threads (fun a t => if t.sleepsOn a ch then t.rouse else t) b

theorem thread_unpark (p : ParkerId) :
    (m.unpark p).threads.get? b =
      (m.threads.get? b).map fun t => if t.sleepsOn b (.parker p) then t.rouse else t :=
  thread_notifyAll _ b _

theorem thread_interruptParker (p : ParkerId) :
    (m.interruptParker p).threads.get? b =
      (m.threads.get? b).map fun t => if t.sleepsOn b (.parker p) then t.rouse else t :=
  thread_notifyAll _ b _

theorem thread_unparks (ws : List ContextId) :
    (ws.foldl (fun m c => m.unpark (.own c)) m).threads.get? b =
      (m.threads.get? b).map fun t =>
        if ws.any fun c => t.sleepsOn b (.parker (.own c)) then t.rouse else t := by
  induction ws generalizing m with
  | nil => simp
  | cons c ws ih =>
    rw [List.foldl_cons, ih, thread_unpark, Option.map_map]
    congr 1
    funext t
    by_cases hc : t.sleepsOn b (.parker (.own c)) <;> simp [hc]

theorem thread_broadcast {x : Cog S A V} (hx : m.cogs.get? g = some x) :
    (m.broadcast g).threads.get? b =
      (m.threads.get? b).map fun t => if t.hears g x.scheduler.waiters b then t.rouse else t := by
  simp only [broadcast, hx]
  rw [thread_unparks, thread_notifyAll, Option.map_map]
  congr 1
  funext t
  by_cases hc : t.sleepsOn b (.slot g) <;> simp [hc, Thread.hears]

@[simp] theorem threads_deliver (n : Notice) : (m.deliver g n).threads = m.threads := by
  unfold deliver
  split <;> rfl

theorem thread_strike (c : ContextId) :
    (m.strike c).threads.get? b =
      (m.threads.get? b).map fun t =>
        if (m.registry.strike c).live.isEmpty && t.sleepsOn b .idle then t.rouse else t := by
  unfold strike
  by_cases hc : (m.registry.strike c).live.isEmpty
  · simp [hc, thread_notifyAll]
  · simp [hc]

/-- What happens to a thread that does nothing itself: at most it is notified. -/
def Stirred (m m' : Machine S A V) (b : Agent) : Prop :=
  ∃ p : Bool, m'.threads.get? b = (m.threads.get? b).map fun t => if p then t.rouse else t

namespace Stirred

variable {m a b g} {m' m'' : Machine S A V}

theorem of_map {p : Thread S A V → Bool}
    (h : m'.threads.get? b = (m.threads.get? b).map fun t => if p t then t.rouse else t) :
    Stirred m m' b := by
  cases ht : m.threads.get? b with
  | none => exact ⟨false, by simp [h, ht]⟩
  | some t => exact ⟨p t, by simp [h, ht]⟩

theorem same (h : m'.threads = m.threads) : Stirred m m' b := ⟨false, by simp [h]⟩

theorem trans (h : Stirred m m' b) (h' : Stirred m' m'' b) : Stirred m m'' b := by
  obtain ⟨p, hp⟩ := h
  obtain ⟨q, hq⟩ := h'
  refine ⟨p || q, ?_⟩
  rw [hq, hp, Option.map_map]
  congr 1
  funext t
  cases p <;> cases q <;> simp

theorem setControl {c : Control S A V} (hb : b ≠ a) (h : Stirred m m' b) :
    Stirred m (m'.setControl a c) b :=
  h.trans ⟨false, by simp [thread_setControl, hb]⟩

theorem notifyAll {ch : Channel} (h : Stirred m m' b) : Stirred m (m'.notifyAll ch) b :=
  h.trans (.of_map (thread_notifyAll m' b ch))

theorem unpark {p : ParkerId} (h : Stirred m m' b) : Stirred m (m'.unpark p) b :=
  h.trans (.of_map (thread_unpark m' b p))

theorem interruptParker {p : ParkerId} (h : Stirred m m' b) : Stirred m (m'.interruptParker p) b :=
  h.trans (.of_map (thread_interruptParker m' b p))

theorem broadcast (h : Stirred m m' b) : Stirred m (m'.broadcast g) b := by
  cases hx : m'.cogs.get? g with
  | none => simpa [Machine.broadcast, hx] using h
  | some x => exact h.trans (.of_map (thread_broadcast m' b g hx))

theorem strike {c : ContextId} (h : Stirred m m' b) : Stirred m (m'.strike c) b :=
  h.trans (.of_map (thread_strike m' b c))

end Stirred

/-! ## Cogs -/

@[simp] theorem cogs_setControl (c : Control S A V) : (m.setControl a c).cogs = m.cogs := rfl

@[simp] theorem cogs_notifyAll (ch : Channel) : (m.notifyAll ch).cogs = m.cogs := rfl

theorem cog_onCog (f : Cog S A V → Cog S A V) :
    (m.onCog g f).cogs.get? h = if h = g then (m.cogs.get? h).map f else m.cogs.get? h :=
  Table.get?_modify m.cogs g h f

theorem cog_onCog_self {x : Cog S A V} (f : Cog S A V → Cog S A V) (hx : m.cogs.get? g = some x) :
    (m.onCog g f).cogs.get? g = some (f x) := by
  simp [cog_onCog, hx]

/-- A broadcast reaches threads and parkers, and nothing else. -/
theorem broadcast_eq : ∃ threads parkers, m.broadcast g = { m with threads, parkers } := by
  have unparks (ws : List ContextId) (m₁ : Machine S A V) :
      ∃ threads parkers, ws.foldl (fun m c => m.unpark (.own c)) m₁ = { m₁ with threads, parkers } := by
    induction ws generalizing m₁ with
    | nil => exact ⟨_, _, rfl⟩
    | cons c ws ih =>
      obtain ⟨threads, parkers, h⟩ := ih (m₁.unpark (.own c))
      exact ⟨threads, parkers, h⟩
  unfold broadcast
  split
  · next x _ =>
    obtain ⟨threads, parkers, h⟩ := unparks x.scheduler.waiters (m.notifyAll (.slot g))
    exact ⟨threads, parkers, h⟩
  · exact ⟨_, _, rfl⟩

@[simp] theorem cogs_broadcast : (m.broadcast g).cogs = m.cogs := by
  obtain ⟨_, _, h⟩ := m.broadcast_eq g
  rw [h]

@[simp] theorem cogs_deliver (n : Notice) : (m.deliver g n).cogs = m.cogs := by
  unfold deliver
  split <;> rfl

/-- Striking an entry off reaches threads, and nothing else. -/
theorem strike_eq (c : ContextId) : ∃ threads, m.strike c = { m with threads, registry := m.registry.strike c } := by
  unfold strike
  simp only
  split <;> exact ⟨_, rfl⟩

@[simp] theorem cogs_strike (c : ContextId) : (m.strike c).cogs = m.cogs := by
  obtain ⟨_, h⟩ := m.strike_eq c
  rw [h]

/-! ## Parkers -/

theorem parker_unpark (p q : ParkerId) :
    (m.unpark p).parker q = if q = p then (m.parker q).unpark else m.parker q := by
  show ((m.parkers.put p _).get? q).getD {} = _
  rw [Table.get?_put]
  split
  · next h => rw [h]; rfl
  · rfl

theorem parker_interruptParker (p q : ParkerId) :
    (m.interruptParker p).parker q = if q = p then (m.parker q).interrupt else m.parker q := by
  show ((m.parkers.put p _).get? q).getD {} = _
  rw [Table.get?_put]
  split
  · next h => rw [h]; rfl
  · rfl

theorem parker_unparks (ws : List ContextId) (q : ParkerId) :
    (ws.foldl (fun m c => m.unpark (.own c)) m).parker q =
      if ∃ c ∈ ws, q = .own c then (m.parker q).unpark else m.parker q := by
  induction ws generalizing m with
  | nil => simp
  | cons c ws ih =>
    rw [List.foldl_cons, ih, parker_unpark]
    by_cases hc : q = .own c
    · simp [hc, Parker.unpark]
    · simp [hc]

theorem parker_broadcast {x : Cog S A V} (hx : m.cogs.get? g = some x) (q : ParkerId) :
    (m.broadcast g).parker q =
      if ∃ c ∈ x.scheduler.waiters, q = .own c then (m.parker q).unpark else m.parker q := by
  simp only [broadcast, hx]
  exact parker_unparks _ _ _

/-! ## Numbers -/

/-- The numbers that come next: of a context, a task, a cog, a caller. -/
def issue : ContextId × TaskId × Nat × Nat :=
  (m.registry.nextContext, m.nextTask, m.nextCog, m.nextCaller)

@[simp] theorem issue_setControl (c : Control S A V) : (m.setControl a c).issue = m.issue := rfl

@[simp] theorem issue_notifyAll (ch : Channel) : (m.notifyAll ch).issue = m.issue := rfl

@[simp] theorem issue_onCog (f : Cog S A V → Cog S A V) : (m.onCog g f).issue = m.issue := rfl

@[simp] theorem issue_onScheduler (f : Scheduler S A V → Scheduler S A V) :
    (m.onScheduler g f).issue = m.issue := rfl

@[simp] theorem issue_setLock (holder : Option Agent) : (m.setLock g holder).issue = m.issue := rfl

@[simp] theorem issue_report (r : Report) : (m.report r).issue = m.issue := rfl

@[simp] theorem issue_broadcast : (m.broadcast g).issue = m.issue := by
  obtain ⟨_, _, h⟩ := m.broadcast_eq g
  rw [h]
  rfl

@[simp] theorem issue_deliver (n : Notice) : (m.deliver g n).issue = m.issue := by
  unfold deliver
  split <;> rfl

@[simp] theorem issue_strike (c : ContextId) : (m.strike c).issue = m.issue := by
  obtain ⟨_, h⟩ := m.strike_eq c
  rw [h]
  rfl

/-! ## Runs -/

theorem Reachable.trans {m m' m'' : Machine S A V} (h : Reachable m m') (h' : Reachable m' m'') :
    Reachable m m'' := by
  induction h' with
  | refl => exact h
  | act _ hx ih => exact .act ih hx

/-- Whatever actions are tried in turn, they make a run. -/
theorem reachable_foldl (acts : List (Action S A V)) (m : Machine S A V) :
    Reachable m (acts.foldl perform m) := by
  induction acts generalizing m with
  | nil => exact .refl
  | cons x acts ih =>
    refine Reachable.trans ?_ (ih (m.perform x))
    unfold perform
    cases h : m.act x with
    | none => exact .refl
    | some m' => exact .act .refl h

end Machine

end ObjectGroups
