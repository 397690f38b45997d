/-
Calls settle their futures.

The body of a call is wrapped: what comes after it is to settle the future with
its result. Nobody tells the future of the call apart from any other, so the
wrapper is recognised by its control: as long as the body has not ended, the
thread runs what is left of the body with the rest of the wrapper behind it
(`Residue`). A call is dormant until its task is claimed, under way until its
body has ended, and fulfilled from the step that settles the future. After that
the thread ends the task, as the value tells (`Departs`). Each stage goes on to
itself or to the next in every action, if nobody else resolves the future.
-/
import ObjectGroups.Proofs.Bodies
import ObjectGroups.Proofs.Outcomes
import ObjectGroups.Proofs.Subscriptions

namespace ObjectGroups

variable {S A V : Type} {m m' n : Machine S A V} {a a' : Agent} {g : CogId} {c : ContextId} {f : FutureId}
  {j : TaskId} {t t' : Thread S A V} {seat : Option Seat} {k : Control S A V} {b b' : Body S A V}
  {r r' : Exit TaskError V} {x y : ObjectGroups.Settled V} {move : Action S A V}
  {o : TaskOutcome} {active : Bool}

open Machine

/-! ## The body of a call -/

namespace Body

/-- What a call does once its body has ended with `r`. -/
def settling (f : FutureId) (r : Exit TaskError V) : Body S A V :=
  .request (.resolve f (settled r)) fun _ => .exit (status (settled r))

theorem attempt_settling_ne_exit : b.attempt (settling f) ≠ .exit r := by
  cases b <;> nofun

theorem settling_congr (h : settled r = settled r') : (settling f r : Body S A V) = settling f r' := by
  unfold settling
  rw [h]

theorem settling_eq (h : b.attempt (settling f) = settling f r) :
    ∃ r', b = .exit r' ∧ settled r' = settled r := by
  cases b with
  | exit r' =>
    simp only [attempt, settling, request.injEq, Request.resolve.injEq] at h
    exact ⟨r', rfl, h.1.2⟩
  | request q next =>
    simp only [attempt, settling, request.injEq] at h
    obtain ⟨rfl, h⟩ := h
    exact absurd (congrFun (eq_of_heq h) none) attempt_settling_ne_exit
  | _ => cases h

/-- How the task of a call ends that has settled its future with `x`. -/
def outcome (x : ObjectGroups.Settled V) : TaskOutcome := if x.isOk then .completed else .failed

/-- What may be left of a call. -/
def Residue (f : FutureId) (b y : Body S A V) : Prop := ∃ b', b.Comes b' ∧ y = b'.attempt (settling f)

theorem Residue.ended (h : Residue f b (settling f r)) : ∃ r', b.Comes (.exit r') ∧ settled r' = settled r := by
  obtain ⟨b', hb, e⟩ := h
  obtain ⟨r', rfl, same⟩ := settling_eq e.symm
  exact ⟨r', hb, same⟩

/-- Until its body has ended, a call goes on as its body does. -/
theorem Residue.heads {y : Body S A V} (h : Residue f b y) (hy : ∀ r, y ≠ settling f r) :
    (Control.run seat y).Heads (Residue f b) := by
  obtain ⟨b', hb, rfl⟩ := h
  have going (r : Exit TaskError V) : b' ≠ .exit r := by
    rintro rfl
    exact hy r rfl
  refine ⟨fun r => attempt_settling_ne_exit, fun y' hy' => ?_⟩
  obtain ⟨rest, leads, rfl⟩ := leads_attempt going hy'
  exact ⟨rest, hb.tail leads, rfl⟩

theorem Leads.of_settling (h : (settling f r : Body S A V).Leads b) : b = .exit (status (settled r)) := by
  cases h
  rfl

end Body

open Body

/-! ## Threads that host the task of a call -/

namespace Control

theorem Faces.splits {P : Body S A V → Prop} (h : k.Faces P) :
    (∃ seat b, k = .run seat b ∧ P b) ∨ k.Heads P := by
  cases k with
  | run seat b => exact .inl ⟨seat, b, rfl, h⟩
  | _ => exact .inr h

theorem Faces.goes {P : Body S A V → Prop} (h : k.Faces P) :
    k.stance ≠ .complete j o ∧ k.stance ≠ .strand j := by
  induction k with
  | notify _ _ after ih => exact ih h
  | awaiting aw phase => cases phase <;> exact ⟨nofun, nofun⟩
  | starting _ e => cases e <;> exact ⟨nofun, nofun⟩
  | claim | complete | strand | leave => exact h.elim
  | _ => exact ⟨nofun, nofun⟩

/-- The thread has settled the call with `x`, and goes on to end its task. -/
def Departs (j : TaskId) (x : ObjectGroups.Settled V) (k : Control S A V) : Prop :=
  k.Faces (· = .exit (status x)) ∨ k = .complete j (outcome x) ∨ k = .strand j

theorem Departs.rouse (h : k.Departs j x) : k.rouse.Departs j x := by
  rcases h with faces | rfl | rfl
  · exact .inl ((faces_rouse k).mpr faces)
  · exact .inr (.inl rfl)
  · exact .inr (.inr rfl)

end Control

namespace Machine

theorem berthed_of_task (ht : m.threads.get? a = some t) (hk : t.control.task? = some j) :
    m.Berthed j (.seat a) := by
  obtain ⟨⟨i, active⟩, hs, rfl⟩ := Option.map_eq_some_iff.mp hk
  exact ⟨_, _, active, look_eq m a ht, hs⟩

/-- One thread at most hosts the task. -/
theorem Ordered.host_eq (ho : m.Ordered) (ht : m.threads.get? a = some t) (hk : t.control.task? = some j)
    (ht' : m.threads.get? a' = some t') (hk' : t'.control.task? = some j) : a' = a := by
  cases ho.berth (berthed_of_task ht hk) (berthed_of_task ht' hk')
  rfl

/-- A thread hosts a task only after it has claimed it. -/
theorem Ordered.host_origin (ho : m.Ordered) (ha : m.act move = some m') (ht' : m'.threads.get? a = some t')
    (hk : t'.control.task? = some j) : (∃ t, m.threads.get? a = some t ∧ t.control.task? = some j) ∨
      ∃ g c, a = .context c ∧ (⟨m, move, m'⟩ : Move S A V).claimed? g = some (c, j) := by
  obtain ⟨⟨i, active⟩, hs, rfl⟩ := Option.map_eq_some_iff.mp hk
  have hl := look_eq m' a ht'
  obtain ⟨g, c, -, hg, rfl, -⟩ := (ho.act ha).home_of_hosts hl (by simp [Stance.hosts, hs])
  rw [hg] at hl
  rcases ho.hosted_or_claimed ha hl hs with ⟨s₀, active', hl₀, hs₀⟩ | claimed
  · obtain ⟨t, ht, -, rfl⟩ := look_eq_some m _ hl₀
    exact .inl ⟨t, ht, by simp [Control.task?, hs₀]⟩
  · exact .inr ⟨g, c, rfl, claimed⟩

/-- What is neither in a queue nor on its way into one waits nowhere to begin. -/
theorem bears_of_nowhere {P : Body S A V → Prop} (letter : ∀ a, ¬ m.Berthed j (.letter a))
    (queue : ∀ g, ¬ m.Berthed j (.queue g)) : m.Bears j P where
  letter {a t seat g view task next} ht hk hid := by
    have posts : t.control.stance.letter? = some j := by
      rw [← Control.stance_behind, hk, ← hid]
      rfl
    exact absurd ⟨_, _, look_eq m a ht, posts⟩ (letter a)
  queue {g x task} hx he := absurd ⟨x, hx, List.mem_map.mpr ⟨_, he, rfl⟩⟩ (queue g)

/-- A task that a thread hosts has begun. -/
theorem Ordered.begun {P : Body S A V → Prop} (ho : m.Ordered) (ht : m.threads.get? a = some t)
    (hk : t.control.task? = some j) : m.Bears j P :=
  bears_of_nowhere (fun _ letter => nomatch ho.berth (berthed_of_task ht hk) letter)
    fun _ queue => nomatch ho.berth (berthed_of_task ht hk) queue

/-! ## Three stages of a call -/

/-- Nobody has claimed the task. -/
structure Dormant (m : Machine S A V) (f : FutureId) (j : TaskId) (P : Body S A V → Prop) : Prop where
  bears : m.Bears j P
  vacant {a : Agent} {t : Thread S A V} : m.threads.get? a = some t → t.control.task? ≠ some j
  unresolved : (m.future f).value = none

/-- A thread runs what is left of the body, or is about to settle the future. -/
structure Underway (m : Machine S A V) (f : FutureId) (j : TaskId) (b : Body S A V) : Prop where
  hosted : ∃ a t, m.threads.get? a = some t ∧ t.control.task? = some j ∧ t.control.Faces (Residue f b)
  unresolved : (m.future f).value = none

/-- The body has ended, and the future is settled with what has come of it. -/
structure Fulfilled (m : Machine S A V) (f : FutureId) (j : TaskId) (b : Body S A V)
    (x : ObjectGroups.Settled V) : Prop where
  result : ∃ r, b.Comes (.exit r) ∧ x = settled r
  resolved : (m.future f).value = some x
  begun : m.Bears j fun _ => False
  departs {a : Agent} {t : Thread S A V} : m.threads.get? a = some t → t.control.task? = some j →
    t.control.Departs j x

end Machine

namespace Move

variable (v : Move S A V)

/-- The move as an event of a run in which nothing is registered from outside. -/
def event : Event S A V := ⟨v.before, .act v.act, v.after⟩

/-- Nobody but the call whose task is `j` resolves the future in this move. -/
def Private (f : FutureId) (j : TaskId) : Prop := ∀ a x, v.event.attempt? f = some (a, x) →
  ∃ t active r, v.before.threads.get? a = some t ∧ t.control = .run (some ⟨j, active⟩) (settling f r)

/-- The thread `a` has come to the end of the call's body, and settles the future. `r` is how the
body has ended. -/
def Returns (a : Agent) (f : FutureId) (j : TaskId) (r : Exit TaskError V) : Prop := v.act = .step a ∧
  ∃ t active, v.before.threads.get? a = some t ∧ t.control = .run (some ⟨j, active⟩) (settling f r)

variable {v}

theorem Returns.attempts (h : v.Returns a f j r) : v.event.attempt? f = some (a, settled r) := by
  obtain ⟨hact, t, active, ht, hk⟩ := h
  simp [event, Event.attempt?, Event.actor?, hact, Action.actor?, ht, hk, settling, Control.attempts?]

end Move

/-! ## One step -/

namespace Machine

theorem value_step (ha : m.act move = some m') : (m'.future f).value =
    (m.future f).value.or (((⟨m, move, m'⟩ : Move S A V).event.attempt? f).map (·.2)) := by
  have hu : m.undergo (.act move) = some m' := ha
  exact undergo_value hu f

theorem value_kept (ha : m.act move = some m') (h : (m.future f).value = some x) :
    (m'.future f).value = some x := by
  rw [value_step ha, h]
  rfl

section
variable (ho : m.Ordered) (ha : m.act move = some m')

section
variable (own : (⟨m, move, m'⟩ : Move S A V).Private f j)
include ha own

/-- Unless the body of the call ends, the future is left alone. -/
theorem value_private (hr : ∀ a r, ¬ (⟨m, move, m'⟩ : Move S A V).Returns a f j r) :
    (m'.future f).value = (m.future f).value := by
  have nobody : (⟨m, move, m'⟩ : Move S A V).event.attempt? f = none := by
    refine Option.eq_none_iff_forall_ne_some.mpr fun (a, x) hat => ?_
    obtain ⟨t, active, r, ht, hk⟩ := own a x hat
    obtain ⟨hact, -⟩ := Event.attempt?_eq hat
    exact hr a r ⟨Cause.act.inj hact, t, active, ht, hk⟩
  rw [value_step ha, nobody]
  exact Option.or_none

theorem Dormant.unresolved_step {P : Body S A V → Prop} (h : m.Dormant f j P) : (m'.future f).value = none := by
  rw [value_private ha own]
  · exact h.unresolved
  · rintro a r ⟨-, t, active, ht, hk⟩
    exact h.vacant ht (by rw [hk]; rfl)

end

include ho ha

/-- A task that nobody claims is not begun. -/
theorem Dormant.act {P : Body S A V → Prop} (h : m.Dormant f j P) (hj : j.val < m.nextTask.val)
    (own : (⟨m, move, m'⟩ : Move S A V).Private f j)
    (hc : ∀ g c, (⟨m, move, m'⟩ : Move S A V).claimed? g ≠ some (c, j)) : m'.Dormant f j P where
  bears := h.bears.act ho hj ha
  vacant ht' hk := by
    rcases ho.host_origin ha ht' hk with ⟨t, ht, hosts⟩ | ⟨g, c, -, claimed⟩
    · exact h.vacant ht hosts
    · exact hc g c claimed
  unresolved := h.unresolved_step ha own

theorem Dormant.claimed (h : m.Dormant f j (· = Body.calling f b)) (own : (⟨m, move, m'⟩ : Move S A V).Private f j)
    (hc : (⟨m, move, m'⟩ : Move S A V).claimed? g = some (c, j)) : m'.Underway f j b := by
  obtain ⟨t, task, ht, hk, rfl⟩ := h.bears.claimed ho ha hc
  exact ⟨⟨_, t, ht, by rw [hk]; rfl, by rw [hk]; exact ⟨b, .refl, rfl⟩⟩, h.unresolved_step ha own⟩

/-- What waits nowhere to begin is never claimed. -/
theorem Bears.not_claimed (h : m.Bears j fun _ => False) :
    (⟨m, move, m'⟩ : Move S A V).claimed? g ≠ some (c, j) := by
  intro claimed
  obtain ⟨-, -, -, -, never⟩ := h.claimed ho ha claimed
  exact never

/-- The thread of a call whose body has ended settles the future. -/
theorem Underway.returns (h : m.Underway f j b) (hr : (⟨m, move, m'⟩ : Move S A V).Returns a f j r) :
    m'.Fulfilled f j b (settled r) := by
  obtain ⟨rfl, t, active, ht, hk⟩ := hr
  have hosts : t.control.task? = some j := by rw [hk]; rfl
  have hstep : m.step a = some m' := ha
  obtain ⟨a₀, t₀, ht₀, hosts₀, faces⟩ := h.hosted
  obtain rfl := ho.host_eq ht hosts ht₀ hosts₀
  cases ht.symm.trans ht₀
  rw [hk] at faces
  obtain ⟨r', comes, same⟩ := Residue.ended faces
  have next : Pursues (· = .exit (status (settled r))) t a₀ m' := by
    refine pursues_step ho ht hstep ?_
    rw [hk]
    exact ⟨nofun, fun _ leads => leads.of_settling⟩
  obtain ⟨t', ht', -, hosts', faces'⟩ := next
  refine ⟨⟨r', comes, same.symm⟩, ?_, (ho.act ha).begun ht' (hosts'.trans hosts), fun {d u} hu hosts'' => ?_⟩
  · rw [value_step ha, h.unresolved, Move.Returns.attempts ⟨rfl, t, active, ht, hk⟩]
    rfl
  · obtain rfl := (ho.act ha).host_eq ht' (hosts'.trans hosts) hu hosts''
    cases ht'.symm.trans hu
    exact .inl faces'

/-- Until the body has ended, its thread goes on with it. -/
theorem Underway.act (h : m.Underway f j b) (own : (⟨m, move, m'⟩ : Move S A V).Private f j)
    (hr : ∀ a r, ¬ (⟨m, move, m'⟩ : Move S A V).Returns a f j r) : m'.Underway f j b := by
  refine ⟨?_, (value_private ha own hr).trans h.unresolved⟩
  obtain ⟨a, t, ht, hosts, faces⟩ := h.hosted
  by_cases hact : move.actor? = some a
  · obtain rfl := Action.step_of_actor hact
    have heads : t.control.Heads (Residue f b) := by
      rcases faces.splits with ⟨seat, y, hk, residue⟩ | heads
      · rw [hk]
        refine residue.heads fun r e => hr a r ⟨rfl, t, ?_⟩
        rw [hk] at hosts
        obtain ⟨⟨i, active⟩, rfl, rfl⟩ := Option.map_eq_some_iff.mp hosts
        exact ⟨active, ht, by rw [hk, e]⟩
      · exact heads
    obtain ⟨t', ht', -, hosts', faces'⟩ := pursues_step ho ht ha heads
    exact ⟨a, t', ht', hosts'.trans hosts, faces'⟩
  · rcases ho.stays ha ht hact with stays | roused
    · exact ⟨a, t, stays, hosts, faces⟩
    · exact ⟨a, t.rouse, roused, (Control.task?_rouse _).trans hosts, (Control.faces_rouse _).mpr faces⟩

end

/-! ## After the end of the body -/

theorem control_set (ht' : (m.setControl a k).threads.get? a = some t') : t'.control = k := by
  rw [thread_setControl, if_pos rfl] at ht'
  obtain ⟨t, -, rfl⟩ := Option.map_eq_some_iff.mp ht'
  rfl

theorem task?_announceEnd {outcome : TaskOutcome} {view : Option TaskView} {after : Control S A V}
    (ht' : (m.announceEnd a g outcome view after).threads.get? a = some t') : t'.control.task? = after.task? := by
  unfold announceEnd at ht'
  rw [control_set ht', task?_announce]

/-- The task of a call ends as the value tells with which the future has been settled. -/
theorem Ordered.departs_exit (ho : m.Ordered) (ht : m.threads.get? a = some t)
    (hk : t.control = .run (some ⟨j, active⟩) (.exit (status x)))
    (ht' : (m.stepExit a t (some ⟨j, active⟩) (status x)).threads.get? a = some t') :
    t'.control.Departs j x := by
  have hl := look_eq m a ht
  rw [hk] at hl
  obtain ⟨i, c, -, hi, rfl, -⟩ := ho.home_of_hosts hl rfl
  simp only [stepExit, hi] at ht'
  cases active with
  | true => cases x <;> exact .inr (.inl (control_set ht'))
  | false => exact .inr (.inr (control_set ht'))

theorem Ordered.departs_step (ho : m.Ordered) (ht : m.threads.get? a = some t) (h : m.step a = some m')
    (hosts : t.control.task? = some j) (departs : t.control.Departs j x) (ht' : m'.threads.get? a = some t')
    (hosts' : t'.control.task? = some j) : t'.control.Departs j x := by
  rcases departs with faces | hk | hk
  · rcases faces.splits with ⟨seat, y, hk, rfl⟩ | heads
    · rw [hk] at hosts
      obtain ⟨⟨i, active⟩, rfl, rfl⟩ := Option.map_eq_some_iff.mp hosts
      simp only [step, ht, hk, stepBody, Option.some.injEq] at h
      rw [← h] at ht'
      exact ho.departs_exit ht hk ht'
    · obtain ⟨t₁, ht₁, -, -, faces'⟩ := pursues_step ho ht h heads
      cases ht'.symm.trans ht₁
      exact .inl faces'
  · have took := step_of ht h
    rw [hk] at took
    cases took with
    | completes => cases (task?_announceEnd ht').symm.trans hosts'
  · have took := step_of ht h
    rw [hk] at took
    cases took with
    | strands => cases (task?_announceEnd ht').symm.trans hosts'
    | fades =>
      rw [control_set ht'] at hosts'
      cases hosts'

theorem Fulfilled.act (h : m.Fulfilled f j b x) (ho : m.Ordered) (hj : j.val < m.nextTask.val)
    (ha : m.act move = some m') : m'.Fulfilled f j b x where
  result := h.result
  resolved := value_kept ha h.resolved
  begun := h.begun.act ho hj ha
  departs {a t'} ht' hosts' := by
    rcases ho.host_origin ha ht' hosts' with ⟨t, ht, hosts⟩ | ⟨g, c, -, claimed⟩
    · by_cases hact : move.actor? = some a
      · obtain rfl := Action.step_of_actor hact
        exact ho.departs_step ht ha hosts (h.departs ht hosts) ht' hosts'
      · rcases ho.stays ha ht hact with stays | roused
        · cases ht'.symm.trans stays
          exact h.departs ht hosts
        · cases ht'.symm.trans roused
          exact (h.departs ht hosts).rouse
    · exact absurd claimed (h.begun.not_claimed ho ha)

/-! ## How far a call has come -/

/-- The body of the call has begun. -/
inductive Begun (m : Machine S A V) (f : FutureId) (j : TaskId) (b : Body S A V) : Prop where
  | underway : m.Underway f j b → Begun m f j b
  | fulfilled (x : ObjectGroups.Settled V) : m.Fulfilled f j b x → Begun m f j b

/-- How far the call has come. -/
inductive Calls (m : Machine S A V) (f : FutureId) (j : TaskId) (b : Body S A V) : Prop where
  | dormant : m.Dormant f j (· = Body.calling f b) → Calls m f j b
  | begun : m.Begun f j b → Calls m f j b

namespace Begun

variable (h : m.Begun f j b)
include h

theorem act (ho : m.Ordered) (hj : j.val < m.nextTask.val) (ha : m.act move = some m')
    (own : (⟨m, move, m'⟩ : Move S A V).Private f j) : m'.Begun f j b := by
  cases h with
  | underway underway =>
    by_cases hr : ∃ a r, (⟨m, move, m'⟩ : Move S A V).Returns a f j r
    · obtain ⟨a, r, hr⟩ := hr
      exact .fulfilled _ (underway.returns ho ha hr)
    · exact .underway (underway.act ho ha own fun a r returns => hr ⟨a, r, returns⟩)
  | fulfilled x fulfilled => exact .fulfilled x (fulfilled.act ho hj ha)

theorem bears (ho : m.Ordered) : m.Bears j fun _ => False := by
  cases h with
  | underway underway =>
    obtain ⟨a, t, ht, hosts, -⟩ := underway.hosted
    exact ho.begun ht hosts
  | fulfilled x fulfilled => exact fulfilled.begun

theorem of_unresolved (hv : (m.future f).value = none) : m.Underway f j b := by
  cases h with
  | underway underway => exact underway
  | fulfilled x fulfilled => cases fulfilled.resolved.symm.trans hv

theorem of_resolved (hv : (m.future f).value = some x) : m.Fulfilled f j b x := by
  cases h with
  | underway underway => cases underway.unresolved.symm.trans hv
  | fulfilled y fulfilled =>
    cases fulfilled.resolved.symm.trans hv
    exact fulfilled

end Begun

namespace Calls

variable (h : m.Calls f j b)
include h

theorem act (ho : m.Ordered) (hj : j.val < m.nextTask.val) (ha : m.act move = some m')
    (own : (⟨m, move, m'⟩ : Move S A V).Private f j) : m'.Calls f j b := by
  cases h with
  | dormant dormant =>
    by_cases hc : ∃ g c, (⟨m, move, m'⟩ : Move S A V).claimed? g = some (c, j)
    · obtain ⟨g, c, hc⟩ := hc
      exact .begun (.underway (dormant.claimed ho ha own hc))
    · exact .dormant (dormant.act ho ha hj own fun g c claimed => hc ⟨g, c, claimed⟩)
  | begun begun => exact .begun (begun.act ho hj ha own)

theorem of_resolved (hv : (m.future f).value = some x) : m.Fulfilled f j b x := by
  cases h with
  | dormant dormant => cases dormant.unresolved.symm.trans hv
  | begun begun => exact begun.of_resolved hv

theorem of_hosted (ht : m.threads.get? a = some t) (hosts : t.control.task? = some j) : m.Begun f j b := by
  cases h with
  | dormant dormant => exact absurd hosts (dormant.vacant ht)
  | begun begun => exact begun

/-- A thread that is about to settle the future is the first to do so. -/
theorem of_settling (ht : m.threads.get? a = some t) (hk : t.control = .run (some ⟨j, active⟩) (settling f r)) :
    m.Underway f j b := by
  have hosts : t.control.task? = some j := by rw [hk]; rfl
  cases h.of_hosted ht hosts with
  | underway underway => exact underway
  | fulfilled x fulfilled =>
    have departs := fulfilled.departs ht hosts
    rw [hk] at departs
    rcases departs with e | e | e <;> cases e

theorem of_claimed (ho : m.Ordered) (ha : m.act move = some m') (own : (⟨m, move, m'⟩ : Move S A V).Private f j)
    (hc : (⟨m, move, m'⟩ : Move S A V).claimed? g = some (c, j)) : m'.Underway f j b := by
  cases h with
  | dormant dormant => exact dormant.claimed ho ha own hc
  | begun begun => exact absurd hc ((begun.bears ho).not_claimed ho ha)

/-- A task that still waits in a queue is nobody's. -/
theorem of_queued (ho : m.Ordered) (hq : m.Berthed j (.queue g)) : m.Dormant f j (· = Body.calling f b) := by
  cases h with
  | dormant dormant => exact dormant
  | begun begun =>
    obtain ⟨x, hx, there⟩ := hq
    obtain ⟨⟨i, task⟩, he, rfl⟩ := List.mem_map.mp there
    exact ((begun.bears ho).queue hx he).elim

/-- A thread that is about to end the task has settled the future before. -/
theorem of_ending (ho : m.Ordered) {own : Option CogId} {s : Stance} (hl : m.look a = some (own, s))
    (hs : s = .complete j o ∨ (s = .strand j ∧ o = .failed)) :
    ∃ x, (m.future f).value = some x ∧ (o = .completed → x.isOk = true) := by
  obtain ⟨t, ht, -, stance⟩ := look_eq_some m a hl
  have hosts : t.control.task? = some j := by
    rw [Control.task?, stance]
    rcases hs with rfl | ⟨rfl, -⟩ <;> rfl
  have goes {P : Body S A V → Prop} (faces : t.control.Faces P) : False := by
    obtain ⟨completes, strands⟩ := faces.goes (j := j) (o := o)
    rcases hs with rfl | ⟨rfl, -⟩
    · exact completes stance
    · exact strands stance
  cases h.of_hosted ht hosts with
  | underway underway =>
    obtain ⟨d, u, hu, hosts', faces⟩ := underway.hosted
    obtain rfl := ho.host_eq ht hosts hu hosts'
    cases ht.symm.trans hu
    exact (goes faces).elim
  | fulfilled x fulfilled =>
    refine ⟨x, fulfilled.resolved, fun completed => ?_⟩
    rcases fulfilled.departs ht hosts with faces | hk | hk
    · exact (goes faces).elim
    · rw [hk] at stance
      rcases hs with rfl | ⟨rfl, -⟩ <;> cases stance
      by_contra failed
      simp [outcome, failed] at completed
    · rw [hk] at stance
      rcases hs with rfl | ⟨rfl, rfl⟩
      · cases stance
      · cases completed

end Calls

end Machine

end ObjectGroups
