/-
How long an interrupted await can go on.

The wait for a guard of the library visits each part of the guard once, as the
first park ends it. So a number of steps can be told beforehand in which the
thread is through with its await, unless something holds it up; the parts of
the guard and the phase that the thread is in say which.
-/
import ObjectGroups.Proofs.Interrupts
import ObjectGroups.Proofs.Phases
import ObjectGroups.Proofs.Waits

namespace ObjectGroups

variable {S A V : Type} {m m' : Machine S A V} {g : CogId} {c : ContextId} {x : Cog S A V}
  {aw : Awaiting S A V} {phase : Phase S} {t : Thread S A V} {k : Control S A V}

/-! ## Waits -/

namespace Guard

mutual

/-- How many steps the wait for the guard takes at most on an interrupted context. -/
def steps : Guard S → Nat
  | .future _ => 5
  | .timer _ _ => 3
  | .all gs => allSteps gs + 1
  | .any _ => 4
  | _ => 1

/-- The same for one guard after another, with a step after each. -/
def allSteps : List (Guard S) → Nat
  | [] => 0
  | g :: gs => steps g + 1 + allSteps gs

end

end Guard

def WaitPoint.steps : WaitPoint S → Nat
  | .enter g => g.steps
  | .future _ => 4
  | .join _ => 3
  | .recheck _ => 2
  | .timer _ => 2
  | .never => 2
  | .anyPoll _ _ => 3
  | .anyAim _ _ => 2
  | .anyLast _ => 1
  | .user _ _ => 0
  | .park _ _ _ => 1
  | .done _ => 0

namespace Wait

variable {w : Wait S} {v : Sight} {σ : S} {p : Parker} {next : WaitMove S}

/-- For each `all` the parts to come, and a step to end it. -/
def frameSteps : List (Bool × List (Guard S)) → Nat
  | [] => 0
  | frame :: frames => Guard.allSteps frame.2 + 1 + frameSteps frames

def steps (w : Wait S) : Nat := w.point.steps + frameSteps w.frames

@[simp] theorem steps_notify (w : Wait S) : w.notify.steps = w.steps := by
  obtain ⟨point, frames⟩ := w
  cases point <;> rfl

theorem steps_step (hw : w.Within fun g => g.library = true) (hp : p.interrupted = true)
    (h : w.step v σ p = some next) : next.wait.steps < w.steps := by
  have part := hw.point
  cases step_paces h with
  | goes hy =>
    refine Nat.add_lt_add_right ?_ _
    cases hy with
    | answers hr => cases hr with
      | user => cases part
      | _ => simp [WaitPoint.steps, Guard.steps]
    | user | evaluates | parksUser => cases part
    | _ => simp [WaitPoint.steps, Guard.steps]
  | descends g gs =>
    simp only [steps, frameSteps, WaitPoint.steps, Guard.steps, Guard.allSteps]
    omega
  | joins | subscribes | subscribeFailed =>
    refine Nat.add_lt_add_right ?_ _
    simp [WaitPoint.steps, Guard.steps]
  | sleeps hlook =>
    rw [(Parker.bare_of_sleeps hlook).1] at hp
    cases hp
  | @wakes d sleep after frames r p' hlook =>
    obtain rfl := Parker.look_interrupted hp hlook
    refine Nat.add_lt_add_right ?_ _
    cases after with
    | user g next => cases part
    | _ => exact Nat.zero_lt_one
  | passes b held g gs =>
    simp only [steps, frameSteps, WaitPoint.steps, Guard.allSteps]
    omega
  | ends =>
    simp only [steps, frameSteps, WaitPoint.steps]
    omega

end Wait

/-! ## Awaits -/

/-- How many steps the thread takes at most until an interrupted await of the guard has ended. -/
def Phase.remaining (g : Guard S) : Phase S → Nat
  | .release => g.steps + 7
  | .wait w => w.steps + 2
  | .ready => 5
  | .reenter _ => 3
  | .subscribe => 2
  | .contend _ => 1
  | .doze _ => 3
  | .asleep _ _ _ => 2
  | .abort => 1

def Control.remaining : Control S A V → Nat
  | .notify _ _ after => after.remaining + 1
  | .starting stage (.handover aw) => stage.ahead + aw.guard.steps + 4
  | .awaiting aw phase => phase.remaining aw.guard
  | _ => 0

theorem Control.remaining_behind (k : Control S A V) : k.remaining = k.notices + k.behind.remaining := by
  induction k with
  | notify _ _ after ih =>
    simp only [remaining, notices, behind, ih]
    omega
  | _ => simp [notices, behind]

@[simp] theorem Control.remaining_rouse (k : Control S A V) : k.rouse.remaining = k.remaining := by
  cases k with
  | awaiting aw phase => cases phase <;> simp [rouse, remaining, Phase.remaining]
  | _ => rfl

theorem Control.remaining_pos (h : k.await? = some aw) : 0 < k.remaining := by
  rw [remaining_behind]
  refine Nat.lt_of_lt_of_le ?_ (Nat.le_add_left ..)
  unfold await? at h
  split at h
  · next aw' phase hb =>
    rw [hb]
    cases phase <;> simp [remaining, Phase.remaining]
  · next stage aw' hb =>
    rw [hb]
    exact Nat.succ_pos _
  · cases h

/-- The wait for a guard of the library is one of the library. -/
def Phase.Stock (aw : Awaiting S A V) : Phase S → Prop
  | .wait w => aw.guard.library = true → w.Within fun g => g.library = true
  | _ => True

theorem Phase.Stock.of_begins (h : phase.Begins x c aw ∨ phase.Stock aw) : phase.Stock aw := by
  rcases h with begins | stock
  · cases begins with
    | wait => exact fun hg => Wait.Within.start hg
    | _ => trivial
  · exact stock

namespace Machine

theorem Reachable.stock {r : Registry} {memory : A} (h : Reachable (.empty r memory) m) :
    m.Follows fun _ _ _ aw phase => phase.Stock aw := by
  induction h with
  | refl =>
    intro c t g x ht
    cases ht
  | @act m m' move h ha ih =>
    refine follows_act h.ordered ha ih ?_ ?_
    · intro c g x x' t t' aw phase phase' _ _ before _ proceeds
      have stock := Phase.Stock.of_begins before
      cases proceeds with
      | waits _ hm => exact fun hg => (stock hg).step Guard.library_inherited hm
      | answered _ hp => rcases hp with rfl | rfl <;> trivial
      | _ => trivial
    · intro c g x x' t aw phase _ hs before stirred hx'
      have stock := Phase.Stock.of_begins before
      obtain ⟨p, t', hs', -⟩ := hs.stirred stirred hx'
      refine ⟨t', _, hs', ?_⟩
      cases p with
      | false => exact stock
      | true => cases phase with
        | wait w => exact fun hg => (stock hg).notify
        | _ => exact stock

/-- How many steps the context takes at most until an interrupted await has ended. -/
def remaining (m : Machine S A V) (c : ContextId) : Nat :=
  ((m.threads.get? (.context c)).map (·.control.remaining)).getD 0

theorem remaining_eq (ht : m.threads.get? (.context c) = some t) : m.remaining c = t.control.remaining := by
  simp [remaining, ht]

/-- On an interrupted context, each step takes the await nearer to its end. -/
theorem Ordered.remaining_step (ho : m.Ordered) (hf : m.Follows fun _ _ _ aw phase => phase.Stock aw)
    (ht : m.threads.get? (.context c) = some t) (hg : t.cog = some g) (hx : m.cogs.get? g = some x)
    (hk : t.control.await? = some aw) (hl : aw.guard.library = true) (hi : m.interrupted c = true)
    (h : m.step (.context c) = some m')
    (ht' : m'.threads.get? (.context c) = some { t with control := k })
    (hk' : k.await? = some aw) : k.remaining < t.control.remaining := by
  have through {seat : Option Seat} {b : Body S A V} (hb : k.behind = .run seat b) : False := by
    simp [Control.await?, hb] at hk'
  have before := hf c t g x ht hg hx
  obtain ⟨k₁, hk₁, treads⟩ := step_treads ho ht hg hx hk h
  obtain rfl : k₁ = k := by
    rw [ht'] at hk₁
    exact (congrArg Thread.control (Option.some.inj hk₁)).symm
  generalize t.control = control at treads before
  cases treads with
  | tells => exact Nat.lt_succ_self _
  | hands hands => cases hands with
    | goesOn nearer =>
      simp only [Control.remaining]
      omega
    | enlists hb _ hn =>
      rw [Control.remaining_behind, hb]
      simp only [Control.remaining, Phase.remaining, Wait.start, Wait.steps, WaitPoint.steps,
        Wait.frameSteps]
      omega
    | unwinds _ hb => exact (through hb).elim
  | strides strides => cases strides with
    | hands =>
      simp only [Control.remaining, Phase.remaining, Stage.ahead]
      omega
    | enlists hb _ hn =>
      rw [Control.remaining_behind, hb]
      simp only [Control.remaining, Phase.remaining, Wait.start, Wait.steps, WaitPoint.steps,
        Wait.frameSteps]
      omega
    | marked hb hn =>
      rw [Control.remaining_behind, hb]
      simp only [Control.remaining, Phase.remaining]
      omega
    | proceeds proceeds => cases proceeds with
      | waits _ hm =>
        have within := Phase.Stock.of_begins before.awaiting hl
        exact Nat.add_lt_add_right (Wait.steps_step within hi hm) 2
      | answered _ _ going | waitFailed _ _ _ going | taken _ _ _ _ going
      | refused _ _ _ _ going =>
        rw [hi] at going
        cases going
      | _ => simp [Control.remaining, Phase.remaining]
    | aborts _ hb | fails _ _ hb | unwinds _ hb | resumes _ _ hb => exact (through hb).elim

end Machine

end ObjectGroups
