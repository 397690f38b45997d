/-
At most one context of a cog runs task code.

The slot of a cog is one cell of its scheduler, and it moves through several
critical sections: to a context that has just been started, to a task that
takes it back after an await, and away again when a task begins to await or
its context finds nothing to do. Whether a body may work on the state is
known to the body alone. `Exclusive` says that the two never disagree, in
whatever order threads take their steps.
-/
import ObjectGroups.Proofs.OrderKept

namespace ObjectGroups

variable {S A V : Type} {m m' : Machine S A V} {a : Agent} {g : CogId}
  {own : Option CogId} {s s' : Stance} {x x' : Cog S A V} {loud : Bool}

namespace Machine

/-- The context `c` has received the slot of the cog and not given it up yet. -/
def Entitled (m : Machine S A V) (g : CogId) (c : ContextId) : Prop :=
  ∃ s, m.look (.context c) = some (some g, s) ∧ s.slot = true

/-- The body of the task `k` runs on the thread `a` and holds the slot of the cog. -/
def Runs (m : Machine S A V) (g : CogId) (a : Agent) (k : TaskId) : Prop :=
  ∃ s, m.look a = some (some g, s) ∧ s.seat? = some ⟨k, true⟩

/-- The slot of the cog is where its threads believe it to be. -/
structure Exclusive (m : Machine S A V) (g : CogId) (x : Cog S A V) : Prop where
  active {c : ContextId} : m.Entitled g c → x.scheduler.active = some c
  single {c d : ContextId} : m.Entitled g c → m.Entitled g d → c = d
  body {a : Agent} {k : TaskId} : m.Runs g a k →
    ∃ c, a = .context c ∧ m.Entitled g c ∧ x.scheduler.active = some c ∧
      x.scheduler.activeTask = some k
  /-- Two bodies that hold the slot are one. -/
  alone {a b : Agent} {k l : TaskId} : m.Runs g a k → m.Runs g b l → a = b ∧ k = l
  /-- A body works on the state of the cog as the active task, or is refused and changes nothing. -/
  access {a : Agent} {t : Thread S A V} {seat : Option Seat} {change : S → S}
    {next : S → Body S A V} {refused : Body S A V} {m' : Machine S A V} :
    m.threads.get? a = some t → t.cog = some g → t.control = .run seat (.access change next refused) →
      m.step a = some m' →
      (∃ k, seat = some ⟨k, true⟩ ∧ m.Runs g a k) ∨
        (m'.cogs = m.cogs ∧ m'.threads.get? a = some { t with control := .run seat refused })
  /-- Nothing else changes the state. -/
  state {act : Action S A V} {m' : Machine S A V} {x' : Cog S A V} :
    m.act act = some m' → m'.cogs.get? g = some x' → x'.state = x.state ∨
      ∃ c k, act = .step (.context c) ∧ m.Runs g (.context c) k
  /-- An awaited guard is asked under the lock only while no body holds the slot. -/
  poll {c : ContextId} {t : Thread S A V} {aw : Awaiting S A V} {failure : Option GuardError}
    {m' : Machine S A V} :
    m.threads.get? (.context c) = some t → t.cog = some g →
      t.control = .awaiting aw (.contend failure) → m.step (.context c) = some m' →
      m'.turn ≠ m.turn → x.lock = some (.context c) ∧ x.scheduler.active = none ∧
        (∀ d, ¬ m.Entitled g d) ∧ ∀ b k, ¬ m.Runs g b k

end Machine

open Machine

/-! ## Who changes the state of a cog -/

theorem Deed.state (h : Deed g a own loud s x s' x') :
    x'.state = x.state ∨ (own = some g ∧ ∃ k, s = .body (some ⟨k, true⟩)) := by
  cases h with
  | access change => exact .inr ⟨rfl, _, rfl⟩
  | _ => exact .inl rfl

theorem Grant.state {c : ContextId} (h : Grant g c a own s x s' x') : x'.state = x.state := by
  cases h <;> rfl

/-- The state of a cog changes only in a step of a body that holds its slot. -/
theorem Shift.state {actor : Option Agent} (h : Shift m m' actor) (hx : m.cogs.get? g = some x)
    (hx' : m'.cogs.get? g = some x') (hg : g.val < m.nextCog) :
    x'.state = x.state ∨
      ∃ a k, actor = some a ∧ m.look a = some (some g, .body (some ⟨k, true⟩)) := by
  obtain ⟨y, hy, worked⟩ := h.cog hx hg
  cases hy.symm.trans hx'
  cases worked with
  | idle e => exact .inl (by rw [e])
  | @deed a own loud s s' ht hd =>
    rcases hd.state with hs | ⟨rfl, k, rfl⟩
    · exact .inl hs
    · exact .inr ⟨a, k, rfl, ht.before⟩
  | grant _ hgr => exact .inl hgr.state

/-! ## Asking a guard under the lock -/

@[simp] theorem turn_abort (m : Machine S A V) (c : ContextId) (aw : Awaiting S A V) :
    (m.abort a c g x aw).turn = m.turn := by
  unfold abort announceEnd
  dsimp only
  split <;> rfl

/-- A task asks its guard under the lock only when it finds the slot free. -/
theorem free_of_turn {c : ContextId} {aw : Awaiting S A V} {failure : Option GuardError}
    (h : m.AwaitStep c g x aw (.contend failure) m') (turn : m'.turn ≠ m.turn) : x.scheduler.active = none := by
  cases h with
  | aborts => exact absurd (turn_abort m c aw) turn
  | taken => exact absurd rfl turn
  | returns _ free | resumes _ free | denied _ free | fails _ free | unwinds _ free => exact free

/-! ## The result -/

theorem Machine.Ordered.exclusive (ho : m.Ordered) (hx : m.cogs.get? g = some x) :
    m.Exclusive g x := by
  have entitled {c : ContextId} (h : m.Entitled g c) : x.scheduler.active = some c := by
    obtain ⟨s, hl, hs⟩ := h
    exact (ho.holder hl hx hs).1
  have slot {s : Stance} {k : TaskId} (hs : s.seat? = some ⟨k, true⟩) : s.slot = true := by
    simp [Stance.slot, hs]
  have runs {a : Agent} {k : TaskId} (h : m.Runs g a k) : ∃ c, a = .context c ∧
      m.Entitled g c ∧ x.scheduler.active = some c ∧ x.scheduler.activeTask = some k := by
    obtain ⟨s, hl, hs⟩ := h
    obtain ⟨⟨c, rfl⟩, -⟩ := ho.home hl
    exact ⟨c, rfl, ⟨s, hl, slot hs⟩, (ho.holder hl hx (slot hs)).1, (ho.holder hl hx (slot hs)).2 k hs⟩
  constructor
  case active => exact entitled
  case single =>
    intro c d hc hd
    exact Option.some.inj ((entitled hc).symm.trans (entitled hd))
  case body => exact runs
  case alone =>
    intro a b k l ha hb
    obtain ⟨c, rfl, -, hc, hk⟩ := runs ha
    obtain ⟨d, rfl, -, hd, hl⟩ := runs hb
    exact ⟨congrArg _ (Option.some.inj (hc.symm.trans hd)), Option.some.inj (hk.symm.trans hl)⟩
  case access =>
    intro a t seat change next refused m' ht hcog hk h
    have hl := look_eq m a ht
    have took := step_of ht h
    rw [hcog, hk] at hl took
    cases took with
    | runs took => cases took with
      | accesses _ hs =>
        subst hs
        exact .inl ⟨_, rfl, _, hl, rfl⟩
      | refuses => exact .inr ⟨rfl, by simp [thread_setControl, ht]⟩
  case state =>
    intro act m' x' h hx'
    rcases (shift_act ho h).state hx hx' (ho.newCog (by simp [hx])) with hs | ⟨a, k, hact, hl⟩
    · exact .inl hs
    · refine .inr ?_
      obtain ⟨⟨c, rfl⟩, -⟩ := ho.home hl
      cases act with
      | step b =>
        cases hact
        exact ⟨c, k, rfl, _, hl, rfl⟩
      | _ => cases hact
  case poll =>
    intro c t aw failure m' ht hcog hk h hturn
    have hl : m.look (.context c) = some (some g, .contend aw.task) := by
      rw [look_eq m _ ht, hcog, hk]
      rfl
    have free := free_of_turn (awaitStep_of ht hcog hk hx h) hturn
    obtain ⟨y, hy, hlock, -⟩ := ho.locks hl rfl
    cases hx.symm.trans hy
    refine ⟨hlock, free, fun d hd => ?_, fun b k hb => ?_⟩
    · rw [entitled hd] at free
      cases free
    · obtain ⟨d, -, -, hd, -⟩ := runs hb
      rw [hd] at free
      cases free

/-- In every state of every run, whoever has received the slot of a cog is its
active context, and nobody else works on its state. -/
theorem mutual_exclusion (r : Registry) (memory : A) (h : Reachable (.empty r memory) m)
    (hx : m.cogs.get? g = some x) : m.Exclusive g x :=
  ((ordered_empty r memory).reachable h).exclusive hx

/-- A task has given the slot up to await its guard, and the body of another one has it. -/
def passedOn : Machine Nat Unit Unit :=
  ([.found "cog" 0,
    .arrive (.submit ⟨1⟩ "first" (.await (.field "n > 0" fun n => .ok (0 < n)) fun _ => .exit (.ok ()))
      fun _ => .submit ⟨1⟩ "second" (.access (· + 1) (fun _ => .exit (.ok ())) (.exit (.ok ())))
        fun _ => .exit (.ok ()))] ++
    List.replicate 9 (.step (.caller 1)) ++ List.replicate 6 (.step (.context ⟨1⟩)) ++
    [.step (.context ⟨2⟩)] : List (Action Nat Unit Unit)).foldl perform
  (.empty { namePrefix := "cog", admits := fun _ => true } ())

theorem mutual_exclusion_passed_on :
    ∃ x, passedOn.cogs.get? ⟨1⟩ = some x ∧ passedOn.Runs ⟨1⟩ (.context ⟨2⟩) ⟨2⟩ ∧
      passedOn.look (.context ⟨1⟩) = some (some ⟨1⟩, .wait ⟨1⟩) ∧ passedOn.Exclusive ⟨1⟩ x := by
  obtain ⟨x, hx⟩ : ∃ x, passedOn.cogs.get? ⟨1⟩ = some x :=
    Option.isSome_iff_exists.mp (by decide)
  have runs : passedOn.look (.context ⟨2⟩) = some (some ⟨1⟩, .body (some ⟨⟨2⟩, true⟩)) := by decide
  exact ⟨x, hx, ⟨_, runs, rfl⟩, by decide, mutual_exclusion _ () (reachable_foldl _ _) hx⟩

end ObjectGroups
