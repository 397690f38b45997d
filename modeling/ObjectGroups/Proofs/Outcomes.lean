/-
Each task that has ended is counted once.

There is a counter for each way in which a task can end, and it agrees with the
handles: it is the number of tasks that have ended this way. The cog counts on
its own the tasks that have ended and were not aborted. It does so as the body
ends, one step before the end is entered in the books, so it is one ahead while
a thread is between the two.
-/
import ObjectGroups.Proofs.Lifecycle

namespace ObjectGroups

variable {S A V : Type} {m m' : Machine S A V} {a b : Agent} {g i : CogId} {c : ContextId}
  {own : Option CogId} {s s' : Stance} {x x' : Cog S A V} {k : TaskId} {move : Action S A V}
  {moves : List (Move S A V)} {y y' : Scheduler S A V} {r : Registry} {memory : A}

open Machine Scheduler

/-! ## Handles -/

namespace Scheduler

/-- The tasks that have ended this way. -/
def endings (y : Scheduler S A V) (o : TaskOutcome) : List TaskId :=
  Table.keysWhere (fun d => d.outcome = some o) y.handles

/-- The counters count the handles. -/
def Tallied (y : Scheduler S A V) : Prop := ∀ o, y.tally o = (y.endings o).length

/-- The handle of the task shows that it has ended this way. -/
def Ended (y : Scheduler S A V) (k : TaskId) (o : TaskOutcome) : Prop :=
  ∃ d, y.handles.get? k = some d ∧ decide (d.outcome = some o) = true

theorem mem_endings {o : TaskOutcome} (h : (Table.keys y.handles).Nodup) :
    k ∈ y.endings o ↔ ∃ d, y.handles.get? k = some d ∧ d.outcome = some o := by
  rw [endings, Table.mem_keysWhere h]
  simp

theorem nodup_endings {o : TaskOutcome} (h : (Table.keys y.handles).Nodup) : (y.endings o).Nodup :=
  Table.nodup_keysWhere h

/-- How a task has ended does not depend on the state that its handle shows. -/
theorem ended_modify {o : TaskOutcome} {j : TaskId} {st : TaskState}
    (hh : y'.handles = y.handles.modify j fun d => { d with state := st }) :
    y'.Ended k o ↔ y.Ended k o := by
  unfold Ended
  rw [hh, Table.get?_modify]
  split
  · cases y.handles.get? k <;> simp
  · rfl

end Scheduler

/-- A deed counts the task that ends with it, if one does. -/
theorem Course.tallied (h : Course a g own y y' s s') (hy : y.Faithful) (ht : y.Tallied)
    (hn : (Table.keys y.handles).Nodup) (hn' : (Table.keys y'.handles).Nodup)
    (new : ∀ k, s.letter? = some k → y.handles.get? k = none)
    (offered : ∀ k, s.offers g = some k → y.handles.get? k = some {}) : y'.Tallied := by
  have same {n : Nat} {active : Option ContextId} (counts : y.Counts y' none n active)
      (hk : ∀ o k, y'.Ended k o ↔ y.Ended k o) : y'.Tallied := by
    intro o
    rw [counts.tally, ht o, endings, endings, Table.length_keysWhere_kept hn hn' (hk o)]
    rfl
  have kept {n : Nat} {active : Option ContextId} (counts : y.Counts y' none n active)
      (hh : y'.handles = y.handles) : y'.Tallied := by
    refine same counts fun o k => ?_
    unfold Ended
    rw [hh]
  have ended {j : TaskId} {outcome : TaskOutcome} {n : Nat} {active : Option ContextId}
      (ends : y.Ends y' j outcome) (counts : y.Counts y' (some outcome) n active) : y'.Tallied := by
    obtain ⟨record, hr⟩ := Option.isSome_iff_exists.mp ends.present
    have unfinished (o : TaskOutcome) : ¬ y.Ended j o := by
      rintro ⟨d, hd, shown⟩
      cases (hy.shown hr).symm.trans hd
      simp at shown
    have now (k : TaskId) (o : TaskOutcome) : y'.Ended k o ↔ (k = j ∧ outcome = o) ∨ y.Ended k o := by
      by_cases e : k = j
      · subst e
        have handle : y'.handles.get? k = some { state := .finished, outcome := some outcome } := by
          rw [ends.handles, Table.get?_modify, if_pos rfl, hy.shown hr]
          rfl
        have shown : y'.Ended k o ↔ outcome = o := by simp [Ended, handle]
        simp [unfinished o, shown]
      · unfold Ended
        rw [ends.handles, Table.get?_modify, if_neg e]
        simp [e]
    intro o
    rw [counts.tally, ht o]
    by_cases e : outcome = o
    · rw [if_pos (by rw [e]), endings, endings, Table.length_keysWhere_gained hn hn' (unfinished o) fun k => ?_]
      exact (now k o).trans (by simp [e, Ended])
    · rw [if_neg (by simpa using e), endings, endings, Table.length_keysWhere_kept hn hn' fun k => ?_]
      · rfl
      · exact (now k o).trans (by simp [e, Ended])
  cases h with
  | rest _ tasks counts => exact kept counts tasks.handles
  | unwind _ _ tasks counts => exact kept counts tasks.handles
  | retire _ _ tasks counts => exact kept counts tasks.handles
  | fade _ _ _ tasks counts => exact kept counts tasks.handles
  | prepare _ _ _ hh counts => exact kept counts hh
  | enter letter _ enters counts =>
    refine same counts fun o k => ?_
    unfold Ended
    rw [enters.handles, Table.get?_put]
    split
    · next e => simp [e, new _ letter]
    · rfl
  | withdraw offers _ withdraws counts =>
    refine same counts fun o k => ?_
    unfold Ended
    rw [withdraws.handles, Table.get?_remove]
    split
    · next e => simp [e, offered _ offers]
    · rfl
  | start now _ _ _ hm counts => exact same counts fun o k => ended_modify hm.handles
  | suspend label _ _ _ _ hm counts => exact same counts fun o k => ended_modify hm.handles
  | resume now _ _ _ hm _ counts => exact same counts fun o k => ended_modify hm.handles
  | complete _ _ he counts => exact ended he counts
  | abort _ _ _ _ he counts => exact ended he counts
  | strand _ _ _ he counts => exact ended he counts

/-- In every run, the counters count the handles. -/
theorem History.tallied (h : History (.empty r memory) moves m) (hx : m.cogs.get? g = some x) :
    x.scheduler.Tallied := by
  rw [← books_eq hx]
  refine h.books (P := fun _ y => y.Tallied) (fun o => by cases o <;> rfl) (fun _ _ _ hy => hy) ?_ ?_
  · intro moves m m' move a own loud s s' x x' h ha hact ht hw hd hx
    have ho : m.Ordered := h.reachable.ordered
    have next : History (.empty r memory) (moves ++ [⟨m, move, m'⟩]) m' := .act h ha
    have filed := h.reachable.filed hw.before
    have roll := h.roll.2 hw.before
    have course := filed.course ho ht h.reachable.blank ha hw hd
    refine course.tallied (h.reachable.attended hw.before).faithful hx roll.distinct
      (next.roll.2 hw.here).distinct (fun k letter => ?_) fun k offers => ?_
    · rw [← Option.not_isSome_iff_eq_none]
      intro known
      exact (roll.posted k (roll.known.mp known)).arrived a own s ht.before letter
    · obtain ⟨q, hq⟩ := filed.offers_last ht offers
      rw [← handle?_eq hw.before]
      exact h.handle_of_queued hw.before (by simp [hq])
  · intro moves m m' move a own c s s' x x' h ha hact hb hw hg hx o
    have tally := hx o
    cases hg <;> cases o <;> exact tally

/-! ## Tasks that the cog counts itself -/

/-- The body has ended as the active task, and the end is about to be entered. -/
def Stance.concludes : Stance → Bool
  | .complete _ _ => true
  | _ => false

theorem Stance.slot_of_concludes (h : s.concludes = true) : s.slot = true := by
  cases s <;> first | rfl | cases h

@[simp] theorem Stance.concludes_restage (s : Stance) (stage : Stage) :
    (s.restage stage).concludes = s.concludes := by cases s <;> rfl

theorem Stance.Quiet.concludes (h : s.Quiet own s') : s'.concludes = s.concludes := by
  cases h with
  | enter => simp
  | _ => rfl

/-- A deed in a cog that is not the thread's own neither ends its body nor enters the end. -/
theorem Deed.concludes_guest {loud : Bool} (h : Deed i a own loud s x s' x') (hown : own ≠ some i) :
    s'.concludes = s.concludes := by
  cases h <;> first | rfl | exact absurd rfl hown

/-- A body that ends is counted by the cog at once, and in the books when its end is entered. -/
theorem Deed.reckons {loud : Bool} (h : Deed g a own loud s x s' x')
    (hc : own = some g → ∀ k, s.charge = some k → (x.scheduler.records.get? k).isSome)
    (hs : ∀ k, s = .strand k → s' = .leave →
      x'.ended = if x.scheduler.records.has k then x.ended + 1 else x.ended)
    (honest : ∀ k, s ≠ .complete k .aborted) :
    x'.ended + (x.scheduler.tally .completed + x.scheduler.tally .failed) + s.concludes.toNat =
      x.ended + (x'.scheduler.tally .completed + x'.scheduler.tally .failed) + s'.concludes.toNat := by
  cases h with
  | finish => simp only [Stance.concludes, Bool.toNat_true, Bool.toNat_false]; omega
  | @complete _ k outcome _ now =>
    obtain ⟨-, counts⟩ := ends_complete (hc rfl k rfl) outcome now
    rw [counts.tally, counts.tally]
    cases outcome with
    | aborted => exact absurd rfl (honest k)
    | completed | failed => simp [Stance.concludes]; omega
  | @abort c s k _ now hst =>
    have charge : s.charge = some k := by rcases hst with rfl | ⟨rfl, -⟩ <;> rfl
    obtain ⟨-, counts⟩ := ends_abort (hc rfl k charge) c now
    rw [counts.tally, counts.tally]
    rcases hst with rfl | ⟨rfl, -⟩ <;> simp [Stance.concludes]
  | @strand c k x now =>
    have present : ((x.scheduler.removeWaiter c).records.get? k).isSome :=
      unfinished_of_counted (hs k rfl rfl)
    obtain ⟨-, counts⟩ := ends_strand present c now
    rw [counts.tally, counts.tally]
    simp [Stance.concludes, Scheduler.removeWaiter, tally]
    omega
  | _ =>
    simp [Stance.concludes, tally, Scheduler.enqueue, Scheduler.withdraw, Scheduler.retire,
      Scheduler.suspend, Scheduler.markSuspended, Scheduler.resume, Scheduler.markRunning,
      Scheduler.addWaiter, Scheduler.removeWaiter, Scheduler.markReady]

namespace Machine

/-- A thread of the cog is between the end of its body and the books. -/
def Concluding (m : Machine S A V) (g : CogId) : Prop :=
  ∃ b s, m.look b = some (some g, s) ∧ s.concludes = true

/-- The cog has counted the tasks that have ended and were not aborted, and the one whose end
is about to be entered. -/
def Reckoned (m : Machine S A V) (g : CogId) (x : Cog S A V) : Prop :=
  ∃ n, x.ended = x.scheduler.tally .completed + x.scheduler.tally .failed + n ∧
    (n = 1 ∧ m.Concluding g ∨ n = 0 ∧ ¬ m.Concluding g)

theorem Reckoned.same (h : m.Reckoned g x) (hx : x'.ended = x.ended)
    (ht : ∀ o, x'.scheduler.tally o = x.scheduler.tally o) (hm : m'.Concluding g ↔ m.Concluding g) :
    m'.Reckoned g x' := by
  obtain ⟨n, ended, hn⟩ := h
  exact ⟨n, by rw [hx, ended, ht, ht], by rwa [hm]⟩

/-- One thread at most is about to enter the end of a task. -/
theorem Ordered.concludes_alone (ho : m.Ordered) {s₁ : Stance} (ha : m.look a = some (some g, s))
    (hb : m.look b = some (some g, s₁)) (hs : s.concludes = true) (hs₁ : s₁.concludes = true) : b = a := by
  obtain ⟨⟨c, rfl⟩, y, hy⟩ := ho.home ha
  obtain ⟨⟨d, rfl⟩, -⟩ := ho.home hb
  have active := (ho.holder ha hy (Stance.slot_of_concludes hs)).1
  cases active.symm.trans (ho.holder hb hy (Stance.slot_of_concludes hs₁)).1
  rfl

end Machine

section
variable (ht : Turns m a own s s' m')
include ht

theorem Turns.concluding (h : own = some g → s'.concludes = s.concludes) :
    m'.Concluding g ↔ m.Concluding g := by
  constructor
  · rintro ⟨b, s₁, hl, hs⟩
    rcases ht.cases hl with ⟨-, rfl, rfl⟩ | ⟨-, hl⟩
    · exact ⟨a, s, ht.before, (h rfl).symm.trans hs⟩
    · exact ⟨b, s₁, hl, hs⟩
  · rintro ⟨b, s₁, hl, hs⟩
    by_cases e : b = a
    · rw [e, ht.before] at hl
      cases hl
      exact ⟨a, s', ht.after, (h rfl).trans hs⟩
    · exact ⟨b, s₁, by rw [ht.look, if_neg e, hl], hs⟩

/-- The thread that acts is the one that is about to enter an end, or comes to be it. -/
theorem Turns.concluders (ho : m.Ordered) (ho' : m'.Ordered) (hown : own = some g) {n : Nat}
    (hn : n = 1 ∧ m.Concluding g ∨ n = 0 ∧ ¬ m.Concluding g) :
    ∃ n', (n' = 1 ∧ m'.Concluding g ∨ n' = 0 ∧ ¬ m'.Concluding g) ∧
      n' + s.concludes.toNat = n + s'.concludes.toNat := by
  subst hown
  by_cases equal : s'.concludes = s.concludes
  · exact ⟨n, by rwa [ht.concluding fun _ => equal], by rw [equal]⟩
  · cases hs : s.concludes with
    | true =>
      have hs' : s'.concludes = false := by simpa [hs] using equal
      have after : ¬ m'.Concluding g := by
        rintro ⟨b, s₁, hl, hs₁⟩
        rcases ht.cases hl with ⟨-, -, rfl⟩ | ⟨hne, hl⟩
        · cases hs₁.symm.trans hs'
        · exact hne (ho.concludes_alone ht.before hl hs hs₁)
      have one : n = 1 := (hn.resolve_right fun ⟨_, nobody⟩ => nobody ⟨a, s, ht.before, hs⟩).1
      exact ⟨0, .inr ⟨rfl, after⟩, by simp [hs', one]⟩
    | false =>
      have hs' : s'.concludes = true := by simpa [hs] using equal
      have before : ¬ m.Concluding g := by
        rintro ⟨b, s₁, hl, hs₁⟩
        have hne : b ≠ a := by
          rintro rfl
          cases hl.symm.trans ht.before
          cases hs.symm.trans hs₁
        have kept : m'.look b = some (some g, s₁) := by rw [ht.look, if_neg hne, hl]
        exact hne (ho'.concludes_alone ht.after kept hs' hs₁)
      have zero : n = 0 := (hn.resolve_left fun ⟨_, somebody⟩ => before somebody).1
      exact ⟨1, .inl ⟨rfl, a, s', ht.after, hs'⟩, by simp [hs', zero]⟩

end

theorem Births.concluding (ho : m.Ordered) {cog : Option CogId} {first : Stance}
    (hb : Births m a own s s' c cog first m') (hs : s'.concludes = s.concludes)
    (hf : first.concludes = false) : m'.Concluding g ↔ m.Concluding g := by
  have absent := ho.unlaunched hb.before hb.launches
  constructor
  · rintro ⟨b, s₁, hl, hs₁⟩
    rcases hb.cases hl with ⟨-, rfl, rfl⟩ | ⟨-, -, -, rfl⟩ | ⟨-, -, hl⟩
    · exact ⟨a, s, hb.before, hs.symm.trans hs₁⟩
    · cases hf.symm.trans hs₁
    · exact ⟨b, s₁, hl, hs₁⟩
  · rintro ⟨b, s₁, hl, hs₁⟩
    by_cases e : b = a
    · rw [e, hb.before] at hl
      cases hl
      exact ⟨a, s', hb.after, hs.trans hs₁⟩
    · have hbc : b ≠ .context c := by
        rintro rfl
        cases absent.symm.trans hl
      exact ⟨b, s₁, by rw [hb.look, if_neg e, if_neg hbc, hl], hs₁⟩

namespace Machine

theorem concluding_of_look (h : ∀ b, m'.look b = m.look b) : m'.Concluding g ↔ m.Concluding g := by
  simp only [Concluding, h]

/-- Threads that come and go are not about to enter the end of a task. -/
theorem concluding_but (others : ∀ b, b ≠ a → m'.look b = m.look b)
    (before : ∀ s, m.look a = some (some g, s) → s.concludes = false)
    (after : ∀ s, m'.look a = some (some g, s) → s.concludes = false) :
    m'.Concluding g ↔ m.Concluding g := by
  constructor
  · rintro ⟨b, s, hl, hs⟩
    have hne : b ≠ a := by
      rintro rfl
      cases (after s hl).symm.trans hs
    exact ⟨b, s, others b hne ▸ hl, hs⟩
  · rintro ⟨b, s, hl, hs⟩
    have hne : b ≠ a := by
      rintro rfl
      cases (before s hl).symm.trans hs
    exact ⟨b, s, (others b hne).trans hl, hs⟩

theorem Reckoned.deed {loud : Bool} (hx : m.Reckoned g x) (h : Reachable (.empty r memory) m)
    (ha : m.act move = some m') (ht : Turns m a own s s' m') (hw : Works m g x x' m')
    (hd : Deed g a own loud s x s' x') : m'.Reckoned g x' := by
  have ho : m.Ordered := h.ordered
  obtain ⟨n, ended, hn⟩ := hx
  have reckons := hd.reckons (fun hown k hk => (h.filed hw.before).charged ho ht.before hown hk)
    (fun k e e' => ho.stranded ht ha hw hd e e') fun k e => Honest.reachable h a own k (e ▸ ht.before)
  by_cases hown : own = some g
  · obtain ⟨n', hn', sum⟩ := ht.concluders ho (ho.act ha) hown hn
    exact ⟨n', by omega, hn'⟩
  · rw [hd.concludes_guest hown] at reckons
    refine ⟨n, by omega, ?_⟩
    rwa [ht.concluding fun e => absurd e hown]

/-- In every run, the cog counts the tasks that have ended and were not aborted. -/
theorem Reachable.reckoned (h : Reachable (.empty r memory) m) (hx : m.cogs.get? g = some x) :
    m.Reckoned g x := by
  induction h generalizing x with
  | refl => cases hx
  | @act m m' move h ha ih =>
    have ho : m.Ordered := h.ordered
    have still (hc : m'.cogs = m.cogs) (hm : m'.Concluding g ↔ m.Concluding g) : m'.Reckoned g x :=
      (ih (hc ▸ hx)).same rfl (fun _ => rfl) hm
    have shift := shift_act ho ha
    generalize move.actor? = actor at shift
    cases shift with
    | quiet ht hq hc => exact still hc (ht.concluding fun _ => hq.concludes)
    | @deed a own i loud s s' y y' ht hw hd =>
      rcases hw.cases hx with ⟨rfl, rfl⟩ | ⟨hne, hx₀⟩
      · exact (ih hw.before).deed h ha ht hw hd
      · refine (ih hx₀).same rfl (fun _ => rfl) (ht.concluding fun hown => hd.concludes_guest ?_)
        rw [hown]
        exact fun e => hne (Option.some.inj e)
    | allocate ht _ hc => exact still hc (ht.concluding fun _ => by simp)
    | birth hb hw hg =>
      have goesOn := hb.concluding (g := g) ho (by cases hg <;> rfl) rfl
      rcases hw.cases hx with ⟨rfl, rfl⟩ | ⟨-, hx₀⟩
      · refine (ih hw.before).same ?_ (fun o => ?_) goesOn
        · cases hg <;> rfl
        · cases hg <;> cases o <;> rfl
      · exact (ih hx₀).same rfl (fun _ => rfl) goesOn
    | launch hb hc => exact still hc (hb.concluding ho rfl rfl)
    | letter ht hs hc =>
      refine still hc (ht.concluding fun _ => ?_)
      rcases hs with rfl | ⟨i, view, rfl, -⟩ <;> rfl
    | @gone a own s hl hs hgone others hc =>
      refine still hc (concluding_but (a := a) (fun b hb => (others b hb).look) ?_ ?_)
      · intro s₁ hl₁
        cases hl.symm.trans hl₁
        rcases hs with rfl | ⟨-, seat, rfl⟩ <;> rfl
      · intro s₁ hl₁
        simp [look, hgone] at hl₁
    | arrive hl others hc =>
      refine still hc (concluding_but (fun b hb => (others b hb).look) ?_ ?_)
      · intro s₁ hl₁
        exact absurd (ho.newCaller (by simp [hl₁])) (Nat.lt_irrefl _)
      · intro s₁ hl₁
        cases hl.symm.trans hl₁
    | found name state others hc =>
      have same : m'.Concluding g ↔ m.Concluding g := concluding_of_look fun b => (others b).look
      rw [hc, Table.get?_put] at hx
      split at hx
      · next e =>
        -- Nobody works for a cog that has just been founded.
        cases hx
        refine ⟨0, rfl, .inr ⟨rfl, ?_⟩⟩
        rintro ⟨b, s, hl, -⟩
        rw [(others b).look] at hl
        obtain ⟨-, y, hy⟩ := ho.home hl
        have old := ho.newCog (Option.isSome_iff_exists.mpr ⟨y, hy⟩)
        rw [e] at old
        exact Nat.lt_irrefl _ old
      · exact (ih hx).same rfl (fun _ => rfl) same
    | furnish hth hc hf =>
      have same : m'.Concluding g ↔ m.Concluding g := concluding_of_look fun b => (Stirred.same hth).look
      rw [hc, Table.get?_modify] at hx
      split at hx
      · obtain ⟨y, hy, rfl⟩ := Option.map_eq_some_iff.mp hx
        rw [hf y]
        exact (ih hy).same rfl (fun _ => rfl) same
      · exact (ih hx).same rfl (fun _ => rfl) same
    | rest others hc => exact still hc (concluding_of_look fun b => (others b).look)

end Machine

end ObjectGroups
