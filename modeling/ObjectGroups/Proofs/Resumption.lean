/-
A task goes on only after its guard has been found to hold, on the state it
then sees.

Between the wait for a guard and the moment the task has the slot again,
others may run, and the guard may change its mind any number of times. What
counts is the one poll under the lock, in the critical section in which the
slot is taken: from there on nobody else can touch the state, since nobody
else can have the slot.
-/
import ObjectGroups.Proofs.Strides

namespace ObjectGroups

variable {S A V : Type} {m m' n n' : Machine S A V} {g : CogId} {c : ContextId} {x : Cog S A V}

namespace Machine

/-- What can come of a machine while `P` holds all the time. -/
inductive Stays (P : Machine S A V → Prop) (m : Machine S A V) : Machine S A V → Prop where
  | refl : P m → Stays P m m
  | act {n n' : Machine S A V} {act : Action S A V} :
      Stays P m n → n.act act = some n' → P n' → Stays P m n'

theorem Stays.holds {P : Machine S A V → Prop} (h : Stays P m n) : P n := by
  cases h with
  | refl h => exact h
  | act _ _ h => exact h

theorem Stays.reachable {P : Machine S A V → Prop} (h : Stays P m n) : Reachable m n := by
  induction h with
  | refl _ => exact .refl
  | act _ h _ ih => exact .act ih h

/-- The body behind the await `aw` has been given the answer `r` and has not begun to act on it. -/
def Answered (c : ContextId) (g : CogId) (aw : Awaiting S A V) (r : Exit TaskError Unit)
    (m : Machine S A V) : Prop :=
  ∃ t, m.threads.get? (.context c) = some t ∧ t.cog = some g ∧
    t.control.behind = .run (some ⟨aw.task, true⟩) (aw.next r)

/-- The state of the cog, if it is there. -/
def stateOf (m : Machine S A V) (g : CogId) : Option S := (m.cogs.get? g).map (·.state)

/-- Nobody but the task itself works on the state of its cog as long as it has the slot. -/
structure Undisturbed (m : Machine S A V) (c : ContextId) (g : CogId) (aw : Awaiting S A V) :
    Prop where
  /-- When the body begins to act on the answer, it sees the state as it is now. -/
  seen {n : Machine S A V} : Stays (Answered c g aw (.ok ())) m n → n.stateOf g = m.stateOf g
  alone {n n' : Machine S A V} {act : Action S A V} :
    Stays (·.Runs g (.context c) aw.task) m n → n.act act = some n' →
      n'.stateOf g = n.stateOf g ∨ act = .step (.context c)

/-- What one action makes of a thread in the await `aw`. -/
inductive Fate (m : Machine S A V) (act : Action S A V) (c : ContextId) (g : CogId)
    (aw : Awaiting S A V) (m' : Machine S A V) : Prop where
  | awaits {t : Thread S A V} : m'.threads.get? (.context c) = some t → t.cog = some g →
      t.control.await? = some aw → Fate m act c g aw m'
  /-- The await fails: the body does not get `ok`. -/
  | ends {t : Thread S A V} (r : Exit TaskError Unit) (active : Bool) : r ≠ .ok () →
      m'.threads.get? (.context c) = some t →
      t.control.behind = .run (some ⟨aw.task, active⟩) (aw.next r) → Fate m act c g aw m'
  /-- The task takes the slot after a poll in the same critical section. -/
  | resumes : act = .step (.context c) → Resumes m c g aw m' → Answered c g aw (.ok ()) m' →
      m'.Runs g (.context c) aw.task → Undisturbed m' c g aw → Fate m act c g aw m'

end Machine

/-! ## The state that the body sees -/

/-- No body comes back to itself by what it finds in the state. -/
theorem Body.next_ne (b : Body S A V) {change : S → S} {next : S → Body S A V}
    {refused : Body S A V} (h : b = .access change next refused) (s : S) : next s ≠ b := by
  induction b generalizing change next refused s with
  | access change' next' refused' ih _ =>
    cases h
    intro e
    exact ih s e s rfl
  | _ => cases h

namespace Machine

theorem Answered.runs {aw : Awaiting S A V} {r : Exit TaskError Unit}
    (h : Answered c g aw r m) : m.Runs g (.context c) aw.task := by
  obtain ⟨t, ht, hg, hk⟩ := h
  refine ⟨.body (some ⟨aw.task, true⟩), ?_, rfl⟩
  rw [look_eq m _ ht, hg, ← Control.stance_behind, hk]
  rfl

/-- While the body of a task holds the slot, the state of the cog changes only in its own steps. -/
theorem Ordered.state_of_runs (ho : m.Ordered) {k : TaskId} {act : Action S A V}
    (hr : m.Runs g (.context c) k) (h : m.act act = some m') :
    m'.stateOf g = m.stateOf g ∨ act = .step (.context c) := by
  by_cases hact : act = .step (.context c)
  · exact .inr hact
  · obtain ⟨s, hl, hs⟩ := id hr
    obtain ⟨-, x, hx⟩ := ho.home hl
    have stirred := (shift_act ho h).other ho (by simp [hl]) (Action.actor_ne hact)
    obtain ⟨-, x', hx'⟩ := (ho.act h).home (stirred.look.trans hl)
    rcases (ho.exclusive hx).state h hx' with e | ⟨d, l, rfl, hd⟩
    · exact .inl (by simp [stateOf, hx, hx', e])
    · obtain ⟨e, -⟩ := (ho.exclusive hx).alone hd hr
      exact .inr (by rw [e])

/-- A body that has not begun to act on an answer has not touched the state. -/
theorem state_of_answered {aw : Awaiting S A V} {r : Exit TaskError Unit}
    (hn : Answered c g aw r m) (hn' : Answered c g aw r m')
    (h : m.act (.step (.context c)) = some m') : m'.cogs = m.cogs := by
  obtain ⟨t, ht, hg, hk⟩ := hn
  obtain ⟨t', ht', -, hk'⟩ := hn'
  have took := step_of ht (show m.step (.context c) = some m' from h)
  generalize t.control = k at hk took
  cases took with
  | tells => exact cogs_deliver ..
  | @runs seat b _ took =>
    have hb : b = aw.next r := by
      injection hk
    -- No step of a body but for an access changes the cogs and goes on, and that one leads elsewhere.
    cases took with
    | completes | fails =>
      cases ht'.symm.trans (thread_set _ ht (.same rfl))
      cases hk'
    | accesses =>
      cases ht'.symm.trans (thread_set _ ht (.same rfl))
      injection hk' with _ hk'
      exact absurd (hk'.trans hb.symm) (Body.next_ne _ rfl _)
    | _ => rfl
  | _ => simp [Control.behind] at hk

theorem Ordered.undisturbed (ho : m.Ordered) {aw : Awaiting S A V} : Undisturbed m c g aw where
  seen h := by
    induction h with
    | refl _ => rfl
    | @act n n' act hn h hn' ih =>
      have hno := ho.reachable hn.reachable
      refine .trans ?_ ih
      rcases hno.state_of_runs hn.holds.runs h with e | rfl
      · exact e
      · unfold stateOf
        rw [state_of_answered hn.holds hn' h]
  alone hn h := (ho.reachable hn.reachable).state_of_runs hn.holds h

theorem Ordered.fate (ho : m.Ordered) {t : Thread S A V} {aw : Awaiting S A V}
    (ht : m.threads.get? (.context c) = some t) (hg : t.cog = some g)
    (hk : t.control.await? = some aw) {act : Action S A V} (h : m.act act = some m') :
    Fate m act c g aw m' := by
  by_cases hact : act = .step (.context c)
  · subst hact
    obtain ⟨k, ht', hk'⟩ := step_outcome ho ht hg hk h
    cases hk' with
    | awaits hk' => exact .awaits ht' hg hk'
    | aborted hk' _ => exact .ends (.error .interrupted) false nofun ht' hk'
    | failed e hk' _ => exact .ends (.error (.guard e)) true nofun ht' hk'
    | unwound p hk' _ => exact .ends (.panic p) false nofun ht' hk'
    | resumes hk' _ hr =>
      have answered : Answered c g aw (.ok ()) m' := ⟨_, ht', hg, hk'⟩
      exact .resumes rfl hr answered answered.runs ((ho.act h).undisturbed)
  · rcases ho.stays h ht (Action.actor_ne hact) with stays | roused
    · exact .awaits stays hg hk
    · exact .awaits roused hg ((Control.await?_rouse _).trans hk)

end Machine

open Machine

/-- In every run, an await goes on, or fails, or ends with a poll of its guard
that holds on the state which the body then finds: the poll and the taking of
the slot are one critical section, and nobody else works on the state before
the task gives the slot up. -/
theorem resumption_justified (r : Registry) (memory : A) (h : Reachable (.empty r memory) m)
    {t : Thread S A V} {aw : Awaiting S A V} (ht : m.threads.get? (.context c) = some t)
    (hg : t.cog = some g) (hk : t.control.await? = some aw) {act : Action S A V}
    (ha : m.act act = some m') : Fate m act c g aw m' :=
  ((ordered_empty r memory).reachable h).fate ht hg hk ha

/-- The other task has made the guard hold and left; the first one has the lock and is about to ask. -/
def askedAgain : Machine Nat Unit Unit :=
  (List.replicate 6 (.step (.context ⟨2⟩)) ++ List.replicate 5 (.step (.context ⟨1⟩)) :
    List (Action Nat Unit Unit)).foldl perform passedOn

theorem resumption_justified_asked_again :
    ∃ t aw m', askedAgain.threads.get? (.context ⟨1⟩) = some t ∧ t.control.await? = some aw ∧
      askedAgain.act (.step (.context ⟨1⟩)) = some m' ∧ m'.Runs ⟨1⟩ (.context ⟨1⟩) ⟨1⟩ ∧
      Fate askedAgain (.step (.context ⟨1⟩)) ⟨1⟩ ⟨1⟩ aw m' := by
  have awaits : ((askedAgain.threads.get? (.context ⟨1⟩)).bind (·.control.await?)).isSome := by decide +kernel
  have works : (askedAgain.threads.get? (.context ⟨1⟩)).map (·.cog) = some (some ⟨1⟩) := by decide +kernel
  have steps : ((askedAgain.act (.step (.context ⟨1⟩))).bind (·.look (.context ⟨1⟩))) =
      some (some ⟨1⟩, .body (some ⟨⟨1⟩, true⟩)) := by decide +kernel
  obtain ⟨aw, awaits⟩ := Option.isSome_iff_exists.mp awaits
  obtain ⟨t, ht, hk⟩ := Option.bind_eq_some_iff.mp awaits
  obtain ⟨m', ha, hl⟩ := Option.bind_eq_some_iff.mp steps
  rw [ht] at works
  exact ⟨t, aw, m', ht, hk, ha, ⟨_, hl, rfl⟩,
    resumption_justified _ () ((reachable_foldl _ _).trans (reachable_foldl _ _)) ht
      (Option.some.inj works) hk ha⟩

end ObjectGroups
