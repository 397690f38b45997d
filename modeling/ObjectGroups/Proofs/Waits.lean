/-
A wait outside the scheduler cannot oversleep.

What a waiting thread depends on is its `Outlook`: the state and the sight it
would find, the futures that will tell it, and who is about to. A guard is
`Covered` while the thread will be told as soon as it may have come true: the
guard has been false since it was last asked, and it has named the instant at
which the clock may change that; until it has, it is merely `Found` false.
Whatever happens outside keeps this (`Outlook.Later`), and so does each step of
a wait for a guard of the library.
-/
import ObjectGroups.Proofs.Looks
import ObjectGroups.Proofs.Paces
import ObjectGroups.Proofs.Timing

namespace ObjectGroups

variable {S : Type}

/-! ## What a waiter is told -/

structure Outlook (S : Type) where
  sight : Sight
  state : S
  /-- The future is resolved, or will tell the thread when it is. -/
  listed : FutureId → Prop
  /-- Somebody is about to tell the thread. -/
  ringing : Prop
  /-- The slot is taken, and who gives it up will tell the thread. -/
  busy : Prop

namespace Outlook

variable (o : Outlook S) {o' : Outlook S} {told n n' : Prop} {G : Guard S} {d : Option Instant}

/-- Since the guard was false and named the deadline `d`, nothing has changed but the clock. -/
def Calm (G : Guard S) (d : Option Instant) : Prop :=
  ∃ v, (∀ f ∈ G.reads, v.resolved f = o.sight.resolved f) ∧ G.poll v o.state = .ok false ∧
    G.deadline v = .ok d

/-- The thread that waits for `G` has been told, as `n` says, or will be in time, or `P` holds. -/
structure Guarded (n : Prop) (G : Guard S) (P : Prop) : Prop where
  listed : ∀ f ∈ G.reads, o.listed f
  watch : n ∨ o.ringing ∨ o.busy ∨ P

/-- The thread has until `d`. -/
abbrev Covered (n : Prop) (G : Guard S) (d : Option Instant) : Prop := o.Guarded n G (o.Calm G d)

/-- The thread has asked for the guard, but not for the deadline. -/
abbrev Found (n : Prop) (G : Guard S) : Prop := o.Guarded n G (G.poll o.sight o.state = .ok false)

/-- What others do to the outlook of a waiter: `told` says that they have told the waiter. -/
structure Later (o o' : Outlook S) (told : Prop) : Prop where
  now : o.sight.now ≤ o'.sight.now
  resolved : ∀ f, o.sight.resolved f = true → o'.sight.resolved f = true
  listed : ∀ f, o.listed f → o'.listed f
  news : ∀ f, o.listed f → o.sight.resolved f = false → o'.sight.resolved f = true → o'.ringing
  ringing : o.ringing → o'.ringing ∨ told
  busy : o.busy → o'.busy ∨ told
  state : o.busy ∨ o'.state = o.state

variable {o}

/-- The futures that `G` reads are as they were, or the thread is about to be told. -/
theorem Later.same_or_news (h : Later o o' told) (hl : ∀ f ∈ G.reads, o.listed f) :
    o'.ringing ∨ ∀ f ∈ G.reads, o.sight.resolved f = o'.sight.resolved f := by
  by_cases hn : ∃ f ∈ G.reads, o.sight.resolved f = false ∧ o'.sight.resolved f = true
  · obtain ⟨f, hf, hb, ha⟩ := hn
    exact .inl (h.news f (hl f hf) hb ha)
  · refine .inr fun f hf => ?_
    cases hb : o.sight.resolved f with
    | true => exact (h.resolved f hb).symm
    | false => cases ha : o'.sight.resolved f with
      | false => rfl
      | true => exact absurd ⟨f, hf, hb, ha⟩ hn

theorem Guarded.later {P P' : Prop} (h : Later o o' told) (hc : o.Guarded n G P)
    (ht : told → n') (hn : n → n') (hP : P → o'.state = o.state →
      (∀ f ∈ G.reads, o.sight.resolved f = o'.sight.resolved f) → P') : o'.Guarded n' G P' := by
  refine ⟨fun f hf => h.listed f (hc.listed f hf), ?_⟩
  have of_busy (hb : o.busy) : n' ∨ o'.ringing ∨ o'.busy ∨ P' := by
    rcases h.busy hb with hb | hb
    · exact .inr (.inr (.inl hb))
    · exact .inl (ht hb)
  rcases hc.watch with hw | hw | hw | hw
  · exact .inl (hn hw)
  · rcases h.ringing hw with hr | hr
    · exact .inr (.inl hr)
    · exact .inl (ht hr)
  · exact of_busy hw
  · rcases h.state with hb | hs
    · exact of_busy hb
    · rcases h.same_or_news hc.listed with hr | hr
      · exact .inr (.inl hr)
      · exact .inr (.inr (.inr (hP hw hs hr)))

theorem Covered.later (h : Later o o' told) (hc : o.Covered n G d) (ht : told → n')
    (hn : n → n') : o'.Covered n' G d :=
  Guarded.later h hc ht hn fun ⟨v, hv, hp, hd⟩ hs hr =>
    ⟨v, fun f hf => (hv f hf).trans (hr f hf), hs ▸ hp, hd⟩

theorem Found.later (h : Later o o' told) (hg : G.punctual = true) (hc : o.Found n G)
    (hnow : o'.sight.now = o.sight.now) (ht : told → n') (hn : n → n') : o'.Found n' G := by
  refine Guarded.later h hc ht hn fun hw hs hr => ?_
  rw [hs, ← Guard.poll_congr hg (fun _ => hnow.symm) hr]
  exact hw

/-- A thread that has found its guard false and asks for the deadline is covered until then. -/
theorem Found.aim (h : o.Found n G) (hd : G.deadline o.sight = .ok d) : o.Covered n G d := by
  refine ⟨h.listed, ?_⟩
  rcases h.watch with hw | hw | hw | hw
  · exact .inl hw
  · exact .inr (.inl hw)
  · exact .inr (.inr (.inl hw))
  · exact .inr (.inr (.inr ⟨o.sight, fun _ _ => rfl, hw, hd⟩))

/-- As long as nobody tells a covered thread, and its deadline has not passed, its guard does not hold. -/
theorem Covered.not_true (hg : G.punctual = true) (h : o.Covered n G d) (hn : ¬ n)
    (hr : ¬ o.ringing) (hb : ¬ o.busy) (hd : Instant.due o.sight.now d = false) :
    G.poll o.sight o.state ≠ .ok true := by
  intro ht
  rcases h.watch with hw | hw | hw | ⟨v, hv, hp, hv'⟩
  · exact hn hw
  · exact hr hw
  · exact hb hw
  · obtain ⟨e, he, hle⟩ := Guard.deadline_passed hg hv hp ht
    rw [hv'] at he
    cases he
    simp [Instant.due, hle] at hd

end Outlook

/-! ## Guards that a wait goes through -/

/-- A property that an `all` hands down to its parts, and that no user's guard has. -/
structure Guard.Inherited (P : Guard S → Prop) : Prop where
  all {gs : List (Guard S)} : P (.all gs) → ∀ g ∈ gs, P g
  timer {d : Option Instant} {r : Span} : P (.timer d r) → P (.timer d 0)
  user {u : UserGuard S} : ¬ P (.user u)

theorem Guard.library_inherited : Guard.Inherited (S := S) fun g => g.library = true where
  all h := allLibrary_iff.mp h
  timer h := h
  user := Bool.false_ne_true

/-- `g` is a guard whose deadlines can be relied upon, and `G` does not hold unless `g` does. -/
structure Guard.Part (G g : Guard S) : Prop where
  punctual : g.punctual = true
  entailed : ∀ v s, G.poll v s = .ok true → g.poll v s = .ok true

namespace Guard.Part

variable {G : Guard S}

theorem self (h : G.punctual = true) : G.Part G := ⟨h, fun _ _ ht => ht⟩

theorem inherited : Guard.Inherited G.Part where
  all h g hg := ⟨punctual_of_joint (belowAll_of_timed h.punctual g hg),
    fun v s ht => pollAll_true.mp (h.entailed v s ht) g hg⟩
  timer h := ⟨rfl, h.entailed⟩
  user h := Bool.false_ne_true h.punctual

end Guard.Part

namespace WaitPoint

/-- The wait is for a guard with the property. -/
def Within (P : Guard S → Prop) : WaitPoint S → Prop
  | .enter g => P g
  | .future f => P (.future f)
  | .join f => P (.future f)
  | .recheck f => P (.future f)
  | .timer d => P (.timer (some d) 0)
  | .never => P (.timer none 0)
  | .anyPoll gs _ => P (.any gs)
  | .anyAim gs _ => P (.any gs)
  | .anyLast gs => P (.any gs)
  | .user _ _ => False
  | .park d _ (.future f) => d = none ∧ P (.future f)
  | .park d _ (.timer e) => d = some e ∧ P (.timer (some e) 0)
  | .park d _ .never => d = none ∧ P (.timer none 0)
  | .park _ _ (.any gs) => P (.any gs)
  | .park _ _ (.user _ _) => False
  | .done _ => True

/-- A thread at this point of a wait will be told; `permit` says whether its parker has a permit. -/
def Watched (o : Outlook S) (permit : Bool) : WaitPoint S → Prop
  | .recheck f => o.listed f
  | .anyPoll gs _ => ∀ f ∈ (Guard.any gs).reads, o.listed f
  | .anyAim gs _ => o.Found (permit = true) (.any gs)
  | .park _ sleep (.future f) =>
    o.listed f ∧ (o.sight.resolved f = false ∨ o.ringing ∨ (permit = true ∧ sleep ≠ .asleep false))
  | .park d sleep (.any gs) => o.Covered (permit = true ∧ sleep ≠ .asleep false) (.any gs) d
  | _ => True

/-- About to ask an `any` for its deadline. -/
def aims : WaitPoint S → Bool
  | .anyAim _ _ => true
  | _ => false

end WaitPoint

namespace Wait

variable {P : Guard S → Prop} {w : Wait S} {v : Sight} {s : S} {p : Parker} {move : WaitMove S}

structure Within (P : Guard S → Prop) (w : Wait S) : Prop where
  point : w.point.Within P
  rest : ∀ frame ∈ w.frames, ∀ g ∈ frame.2, P g

theorem Within.start {g : Guard S} (h : P g) : (Wait.start g).Within P := ⟨h, nofun⟩

theorem Within.notify (h : w.Within P) : w.notify.Within P := by
  obtain ⟨point, frames⟩ := w
  cases point with
  | park d sleep after => cases after <;> exact ⟨h.point, h.rest⟩
  | _ => exact h

theorem Within.step (h : w.Within P) (hP : Guard.Inherited P) (hs : w.step v s p = some move) :
    move.wait.Within P := by
  have part := h.point
  cases step_paces hs with
  | goes hy =>
    refine ⟨?_, h.rest⟩
    cases hy with
    | answers => trivial
    | timer | never => exact hP.timer part
    | user u => exact absurd part hP.user
    | parksFuture | parksTimer | parksNever => exact ⟨rfl, part⟩
    | evaluates | parksUser => cases part
    | _ => exact part
  | descends g gs =>
    have parts := hP.all part
    rw [List.forall_mem_cons] at parts
    exact ⟨parts.1, List.forall_mem_cons.mpr ⟨parts.2, h.rest⟩⟩
  | joins | subscribes => exact ⟨part, h.rest⟩
  | subscribeFailed => exact ⟨trivial, h.rest⟩
  | @sleeps d sleep after =>
    refine ⟨?_, h.rest⟩
    cases after <;> exact part
  | @wakes d sleep after frames r =>
    refine ⟨?_, h.rest⟩
    cases after with
    | user g next => cases part
    | any gs => cases r with
      | error e => trivial
      | ok _ => exact part
    | _ => cases r with
      | error e => trivial
      | ok _ => exact part.2
  | passes b held g gs =>
    have frames := List.forall_mem_cons.mp h.rest
    have parts := List.forall_mem_cons.mp frames.1
    exact ⟨parts.1, List.forall_mem_cons.mpr ⟨parts.2, frames.2⟩⟩
  | ends => exact ⟨trivial, (List.forall_mem_cons.mp h.rest).2⟩

/-- The thread is asleep, and neither its deadline nor a notification ends that. -/
theorem asleep_of_blocked (hs : w.step v s p = none) (hr : w.result? = none) :
    ∃ d after, w.point = .park d (.asleep false) after ∧ Instant.due v.now d = false := by
  obtain ⟨point, frames⟩ := w
  cases point with
  | enter g => cases g with
    | timer d r => cases d <;> cases hs
    | all gs => cases gs <;> cases hs
    | _ => cases hs
  | user g plan => cases plan <;> cases hs
  | park d sleep after =>
    simp only [Wait.step] at hs
    split at hs
    · next hl =>
      cases sleep with
      | awake => cases hl
      | asleep notified => cases notified with
        | true => cases hl
        | false =>
          refine ⟨d, after, rfl, ?_⟩
          simpa [Parker.look] using hl
    · cases hs
    · cases hs
  | done r => cases frames with
    | nil => cases hr
    | cons frame frames =>
      obtain ⟨held, rest⟩ := frame
      cases r with
      | ok b => cases rest <;> cases hs
      | _ => cases hs
  | _ => cases hs

end Wait

/-! ## A wait is watched all the time -/

section
open Outlook

variable {o o' : Outlook S} {told : Prop} {G : Guard S} {w : Wait S} {permit permit' notified : Bool}

/-- What others do keeps a waiter watched: who tells it leaves a permit and notifies it. -/
theorem Wait.watched_later (hw : w.Within G.Part) (h : w.point.Watched o permit) (hl : o.Later o' told)
    (hnow : w.point.aims = true → o'.sight.now = o.sight.now)
    (hp : permit = true → permit' = true) (ht : told → permit' = true ∧ notified = true) :
    (if notified then w.notify else w).point.Watched o' permit' := by
  obtain ⟨point, frames⟩ := w
  have awake {sleep : Sleep} (hn : permit = true ∧ sleep ≠ .asleep false) :
      permit' = true ∧ (if notified then sleep.notify else sleep) ≠ .asleep false := by
    refine ⟨hp hn.1, ?_⟩
    cases notified with
    | false => exact hn.2
    | true => cases sleep <;> simp [Sleep.notify]
  have roused {sleep : Sleep} (hn : told) :
      permit' = true ∧ (if notified then sleep.notify else sleep) ≠ .asleep false := by
    rw [(ht hn).2]
    exact ⟨(ht hn).1, by cases sleep <;> simp [Sleep.notify]⟩
  have still {x : WaitPoint S} (hx : x.Watched o' permit')
      (hn : (Wait.notify ⟨x, frames⟩).point = x) :
      (if notified then Wait.notify ⟨x, frames⟩ else ⟨x, frames⟩).point.Watched o' permit' := by
    cases notified with
    | false => exact hx
    | true => simpa [hn] using hx
  cases point with
  | recheck f => exact still (x := .recheck f) (hl.listed f h) rfl
  | anyPoll gs external => exact still (x := .anyPoll gs external) (fun f hf => hl.listed f (h f hf)) rfl
  | anyAim gs external =>
    have found : o'.Found (permit' = true) (.any gs) :=
      Found.later hl hw.point.punctual h (hnow rfl) (fun hn => (ht hn).1) hp
    exact still (x := .anyAim gs external) found rfl
  | park d sleep after =>
    have parked : (if notified then Wait.notify ⟨.park d sleep after, frames⟩
        else ⟨.park d sleep after, frames⟩).point =
          .park d (if notified then sleep.notify else sleep) after := by
      cases notified <;> rfl
    rw [parked]
    cases after with
    | future f =>
      refine ⟨hl.listed f h.1, ?_⟩
      rcases h.2 with hf | hr | hn
      · cases hf' : o'.sight.resolved f with
        | false => exact .inl rfl
        | true => exact .inr (.inl (hl.news f h.1 hf hf'))
      · rcases hl.ringing hr with hr | hn
        · exact .inr (.inl hr)
        · exact .inr (.inr (roused hn))
      · exact .inr (.inr (awake hn))
    | any gs => exact Covered.later hl h roused awake
    | _ => trivial
  | _ => exact still trivial rfl

/-- Each step of a wait keeps it watched. -/
theorem Wait.watched_step (hw : w.Within G.Part) {p : Parker} (h : w.point.Watched o p.permit)
    {move : WaitMove S} (hs : w.step o.sight o.state p = some move) (hl : o.Later o' False)
    (hnow : o'.sight.now = o.sight.now) (hj : ∀ f ∈ move.joins, o'.listed f) :
    move.wait.point.Watched o' move.parker.permit := by
  have part := hw.point
  -- A future that a park is for is unresolved, or somebody is about to tell of it.
  have news {f : FutureId} (listed : o.listed f) (hf : o.sight.resolved f = false) :
      o'.sight.resolved f = false ∨ o'.ringing := by
    cases hf' : o'.sight.resolved f with
    | false => exact .inl rfl
    | true => exact .inr (hl.news f listed hf hf')
  cases Wait.step_paces hs with
  | goes hy => cases hy with
    | parksFuture hf => exact ⟨hl.listed _ h, (news h hf).imp_right .inl⟩
    | refused hp =>
      have found : o.Found (p.permit = true) (.any _) :=
        ⟨h, .inr (.inr (.inr (Guard.evaluate_ok.mp hp)))⟩
      exact Found.later hl part.punctual found hnow False.elim id
    | parksAny hd => exact Covered.later hl (Found.aim h hd) False.elim fun hn => ⟨hn, by simp⟩
    | _ => trivial
  | joins f => exact hj f List.mem_cons_self
  | subscribes hsub =>
    obtain ⟨b, hb⟩ := Guard.sources_eq part.punctual o.sight
    cases hsub.symm.trans hb
    exact hj
  | @sleeps d sleep after frames hlook =>
    obtain ⟨-, none⟩ := Parker.bare_of_sleeps hlook
    cases after with
    | future f =>
      refine ⟨hl.listed f h.1, ?_⟩
      rcases h.2 with hf | hr | hn
      · exact (news h.1 hf).imp_right .inl
      · exact .inr (.inl ((hl.ringing hr).resolve_right id))
      · rw [none] at hn
        cases hn.1
    | any gs =>
      refine Covered.later hl h False.elim fun hn => ?_
      rw [none] at hn
      cases hn.1
    | _ => trivial
  | @wakes d sleep after frames r => cases after with
    | user g next => trivial
    | _ => cases r <;> trivial
  | _ => trivial

/-- A thread that sleeps in a wait and is not about to be told waits for a guard that does not hold. -/
theorem Wait.not_true_of_blocked (hw : w.Within G.Part) {p : Parker} (h : w.point.Watched o p.permit)
    (hs : w.step o.sight o.state p = none) (hres : w.result? = none) (hr : ¬ o.ringing)
    (hb : ¬ o.busy) : G.poll o.sight o.state ≠ .ok true := by
  obtain ⟨d, after, hp, hd⟩ := asleep_of_blocked hs hres
  obtain ⟨point, frames⟩ := w
  cases hp
  have part := hw.point
  intro ht
  cases after with
  | future f =>
    rcases h.2 with hf | h | h
    · have resolved := part.2.entailed _ _ ht
      rw [Guard.poll, hf] at resolved
      cases resolved
    · exact hr h
    · exact h.2 rfl
  | timer e =>
    obtain ⟨rfl, part⟩ := part
    have due := part.entailed _ _ ht
    rw [Guard.poll, hd] at due
    cases due
  | never => cases part.2.entailed _ _ ht
  | any gs =>
    exact h.not_true part.punctual (fun hn => hn.2 rfl) hr hb hd (part.entailed _ _ ht)
  | user g next => cases part

end

end ObjectGroups
