/-
Permits are conserved and interrupts last.

A park goes on in one of two ways: it finds a permit, which it takes, or its
deadline passes while it sleeps, and then it takes nothing. Each permit that is
taken has been left by an unpark since the one taken before (`paid`), so that
parks cannot take more than unparks have left. Once an interrupt has come,
every park ends with it, whatever else it would have found. Nobody sleeps over
a permit or an interrupt, since who leaves one notifies all who sleep on the
parker (`Bare`).
-/
import ObjectGroups.Proofs.Parking

namespace ObjectGroups

variable {S A V : Type} {m m' : Machine S A V} {a b : Agent} {g : CogId} {c : ContextId}
  {own : Option CogId} {s s' : Stance} {t : Thread S A V} {p : ParkerId} {spot : Spot}
  {r : Except GuardError Unit} {move : Action S A V}

open Machine

/-! ## What happens to a parker in a move -/

namespace Move

variable (p : ParkerId) (v : Move S A V)

/-- The park that ends in this move, and its result. -/
def lands? : Option (Spot × Except GuardError Unit) :=
  v.act.actor?.bind fun a => (v.before.spot? a).bind fun spot =>
    match (v.before.parker spot.parker).look v.before.now spot.deadline spot.sleep with
    | some (.ended (r, _)) => some (spot, r)
    | _ => none

/-- A park goes on, and not since its deadline has passed while it slept. -/
def takes : Bool := v.lands?.any fun (spot, r) =>
  spot.parker = p && spot.sleep != .asleep false && r.isOk

/-- The parker is unparked: by a signal, or by a broadcast to those who wait in a scheduler. -/
def unparks : Bool :=
  v.sends? = some (.wake (.parker p)) || match v.hails?, p with
    | some g, .own c => (v.before.books g).waiters.contains c
    | _, _ => false

/-- The parker is interrupted. -/
def raises : Bool := v.sends? = some (.interrupt p)

/-- The context whose parker it is is entered, and the parker begins anew. -/
def renews : Bool := v.enters?.map .own = some p

end Move

theorem Move.lands?_eq {v : Move S A V} (h : v.lands? = some (spot, r)) : ∃ a x, v.act.actor? = some a ∧
    v.before.spot? a = some spot ∧
      (v.before.parker spot.parker).look v.before.now spot.deadline spot.sleep = some (.ended (r, x)) := by
  unfold lands? at h
  obtain ⟨a, hact, h⟩ := Option.bind_eq_some_iff.mp h
  obtain ⟨spot', hs, h⟩ := Option.bind_eq_some_iff.mp h
  split at h
  · next x look =>
    cases h
    exact ⟨a, x, hact, hs, look⟩
  · cases h

/-! ## A thread does one thing at a time -/

theorem Wait.spot?_eq {w : Wait S} (h : w.spot? p = some spot) : spot.parker = p := by
  unfold Wait.spot? at h
  split at h <;> cases h
  rfl

namespace Control

variable {k : Control S A V}

/-- A thread in a park is in a body or waits in an await. -/
theorem spot?_stance (h : k.spot? a = some spot) :
    (∃ seat, k.stance = .body seat) ∨ ∃ i, k.stance = .wait i := by
  cases k with
  | park seat | hold seat => exact .inl ⟨seat, rfl⟩
  | awaiting aw phase => cases phase with
    | wait w => exact .inr ⟨aw.task, rfl⟩
    | _ => cases h
  | _ => cases h

theorem signals_stance (h : k.signals ≠ []) : ∃ seat, k.stance = .body seat := by
  cases k with
  | signal seat => exact ⟨seat, rfl⟩
  | _ => exact absurd rfl h

theorem spot?_signals (h : k.spot? a = some spot) : k.signals = [] := by
  cases k with
  | signal => cases h
  | _ => rfl

/-- Who is in a park sleeps on its parker. -/
theorem sleepsOn_spot (h : t.control.spot? a = some spot) : t.sleepsOn a (.parker spot.parker) = true := by
  unfold Thread.sleepsOn
  cases hk : t.control with
  | park seat q deadline sleep next =>
    rw [hk] at h
    cases h
    simp
  | hold seat g q w next =>
    rw [hk] at h
    simp [Wait.spot?_eq (p := q) h]
  | awaiting aw phase => cases phase with
    | wait w =>
      rw [hk] at h
      obtain ⟨c, hc, hw⟩ := Option.bind_eq_some_iff.mp h
      simp [hc, Wait.spot?_eq hw]
    | _ =>
      rw [hk] at h
      cases h
  | _ =>
    rw [hk] at h
    cases h

end Control

namespace Move

variable {v : Move S A V}

/-- In a body or in the wait of an await a thread neither wakes those who wait in a scheduler nor
enters a context. -/
theorem mute_of_look (hact : v.act.actor? = some a) (hl : v.before.look a = some (own, s))
    (hs : (∃ seat, s = .body seat) ∨ ∃ i, s = .wait i) : v.hails? = none ∧ v.enters? = none := by
  have turn : v.turn = none ∨ ∃ s', v.turn = some (a, own, s, s') := by
    unfold Move.turn
    rw [hact]
    cases hl' : v.after.look a with
    | none => exact .inl (by simp [hl'])
    | some q => exact .inr ⟨q.2, by simp [hl, hl']⟩
  rcases turn with turn | ⟨s', turn⟩
  · simp [hails?, enters?, turn]
  · rcases hs with ⟨seat, rfl⟩ | ⟨i, rfl⟩ <;>
      exact ⟨by simp [hails?, turn, Stance.hails], by simp [enters?, turn, Stance.enters, Stance.stage?]⟩

theorem mute_of_spot (hact : v.act.actor? = some a) (h : v.before.spot? a = some spot) :
    v.hails? = none ∧ v.enters? = none ∧ v.sends? = none := by
  obtain ⟨t, ht, -, hs⟩ := Machine.spot?_eq h
  obtain ⟨hails, enters⟩ := mute_of_look hact (look_eq _ _ ht) (Control.spot?_stance hs)
  refine ⟨hails, enters, ?_⟩
  simp [sends?, hact, signals_eq ht, Control.spot?_signals hs]

theorem mute_of_signals {first : Signal} {rest : List Signal} (hact : v.act.actor? = some a)
    (h : v.before.signals a = first :: rest) :
    v.hails? = none ∧ v.enters? = none ∧ v.before.spot? a = none := by
  cases ht : v.before.threads.get? a with
  | none => simp [Machine.signals, ht] at h
  | some t =>
    rw [signals_eq ht] at h
    have stance := Control.signals_stance (k := t.control) (by simp [h])
    obtain ⟨hails, enters⟩ := mute_of_look hact (look_eq _ _ ht) (.inl stance)
    refine ⟨hails, enters, ?_⟩
    rw [Option.eq_none_iff_forall_ne_some]
    intro spot hs
    obtain ⟨t', ht', -, hs⟩ := Machine.spot?_eq hs
    cases ht.symm.trans ht'
    rw [Control.spot?_signals hs] at h
    cases h

theorem silent_of_hails (hact : v.act.actor? = some a) (h : v.hails? = some g) :
    v.before.spot? a = none ∧ v.enters? = none ∧ v.sends? = none := by
  refine ⟨?_, ?_, ?_⟩
  · rw [Option.eq_none_iff_forall_ne_some]
    intro spot hs
    rw [(mute_of_spot hact hs).1] at h
    cases h
  · unfold hails? at h
    obtain ⟨⟨b, own, s, s'⟩, turn, hs⟩ := Option.bind_eq_some_iff.mp h
    obtain ⟨hs, -⟩ := Option.filter_eq_some_iff.mp hs
    refine (enters?_eq turn).trans ?_
    unfold Stance.hails at hs
    split at hs <;> first | rfl | cases hs
    next stage k i => cases stage <;> rfl
  · cases hsig : v.before.signals a with
    | nil => simp [sends?, hact, hsig]
    | cons first rest =>
      rw [(mute_of_signals hact hsig).1] at h
      cases h

theorem silent_of_enters (hact : v.act.actor? = some a) (h : v.enters? = some c) :
    v.before.spot? a = none ∧ v.hails? = none ∧ v.sends? = none := by
  refine ⟨?_, ?_, ?_⟩
  · rw [Option.eq_none_iff_forall_ne_some]
    intro spot hs
    rw [(mute_of_spot hact hs).2.1] at h
    cases h
  · rw [Option.eq_none_iff_forall_ne_some]
    intro g hg
    rw [(silent_of_hails hact hg).2.1] at h
    cases h
  · cases hsig : v.before.signals a with
    | nil => simp [sends?, hact, hsig]
    | cons first rest =>
      rw [(mute_of_signals hact hsig).2.1] at h
      cases h

/-! ## What becomes of a permit -/

/-- What a move is to the parker `p`. -/
inductive Sways (p : ParkerId) (v : Move S A V) : Prop where
  | unparked : v.unparks p = true → v.takes p = false → v.renews p = false → v.raises p = false →
      v.after.parker p = (v.before.parker p).unpark → Sways p v
  | taken : v.unparks p = false → v.takes p = true → v.renews p = false → v.raises p = false →
      (v.before.parker p).permit = true →
      v.after.parker p = { v.before.parker p with permit := false } → Sways p v
  | renewed : v.unparks p = false → v.takes p = false → v.renews p = true → v.raises p = false →
      v.after.parker p = {} → Sways p v
  | raised : v.unparks p = false → v.takes p = false → v.renews p = false → v.raises p = true →
      v.after.parker p = (v.before.parker p).interrupt → Sways p v
  | kept : v.unparks p = false → v.takes p = false → v.renews p = false → v.raises p = false →
      v.after.parker p = v.before.parker p → Sways p v

theorem takes_of_none (hact : v.act.actor? = some a) (h : v.before.spot? a = none) (p : ParkerId) :
    v.takes p = false := by
  simp [takes, lands?, hact, h]

theorem unparks_of_silent (hs : v.sends? ≠ some (.wake (.parker p))) (hh : v.hails? = none) :
    v.unparks p = false := by
  simp [unparks, hs, hh]

theorem renews_of_none (h : v.enters? = none) (p : ParkerId) : v.renews p = false := by
  simp [renews, h]

theorem raises_of_none (h : v.sends? = none) (p : ParkerId) : v.raises p = false := by
  simp [raises, h]

end Move

theorem Machine.Parks.sways (h : m.Parks a m') (p : ParkerId) :
    (⟨m, .step a, m'⟩ : Move S A V).Sways p := by
  have hact : (⟨m, .step a, m'⟩ : Move S A V).act.actor? = some a := rfl
  have sends : (⟨m, .step a, m'⟩ : Move S A V).sends? = (m.signals a).head? := rfl
  cases h.wields with
  | keeps same awake quiet hails enters =>
    have apart (first : Signal) (hp : first.parker? ≠ none) : (m.signals a).head? ≠ some first := by
      intro e
      obtain ⟨rest, hs⟩ := List.head?_eq_some_iff.mp e
      exact hp (quiet _ rest hs)
    refine .kept (Move.unparks_of_silent ?_ hails) ?_ (Move.renews_of_none enters p) ?_ (same p)
    · exact sends ▸ apart _ (by simp [Signal.parker?])
    · cases hspot : m.spot? a with
      | none => exact Move.takes_of_none hact hspot p
      | some spot => simp [Move.takes, Move.lands?, Action.actor?, hspot, awake spot hspot]
    · simpa [Move.raises, sends] using apart (.interrupt p) (by simp [Signal.parker?])
  | hails g hg parkers _ =>
    obtain ⟨spot, enters, silent⟩ := Move.silent_of_hails hact hg
    have takes := Move.takes_of_none hact spot p
    have renews := Move.renews_of_none enters p
    have raises := Move.raises_of_none silent p
    by_cases told : ∃ c ∈ (m.books g).waiters, p = .own c
    · refine .unparked ?_ takes renews raises ((parkers p).trans (if_pos told))
      obtain ⟨c, hc, rfl⟩ := told
      simp [Move.unparks, hg, hc]
    · refine .kept ?_ takes renews raises ((parkers p).trans (if_neg told))
      cases p with
      | loose n => simp [Move.unparks, silent, hg]
      | own c =>
        have apart : c ∉ (m.books g).waiters := fun hc => told ⟨c, hc, rfl⟩
        simp [Move.unparks, silent, hg, apart]
  | unparks q rest hs parkers _ =>
    obtain ⟨hails, enters, spot⟩ := Move.mute_of_signals hact hs
    have takes := Move.takes_of_none hact spot p
    have renews := Move.renews_of_none enters p
    have raises : (⟨m, .step a, m'⟩ : Move S A V).raises p = false := by simp [Move.raises, sends, hs]
    by_cases hq : p = q
    · exact .unparked (by simp [Move.unparks, sends, hs, hq]) takes renews raises
        ((parkers p).trans (if_pos hq))
    · refine .kept (Move.unparks_of_silent ?_ hails) takes renews raises ((parkers p).trans (if_neg hq))
      rw [sends, hs]
      simpa using Ne.symm hq
  | interrupts q rest hs parkers _ =>
    obtain ⟨hails, enters, spot⟩ := Move.mute_of_signals hact hs
    have takes := Move.takes_of_none hact spot p
    have renews := Move.renews_of_none enters p
    have unparks : (⟨m, .step a, m'⟩ : Move S A V).unparks p = false :=
      Move.unparks_of_silent (by rw [sends, hs]; simp) hails
    by_cases hq : p = q
    · exact .raised unparks takes renews (by simp [Move.raises, sends, hs, hq])
        ((parkers p).trans (if_pos hq))
    · exact .kept unparks takes renews (by simpa [Move.raises, sends, hs] using Ne.symm hq)
        ((parkers p).trans (if_neg hq))
  | lands t spot r x hspot look parkers =>
    obtain ⟨hails, enters, silent⟩ := Move.mute_of_spot hact hspot
    have unparks : (⟨m, .step a, m'⟩ : Move S A V).unparks p = false :=
      Move.unparks_of_silent (by rw [silent]; simp) hails
    have renews := Move.renews_of_none enters p
    have raises := Move.raises_of_none silent p
    have lands : (⟨m, .step a, m'⟩ : Move S A V).lands? = some (spot, r) := by
      simp [Move.lands?, Action.actor?, hspot, look]
    by_cases hp : p = spot.parker
    · subst hp
      have after : m'.parker spot.parker = x := (parkers _).trans (if_pos rfl)
      rcases Parker.look_ended look with ⟨hs, -, rfl, -⟩ | ⟨-, -, rfl, rfl⟩ | ⟨hs, -, permit, rfl, rfl⟩
      · exact .kept unparks (by simp [Move.takes, lands, hs]) renews raises after
      · exact .kept unparks (by simp [Move.takes, lands, Except.isOk, Except.toBool]) renews raises after
      · refine .taken unparks ?_ renews raises permit after
        simp [Move.takes, lands, hs, Except.isOk, Except.toBool]
    · exact .kept unparks (by simp [Move.takes, lands, Ne.symm hp]) renews raises
        ((parkers p).trans (if_neg hp))
  | enters c hc parkers =>
    obtain ⟨spot, hails, silent⟩ := Move.silent_of_enters hact hc
    have takes := Move.takes_of_none hact spot p
    have raises := Move.raises_of_none silent p
    have unparks : (⟨m, .step a, m'⟩ : Move S A V).unparks p = false :=
      Move.unparks_of_silent (by rw [silent]; simp) hails
    by_cases hp : p = .own c
    · exact .renewed unparks takes (by simp [Move.renews, hc, hp]) raises ((parkers p).trans (if_pos hp))
    · exact .kept unparks takes (by simp [Move.renews, hc, Ne.symm hp]) raises
        ((parkers p).trans (if_neg hp))

/-- Without a thread that acts, parkers are left alone. -/
theorem Machine.parkers_idle (ha : m.act move = some m') (hact : move.actor? = none) :
    m'.parkers = m.parkers := by
  cases move with
  | step a => cases hact
  | count n =>
    simp only [Machine.act] at ha
    split at ha <;> cases ha
    rfl
  | _ =>
    cases ha
    rfl

section
variable {reg : Registry} {memory : A} {moves : List (Move S A V)}

theorem Machine.Reachable.sways (h : Reachable (.empty reg memory) m) (ha : m.act move = some m')
    (p : ParkerId) : (⟨m, move, m'⟩ : Move S A V).Sways p := by
  cases hact : move.actor? with
  | some a =>
    obtain rfl := Action.step_of_actor hact
    exact (parks_step h.ordered h.enlisted ha).sways p
  | none =>
    have turn : (⟨m, move, m'⟩ : Move S A V).turn = none := by simp [Move.turn, hact]
    have sends : (⟨m, move, m'⟩ : Move S A V).sends? = none := by simp [Move.sends?, hact]
    exact .kept (Move.unparks_of_silent (by rw [sends]; simp) (by simp [Move.hails?, turn]))
      (by simp [Move.takes, Move.lands?, hact]) (Move.renews_of_none (by simp [Move.enters?, turn]) p)
      (Move.raises_of_none sends p) (parker_congr (parkers_idle ha hact) p)

/-- Parks take no more permits than unparks have left. -/
theorem History.counted (h : History (.empty reg memory) moves m) (p : ParkerId) :
    moves.countP (·.takes p) + (m.parker p).permit.toNat ≤ moves.countP (·.unparks p) := by
  induction h with
  | refl => exact Nat.le_refl 0
  | @act moves m m' move h ha ih =>
    have one := (m.parker p).permit.toNat_le
    simp only [List.countP_append, List.countP_singleton]
    cases h.reachable.sways ha p with
    | unparked unparks takes _ _ after =>
      have after : m'.parker p = (m.parker p).unpark := after
      simp only [unparks, takes, after, Parker.unpark]
      simp
      omega
    | taken unparks takes _ _ before after =>
      have before : (m.parker p).permit = true := before
      have after : m'.parker p = { m.parker p with permit := false } := after
      simp only [unparks, takes, after]
      rw [before] at ih
      simpa using ih
    | renewed unparks takes _ _ after =>
      have after : m'.parker p = {} := after
      simp only [unparks, takes, after]
      simp
      omega
    | raised unparks takes _ _ after =>
      have after : m'.parker p = (m.parker p).interrupt := after
      simp only [unparks, takes, after, Parker.interrupt]
      simpa using ih
    | kept unparks takes _ _ same =>
      have same : m'.parker p = m.parker p := same
      simp only [unparks, takes, same]
      simpa using ih

/-- The move at which something has come about, and after which nothing has undone it. -/
def Since {α : Type} (moves : List α) (comes undoes : α → Bool) : Prop :=
  ∃ earlier u since, moves = earlier ++ u :: since ∧ comes u = true ∧ ∀ w ∈ since, undoes w = false

theorem since_snoc {α : Type} {moves : List α} {comes undoes : α → Bool} (v : α) :
    Since (moves ++ [v]) comes undoes ↔
      comes v = true ∨ (undoes v = false ∧ Since moves comes undoes) := by
  constructor
  · rintro ⟨earlier, u, since, e, hu, none⟩
    rcases List.eq_nil_or_concat since with rfl | ⟨since, w, rfl⟩
    · obtain ⟨-, hv⟩ := List.append_inj' e rfl
      obtain rfl := List.singleton_inj.mp hv
      exact .inl hu
    · simp only [List.concat_eq_append, List.mem_append, List.mem_singleton] at e none
      have e : moves ++ [v] = (earlier ++ u :: since) ++ [w] := by simpa using e
      obtain ⟨before, hv⟩ := List.append_inj' e rfl
      obtain rfl := List.singleton_inj.mp hv
      exact .inr ⟨none v (.inr rfl), earlier, u, since, before, hu, fun w hw => none w (.inl hw)⟩
  · rintro (hv | ⟨hv, earlier, u, since, rfl, hu, none⟩)
    · exact ⟨moves, v, [], rfl, hv, by simp⟩
    · refine ⟨earlier, u, since ++ [v], by simp, hu, fun w hw => ?_⟩
      rcases List.mem_append.mp hw with hw | hw
      · exact none w hw
      · obtain rfl := List.mem_singleton.mp hw
        exact hv

/-- A permit is there if an unpark has left it and no park has taken it since. -/
theorem History.permit_iff (h : History (.empty reg memory) moves m) (p : ParkerId) :
    (m.parker p).permit = true ↔ Since moves (·.unparks p) fun v => v.takes p || v.renews p := by
  induction h with
  | refl => exact ⟨nofun, fun ⟨_, _, _, e, _⟩ => by simp at e⟩
  | @act moves m m' move h ha ih =>
    rw [since_snoc, ← ih]
    cases h.reachable.sways ha p with
    | unparked unparks _ _ _ after => simp [unparks, after, Parker.unpark]
    | taken unparks takes _ _ _ after => simp [unparks, takes, after]
    | renewed unparks _ renews _ after => simp [unparks, renews, after]
    | raised unparks takes renews _ after => simp [unparks, takes, renews, after, Parker.interrupt]
    | kept unparks takes renews _ same => simp [unparks, takes, renews, same]

/-- A parker is interrupted if an interrupt has come, and stays so. -/
theorem History.interrupted_iff (h : History (.empty reg memory) moves m) (p : ParkerId) :
    (m.parker p).interrupted = true ↔ Since moves (·.raises p) (·.renews p) := by
  induction h with
  | refl => exact ⟨nofun, fun ⟨_, _, _, e, _⟩ => by simp at e⟩
  | @act moves m m' move h ha ih =>
    rw [since_snoc, ← ih]
    cases h.reachable.sways ha p with
    | unparked _ _ renews raises after => simp [renews, raises, after, Parker.unpark]
    | taken _ _ renews raises _ after => simp [renews, raises, after]
    | renewed _ _ renews raises after => simp [renews, raises, after]
    | raised _ _ _ raises after => simp [raises, after, Parker.interrupt]
    | kept _ _ renews raises same => simp [renews, raises, same]

end

/-! ## Who sleeps has nothing to go on with -/

/-- A parker with neither a permit nor an interrupt is all that a thread sleeps on which nobody has
notified. -/
def Machine.Bare (m : Machine S A V) : Prop :=
  ∀ a t spot, m.threads.get? a = some t → t.control.spot? a = some spot → spot.sleep = .asleep false →
    m.parker spot.parker = {}

theorem Wait.spot?_notify (w : Wait S) (p : ParkerId) :
    w.notify.spot? p = (w.spot? p).map fun spot => { spot with sleep := spot.sleep.notify } := by
  obtain ⟨point, frames⟩ := w
  cases point <;> rfl

theorem Sleep.notify_ne (x : Sleep) : x.notify ≠ .asleep false := by
  cases x <;> simp [Sleep.notify]

/-- A notified thread does not go on sleeping. -/
theorem Control.spot?_rouse {k : Control S A V} (h : k.rouse.spot? a = some spot) :
    spot.sleep ≠ .asleep false := by
  have roused {w : Wait S} {q : ParkerId} (h : w.notify.spot? q = some spot) :
      spot.sleep ≠ .asleep false := by
    rw [Wait.spot?_notify] at h
    obtain ⟨spot, -, rfl⟩ := Option.map_eq_some_iff.mp h
    exact spot.sleep.notify_ne
  cases k with
  | park seat q deadline sleep next =>
    cases h
    exact sleep.notify_ne
  | hold seat g q w next => exact roused (q := q) h
  | awaiting aw phase => cases phase with
    | wait w =>
      obtain ⟨c, -, h⟩ := Option.bind_eq_some_iff.mp h
      exact roused h
    | _ => cases h
  | _ => cases h

namespace Machine

/-- A step of another thread notifies who sleeps on the parker, or leaves a bare parker bare. -/
theorem Parks.rouses (h : m.Parks a m') (hb : b ≠ a) (ht : m.threads.get? b = some t)
    (hs : t.control.spot? b = some spot) (bare : m.parker spot.parker = {}) :
    m'.threads.get? b = some t.rouse ∨ m'.parker spot.parker = {} := by
  have sleeps := Control.sleepsOn_spot hs
  have kept (e : m'.parker spot.parker = m.parker spot.parker) :
      m'.threads.get? b = some t.rouse ∨ m'.parker spot.parker = {} := .inr (e.trans bare)
  cases h.wields with
  | keeps same => exact kept (same _)
  | hails g _ parkers rouses =>
    by_cases told : ∃ c ∈ (m.books g).waiters, spot.parker = .own c
    · obtain ⟨c, hc, e⟩ := told
      exact .inl (rouses c hc b t hb ht (e ▸ sleeps))
    · exact kept (by rw [parkers, if_neg told])
  | unparks q rest _ parkers rouses | interrupts q rest _ parkers rouses =>
    by_cases e : spot.parker = q
    · exact .inl (rouses b t hb ht (e ▸ sleeps))
    · exact kept (by rw [parkers, if_neg e])
  | lands t' spot' r x _ look parkers =>
    by_cases e : spot.parker = spot'.parker
    · refine .inr ?_
      rw [parkers, if_pos e]
      rw [← e, bare] at look
      rcases Parker.look_ended look with ⟨-, -, rfl, -⟩ | ⟨-, -, rfl, -⟩ | ⟨-, -, permit, -⟩
      · rfl
      · rfl
      · cases permit
    · exact kept (by rw [parkers, if_neg e])
  | enters c _ parkers =>
    by_cases e : spot.parker = .own c
    · exact .inr (by rw [parkers, if_pos e])
    · exact kept (by rw [parkers, if_neg e])

/-- A thread that goes to sleep has found its parker bare. -/
theorem Parks.settles (h : m.Parks a m') (hs : m.spot? a = some spot)
    (look : (m.parker spot.parker).look m.now spot.deadline spot.sleep = some .sleeps) :
    m'.parker spot.parker = {} := by
  obtain ⟨flag, permit⟩ := Parker.bare_of_sleeps look
  have bare : m.parker spot.parker = {} := by
    cases hp : m.parker spot.parker with
    | mk p i =>
      rw [hp] at flag permit
      cases flag
      cases permit
      rfl
  have hact : (⟨m, .step a, m'⟩ : Move S A V).act.actor? = some a := rfl
  obtain ⟨hails, enters, sends⟩ := Move.mute_of_spot hact hs
  cases h.wields with
  | keeps same => rw [same, bare]
  | hails g hg => cases hails.symm.trans hg
  | unparks q rest hsig | interrupts q rest hsig => simp [Move.sends?, Action.actor?, hsig] at sends
  | lands t spot' r x hs' look' =>
    cases hs.symm.trans hs'
    cases look.symm.trans look'
  | enters c hc => cases enters.symm.trans hc

theorem Bare.act (h : m.Bare) (hp : m.Plain) (ho : m.Ordered) (he : m.Enlisted)
    (ha : m.act move = some m') : m'.Bare := by
  intro b t' spot ht' hs' hsleep
  by_cases hact : move.actor? = some b
  · obtain rfl := Action.step_of_actor hact
    have parks := parks_step ho he ha
    have awake (hf : t'.control.behind.fresh = true) : m'.parker spot.parker = {} := by
      rw [Control.fresh_spot (Control.fresh_of_behind hf) hs'] at hsleep
      cases hsleep
    cases parks.ways t' ht' with
    | fresh hf => exact awake hf
    | tells t g n ht hk => exact awake (hp.told ht hk)
    | dozes spot' hs look e =>
      cases hs'.symm.trans e
      have bare : m'.parker spot'.parker = {} := parks.settles hs look
      exact bare
    | waits t p w σ move ht admitted hw hstep e =>
      subst e
      obtain ⟨hs, hsw, -⟩ := Control.spot?_wait hw move.wait
      have here : m.spot? b = w.spot? p := by simp [Machine.spot?, ht, admitted, hs]
      rw [hsw] at hs'
      cases Wait.visits hstep p with
      | goesOn _ _ awake =>
        rw [awake spot hs'] at hsleep
        cases hsleep
      | sleeps spot' hspot hq look _ doze =>
        cases hs'.symm.trans doze
        have bare : m'.parker spot'.parker = {} := parks.settles (here.trans hspot) (hq ▸ look)
        exact bare
      | lands _ _ _ _ _ _ none => cases none.symm.trans hs'
  · rcases (shift_act ho ha).apart hact with ⟨roused, hr⟩ | new
    · rw [ht'] at hr
      obtain ⟨t, ht, rfl⟩ := Option.map_eq_some_iff.mp hr.symm
      cases roused with
      | true => exact absurd hsleep (Control.spot?_rouse hs')
      | false =>
        have bare := h b t spot ht hs' hsleep
        cases hactor : move.actor? with
        | none => rw [parker_congr (parkers_idle ha hactor), bare]
        | some a =>
          obtain rfl := Action.step_of_actor hactor
          have hba : b ≠ a := by
            rintro rfl
            exact hact hactor
          rcases (parks_step ho he ha).rouses hba ht hs' bare with roused | bare
          · have same : t = t.rouse := Option.some.inj (ht'.symm.trans roused)
            have rouse : t.rouse.control.spot? b = some spot := same ▸ hs'
            exact absurd hsleep (Control.spot?_rouse rouse)
          · exact bare
    · rw [Control.fresh_spot (Control.fresh_of_behind (new t' ht').fresh) hs'] at hsleep
      cases hsleep

theorem Reachable.bare {reg : Registry} {memory : A} (h : Reachable (.empty reg memory) m) : m.Bare := by
  induction h with
  | refl =>
    intro a t spot ht
    cases ht
  | act h ha ih => exact ih.act h.plain h.ordered h.enlisted ha

/-! ## A park goes on as soon as it can -/

/-- A thread in a park is blocked as long as the park has nothing to go on with. -/
theorem Ordered.step_spot (ho : m.Ordered) (hs : m.spot? a = some spot) :
    (m.step a).isSome = ((m.parker spot.parker).look m.now spot.deadline spot.sleep).isSome := by
  obtain ⟨t, ht, admitted, hspot⟩ := spot?_eq hs
  have waits {w : Wait S} {q : ParkerId} {σ : S} (hw : w.spot? q = some spot) :
      w.result? = none ∧ (w.step m.sight σ (m.parker q)).isSome =
        ((m.parker spot.parker).look m.now spot.deadline spot.sleep).isSome := by
    obtain ⟨point, frames⟩ := w
    cases point with
    | park deadline sleep after =>
      cases hw
      refine ⟨rfl, ?_⟩
      simp only [Wait.step, sight]
      cases (m.parker q).look m.now deadline sleep with
      | none => rfl
      | some turn => cases turn <;> rfl
    | _ => cases hw
  cases hk : t.control with
  | park seat q deadline sleep next =>
    rw [hk] at hspot admitted
    cases hspot
    have lent : m.lends q = true := admitted
    simp only [step, ht, hk, lent]
    cases (m.parker q).look m.now deadline sleep with
    | none => rfl
    | some turn => cases turn <;> rfl
  | hold seat g q w next =>
    rw [hk] at hspot admitted
    obtain ⟨lent, there⟩ := Bool.and_eq_true_iff.mp (show (m.lends q && (m.cogs.get? g).isSome) = true from admitted)
    obtain ⟨x, hx⟩ := Option.isSome_iff_exists.mp there
    obtain ⟨going, same⟩ := waits (σ := x.state) (hspot : w.spot? q = some spot)
    simp only [step, ht, hk, going, hx, lent, ← same]
    cases w.step m.sight x.state (m.parker q) <;> rfl
  | awaiting aw phase => cases phase with
    | wait w =>
      rw [hk] at hspot
      obtain ⟨c, hc, hw⟩ := Option.bind_eq_some_iff.mp hspot
      obtain ⟨g, d, x, hg, rfl, hx⟩ := ho.home_of_hosts (look_eq m _ ht) (by rw [hk]; rfl)
      cases hc
      obtain ⟨going, same⟩ := waits (σ := x.state) hw
      rw [step_awaiting ht hg hk hx]
      simp only [stepAwait, stepWait, going, ← same]
      cases w.step m.sight x.state (m.parker (.own c)) <;> rfl
    | _ =>
      rw [hk] at hspot
      cases hspot
  | _ =>
    rw [hk] at hspot
    cases hspot

/-- A park ends in the next step of its thread if it finds something when it looks. -/
theorem Ordered.lands_of_look (ho : m.Ordered) (hs : m.spot? a = some spot) {r : Except GuardError Unit}
    {x : Parker} (look : (m.parker spot.parker).look m.now spot.deadline spot.sleep = some (.ended (r, x))) :
    ∃ m', m.act (.step a) = some m' ∧ (⟨m, .step a, m'⟩ : Move S A V).lands? = some (spot, r) := by
  have steps := ho.step_spot hs
  rw [look] at steps
  obtain ⟨m', h⟩ := Option.isSome_iff_exists.mp steps
  exact ⟨m', h, by simp [Move.lands?, Action.actor?, hs, look]⟩

end Machine

/-! ## The discipline -/

/-- How the parker `p` has been used in the moves that have led to `m`. -/
structure Disciplined (moves : List (Move S A V)) (m : Machine S A V) (p : ParkerId) : Prop where
  /-- A park that goes on has slept until its deadline, or takes the permit of an unpark that no
  park has taken before. -/
  paid {earlier later : List (Move S A V)} {v : Move S A V} {spot : Spot} :
    moves = earlier ++ v :: later → v.lands? = some (spot, .ok ()) → spot.parker = p →
      (v.takes p = false ∧ spot.sleep = .asleep false ∧
        ∃ d, spot.deadline = some d ∧ d ≤ v.before.now) ∨
      (v.takes p = true ∧ Since earlier (·.unparks p) fun w => w.takes p || w.renews p)
  counted : moves.countP (·.takes p) ≤ moves.countP (·.unparks p)
  /-- There is a permit if an unpark has come since a park has last taken one, however many have. -/
  stored : (m.parker p).permit = true ↔ Since moves (·.unparks p) fun w => w.takes p || w.renews p
  /-- No unpark takes an interrupt back. -/
  raised : (m.parker p).interrupted = true ↔ Since moves (·.raises p) (·.renews p)
  /-- With an interrupt every park ends with it, and with a permit every park goes on, in the next
  step of its thread. -/
  ends {a : Agent} {spot : Spot} : m.spot? a = some spot → spot.parker = p → m.parker p ≠ {} →
    ∃ m', m.act (.step a) = some m' ∧ (⟨m, .step a, m'⟩ : Move S A V).lands? =
      some (spot, if (m.parker p).interrupted then .error .interrupted else .ok ())
  /-- A park is blocked only where there is neither and its deadline has not come. -/
  blocked {a : Agent} {spot : Spot} : m.spot? a = some spot → spot.parker = p → m.step a = none →
    m.parker p = {} ∧ Instant.due m.now spot.deadline = false
  /-- The thread goes on with what its park has come to. -/
  told {a : Agent} {spot : Spot} {res : Except GuardError Unit} {m' : Machine S A V} :
    m.act (.step a) = some m' → (⟨m, .step a, m'⟩ : Move S A V).lands? = some (spot, res) →
      ∃ t, m.threads.get? a = some t ∧
        m'.threads.get? a = some { t with control := t.control.landed res }

/-- Whoever sleeps in a park while its parker is not bare has been notified. -/
theorem Machine.Bare.awake (h : m.Bare) (hs : m.spot? a = some spot) (hp : m.parker spot.parker ≠ {}) :
    spot.sleep ≠ .asleep false := by
  intro hsleep
  obtain ⟨t, ht, -, hspot⟩ := spot?_eq hs
  exact hp (h a t spot ht hspot hsleep)

/-- Who is blocked in a park sleeps, and there is nothing on the parker to go on with. -/
theorem Machine.Bare.blocked (h : m.Bare) (ho : m.Ordered) (hs : m.spot? a = some spot)
    (hb : m.step a = none) : spot.sleep = .asleep false ∧ m.parker spot.parker = {} ∧
      Instant.due m.now spot.deadline = false := by
  have steps := ho.step_spot hs
  rw [hb] at steps
  obtain ⟨hsleep, hdue⟩ := Parker.look_none (Option.isNone_iff_eq_none.mp (by simpa using steps.symm))
  refine ⟨hsleep, ?_, hdue⟩
  by_contra used
  exact h.awake hs used hsleep

/-- The thread whose park ends goes on with the result. -/
theorem Machine.Parks.told (h : m.Parks a m')
    (lands : (⟨m, .step a, m'⟩ : Move S A V).lands? = some (spot, r)) : ∃ t, m.threads.get? a = some t ∧
      m'.threads.get? a = some { t with control := t.control.landed r } := by
  obtain ⟨b, x, hb, hs, look⟩ := Move.lands?_eq lands
  cases hb
  obtain ⟨hails, enters, sends⟩ := Move.mute_of_spot rfl hs
  cases h.wields with
  | lands t spot' r' x' hs' look' _ ht ht' =>
    cases hs.symm.trans hs'
    cases look.symm.trans look'
    exact ⟨t, ht, ht'⟩
  | keeps _ awake => cases look.symm.trans (awake spot hs)
  | hails g hg => cases hails.symm.trans hg
  | unparks q rest hsig | interrupts q rest hsig => simp [Move.sends?, Action.actor?, hsig] at sends
  | enters c hc => cases enters.symm.trans hc

section
variable {reg : Registry} {memory : A} {moves : List (Move S A V)}

/-- A permit is taken by one park, an interrupt is never taken back, and nobody sleeps over either. -/
theorem parks_disciplined (h : History (.empty reg memory) moves m) (p : ParkerId) :
    Disciplined moves m p where
  paid := by
    rintro earlier later v spot rfl lands rfl
    obtain ⟨before, ha, -⟩ := h.at_move
    by_cases hsleep : spot.sleep = .asleep false
    · refine .inl ⟨by simp [Move.takes, lands, hsleep], hsleep, ?_⟩
      obtain ⟨a, x, -, -, look⟩ := Move.lands?_eq lands
      rcases Parker.look_ended look with ⟨-, due, -⟩ | ⟨awake, -⟩ | ⟨awake, -⟩
      · cases hd : spot.deadline with
        | none => simp [hd, Instant.due] at due
        | some d => exact ⟨d, rfl, by simpa [hd, Instant.due] using due⟩
      · exact absurd hsleep awake
      · exact absurd hsleep awake
    · have takes : v.takes spot.parker = true := by
        simp [Move.takes, lands, hsleep, Except.isOk, Except.toBool]
      refine .inr ⟨takes, (before.permit_iff _).mp ?_⟩
      cases before.reachable.sways ha spot.parker with
      | taken _ _ _ _ permit => exact permit
      | unparked _ none | renewed _ none | raised _ none | kept _ none => cases takes.symm.trans none
  counted := Nat.le_of_add_right_le (h.counted p)
  stored := h.permit_iff p
  raised := h.interrupted_iff p
  ends := by
    rintro a spot hs rfl hp
    obtain ⟨x, check⟩ := Parker.check_used hp
    refine h.reachable.ordered.lands_of_look hs (x := x) ?_
    rw [Parker.look_check (h.reachable.bare.awake hs hp), check]
  blocked := by
    rintro a spot hs rfl blocked
    exact (h.reachable.bare.blocked h.reachable.ordered hs blocked).2
  told ha lands := (parks_step h.reachable.ordered h.reachable.enlisted ha).told lands

end

/-- Two sleep on one parker, one of them until a deadline, and a third unparks it twice before either
of them looks, and interrupts it later. -/
def parkActions : List (Action Unit Unit Unit) :=
  [.arrive (.request (.park (.loose 0) none) fun _ => .exit (.ok ())),
    .arrive (.request (.park (.loose 0) (some 5)) fun _ =>
      .request (.park (.loose 0) (some 5)) fun _ => .exit (.ok ())),
    .arrive (.request (.wake (.parker (.loose 0))) fun _ =>
      .request (.wake (.parker (.loose 0))) fun _ =>
        .request (.interruptParker (.loose 0)) fun _ => .exit (.ok ()))] ++
    [1, 1, 2, 2, 3, 3, 3, 3, 3, 3, 1, 2].map (fun n => .step (.caller n)) ++ [.pass 10] ++
    [2, 2, 2, 3, 3, 2].map fun n => .step (.caller n)

def parkMoves : List (Move Unit Unit Unit) :=
  (Machine.empty { namePrefix := "cog", admits := fun _ => true } ()).moves parkActions

theorem parks_disciplined_rivals :
    Disciplined parkMoves
      (parkActions.foldl perform (.empty { namePrefix := "cog", admits := fun _ => true } ()))
      (.loose 0) ∧
    parkMoves.filterMap Move.lands? =
      [(⟨.loose 0, none, .asleep true⟩, .ok ()), (⟨.loose 0, some 5, .asleep false⟩, .ok ()),
        (⟨.loose 0, some 5, .asleep true⟩, .error .interrupted)] ∧
    parkMoves.countP (·.takes (.loose 0)) = 1 ∧ parkMoves.countP (·.unparks (.loose 0)) = 2 :=
  ⟨parks_disciplined (history_moves _ parkActions) _, by decide +kernel, by decide +kernel,
    by decide +kernel⟩

end ObjectGroups
