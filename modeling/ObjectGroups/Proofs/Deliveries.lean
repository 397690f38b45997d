/-
Deliveries to listeners.

Each listener of a cog has its copy of each notice, in the step in which the
notice is told, and whatever the others make of theirs. No other step delivers
anything. A listener that has been registered stays.
-/
import ObjectGroups.Proofs.Tales

namespace ObjectGroups

variable {S A V : Type} {m m' : Machine S A V} {a : Agent} {g : CogId} {c : ContextId}
  {x : Cog S A V} {t : Thread S A V} {move : Action S A V} {moves later : List (Move S A V)}
  {r : Registry} {memory : A}

open Machine Scheduler

/-! ## Deliveries -/

namespace Machine

@[simp] theorem deliveries_broadcast : (m.broadcast g).deliveries = m.deliveries := by
  obtain ⟨_, _, h⟩ := m.broadcast_eq g
  rw [h]

@[simp] theorem deliveries_strike (c : ContextId) : (m.strike c).deliveries = m.deliveries := by
  obtain ⟨_, h⟩ := m.strike_eq c
  rw [h]

attribute [local simp] setControl onCog onScheduler setLock report notifyAll unpark interruptParker turned subscribe

@[simp] theorem deliveries_announceEnd (outcome : TaskOutcome) (view : Option TaskView) (after : Control S A V) :
    (m.announceEnd a g outcome view after).deliveries = m.deliveries := by
  unfold announceEnd
  cases view <;> rfl

@[simp] theorem deliveries_abort (x : Cog S A V) (aw : Awaiting S A V) :
    (m.abort a c g x aw).deliveries = m.deliveries := by
  simp [abort]

@[simp] theorem deliveries_handedOver (aw : Awaiting S A V) :
    (m.handedOver a c g aw).deliveries = m.deliveries := by
  simp [handedOver]

@[simp] theorem deliveries_startFailed (own : Option CogId) (e : RuntimeError) (errand : Errand S A V) :
    (m.startFailed a own e errand).deliveries = m.deliveries := by
  cases errand with
  | handover aw =>
    simp only [startFailed]
    split <;> simp
  | _ => simp [startFailed]

@[simp] theorem deliveries_startSucceeded (own : Option CogId) (c : ContextId) (errand : Errand S A V) :
    (m.startSucceeded a own c errand).deliveries = m.deliveries := by
  cases errand with
  | handover aw =>
    simp only [startSucceeded]
    split <;> simp
  | _ => simp [startSucceeded]

@[simp] theorem deliveries_startUnwound (own : Option CogId) (p : Payload) (errand : Errand S A V) :
    (m.startUnwound a own p errand).deliveries = m.deliveries := by
  cases errand with
  | handover aw =>
    simp only [startUnwound]
    split <;> simp
  | _ => simp [startUnwound]

/-- How many listeners the cog has. -/
def audience (m : Machine S A V) (g : CogId) : Nat := ((m.cogs.get? g).map (·.listeners.length)).getD 0

/-- What is delivered when a notice is told: one copy for each listener. -/
def calls (m : Machine S A V) (p : CogId × Notice) : List Delivery :=
  (List.range (m.audience p.1)).map fun position => { cog := p.1, position, notice := p.2 }

/-- Only a thread that tells a notice delivers anything. -/
theorem deliveries_step (ht : m.threads.get? a = some t) (h : m.step a = some m') :
    m'.deliveries = m.deliveries ++ t.control.notice?.toList.flatMap m.calls := by
  have mute (hk : t.control.notice? = none) (same : m'.deliveries = m.deliveries) :
      m'.deliveries = m.deliveries ++ t.control.notice?.toList.flatMap m.calls := by
    simp [hk, same]
  have took := step_of ht h
  generalize t.control = k at took mute ⊢
  cases took with
  | runs took => exact mute rfl (by cases took <;> rfl)
  | starts took => exact mute rfl (by cases took <;> simp)
  | awaits _ _ _ took =>
    refine mute rfl ?_
    cases took with
    | handsOver | aborts | abandons => simp
    | _ => rfl
  | sends took => exact mute rfl (by cases took <;> rfl)
  | @tells g n after =>
    simp only [Control.notice?, Option.toList_some, List.flatMap_cons, List.flatMap_nil, List.append_nil, calls,
      audience, setControl, deliver]
    cases m.cogs.get? g <;> simp
  | joins | retires | completes | strands | leaves => exact mute rfl (by simp)
  | _ => exact mute rfl rfl

/-- In each move, the notice that is told is delivered, and nothing else is. -/
theorem deliveries_act (ha : m.act move = some m') :
    m'.deliveries = m.deliveries ++ (⟨m, move, m'⟩ : Move S A V).tells?.toList.flatMap fun e => m.calls e.2 := by
  cases move with
  | step a =>
    obtain ⟨t, ht⟩ := thread_of_step ha
    rw [deliveries_step ht ha, ← notice?_eq ht]
    cases hn : m.notice? a <;> simp [Move.tells?, Action.actor?, hn]
  | count n =>
    simp only [act] at ha
    split at ha <;> cases ha
    simp [Move.tells?, Action.actor?]
  | _ =>
    cases ha
    simp [Move.tells?, Action.actor?, arrive, found]

/-! ## Listeners -/

theorem audience_eq (hx : m.cogs.get? g = some x) : m.audience g = x.listeners.length := by
  simp [audience, hx]

/-- No thread adds or removes a listener. -/
theorem audience_shift (h : Shift m m' (some a)) : m'.audience g = m.audience g := by
  have same (hc : m'.cogs = m.cogs) : m'.audience g = m.audience g := by rw [audience, audience, hc]
  have works {i : CogId} {y y' : Cog S A V} (hw : Works m i y y' m') (hy : y'.listeners = y.listeners) :
      m'.audience g = m.audience g := by
    by_cases hg : g = i
    · subst hg
      rw [audience_eq hw.before, audience_eq hw.here, hy]
    · rw [audience, audience, hw.after, if_neg hg]
  cases h with
  | quiet _ _ hc | allocate _ _ hc | launch _ hc | letter _ _ hc | gone _ _ _ _ hc => exact same hc
  | deed _ hw hd => exact works hw (by cases hd <;> rfl)
  | birth _ hw hg => exact works hw (by cases hg <;> rfl)

/-- Listeners stay. -/
theorem Ordered.audience_le (ho : m.Ordered) (ha : m.act move = some m') : m.audience g ≤ m'.audience g := by
  cases hx : m.cogs.get? g with
  | none => simp [audience, hx]
  | some x =>
    rw [audience_eq hx]
    -- No cog goes, and none is put in the place of another.
    have kept {x' : Cog S A V} (hx' : m'.cogs.get? g = some x')
        (longer : x.listeners.length ≤ x'.listeners.length) : x.listeners.length ≤ m'.audience g :=
      audience_eq hx' ▸ longer
    cases move with
    | step a => exact Nat.le_of_eq ((audience_eq hx).symm.trans (audience_shift (shift_act ho ha)).symm)
    | found name state =>
      cases ha
      have old : g ≠ ⟨m.nextCog⟩ := by
        rintro rfl
        exact Nat.lt_irrefl _ (ho.newCog (Option.isSome_iff_exists.mpr ⟨x, hx⟩))
      exact kept (by rw [found, Table.get?_put, if_neg old, hx]) (Nat.le_refl _)
    | listen c l =>
      cases ha
      have there := cog_onCog m c g fun y => { y with listeners := y.listeners ++ [l] }
      split at there
      · rw [hx] at there
        exact kept there (by simp)
      · exact kept (there.trans hx) (Nat.le_refl _)
    | drop c =>
      cases ha
      have there := cog_onCog m c g fun y => { y with held := false }
      split at there
      · rw [hx] at there
        exact kept there (Nat.le_refl _)
      · exact kept (there.trans hx) (Nat.le_refl _)
    | count n =>
      simp only [Machine.act] at ha
      split at ha <;> cases ha
      exact kept hx (Nat.le_refl _)
    | _ =>
      cases ha
      exact kept hx (Nat.le_refl _)

end Machine

/-! ## What one listener hears -/

/-- What has been delivered to the listener at this position that is about what `P` says. -/
def Machine.heard (m : Machine S A V) (g : CogId) (position : Nat) (P : CogId × Notice → Bool) : List Notice :=
  (m.deliveries.filter fun d => d.cog = g && d.position = position && P (d.cog, d.notice)).map (·.notice)

section
variable {P : CogId × Notice → Bool} {p : Nat}

theorem filter_range (n p : Nat) : (List.range n).filter (· = p) = if p < n then [p] else [] := by
  induction n with
  | zero => rfl
  | succ n ih =>
    rw [List.range_succ, List.filter_append, ih]
    by_cases hp : p < n
    · have ne : n ≠ p := by omega
      simp [hp, ne, Nat.lt_succ_of_lt hp]
    · by_cases e : n = p
      · simp [e]
      · have ne : ¬ p < n + 1 := by omega
        simp [hp, e, ne]

/-- Of what is delivered at once, a listener gets one copy. -/
theorem heard_calls (m : Machine S A V) (q : CogId × Notice) :
    ((m.calls q).filter fun d => d.cog = g && d.position = p && P (d.cog, d.notice)).map (·.notice) =
      if q.1 = g ∧ p < m.audience g ∧ P q = true then [q.2] else [] := by
  unfold calls
  rw [List.filter_map, List.map_map]
  by_cases concerned : q.1 = g ∧ P q = true
  · obtain ⟨rfl, hq⟩ := concerned
    have mine : ((fun d : Delivery => d.cog = q.1 && d.position = p && P (d.cog, d.notice)) ∘
        fun position => ({ cog := q.1, position, notice := q.2 } : Delivery)) = fun position => decide (position = p) := by
      funext position
      simp [hq]
    rw [mine, filter_range]
    split <;> simp_all
  · have none : ((fun d : Delivery => d.cog = g && d.position = p && P (d.cog, d.notice)) ∘
        fun position => ({ cog := q.1, position, notice := q.2 } : Delivery)) = fun _ => false := by
      funext position
      by_cases hg : q.1 = g
      · subst hg
        simp_all
      · simp [hg]
    rw [none, if_neg fun h => concerned ⟨h.1, h.2.2⟩]
    simp

theorem heard_act (ha : m.act move = some m') :
    m'.heard g p P = m.heard g p P ++ ((⟨m, move, m'⟩ : Move S A V).tells?.toList.flatMap fun e =>
      if e.2.1 = g ∧ p < m.audience g ∧ P e.2 = true then [e.2.2] else []) := by
  unfold heard
  rw [deliveries_act ha, List.filter_append, List.map_append]
  congr 1
  cases (⟨m, move, m'⟩ : Move S A V).tells? with
  | none => rfl
  | some e => simpa using heard_calls m e.2

/-- A listener has heard nothing but what has been told. -/
theorem History.spoken_of_heard (h : History (.empty r memory) moves m) {n : Notice} (hn : n ∈ m.heard g p P) :
    ∃ e ∈ spoken moves, P e.2 = true ∧ e.2.2 = n := by
  induction h with
  | refl => cases hn
  | @act moves m m' move h ha ih =>
    rw [heard_act ha] at hn
    rw [spoken_snoc]
    rcases List.mem_append.mp hn with old | new
    · obtain ⟨e, he, concerns, rfl⟩ := ih old
      exact ⟨e, List.mem_append_left _ he, concerns, rfl⟩
    · obtain ⟨e, he, hn⟩ := List.mem_flatMap.mp new
      split at hn
      · next he' =>
        cases List.mem_singleton.mp hn
        exact ⟨e, List.mem_append_right _ he, he'.2.2, rfl⟩
      · cases hn

/-- From when it has been registered, a listener has heard all that has been told. -/
theorem History.heard_since {n : Machine S A V} (h : History n later m) (hn : Reachable (.empty r memory) n)
    (hP : ∀ q, P q = true → q.1 = g) (listening : p < n.audience g) :
    p < m.audience g ∧ m.heard g p P = n.heard g p P ++ ((spoken later).filter (P ·.2)).map (·.2.2) := by
  induction h with
  | refl => exact ⟨listening, by simp [spoken]⟩
  | @act later m m' move h ha ih =>
    obtain ⟨there, heard⟩ := ih
    refine ⟨Nat.lt_of_lt_of_le there ((hn.trans h.reachable).ordered.audience_le ha), ?_⟩
    rw [heard_act ha, heard, spoken_snoc, List.filter_append, List.map_append, List.append_assoc]
    congr 2
    cases (⟨m, move, m'⟩ : Move S A V).tells? with
    | none => rfl
    | some e =>
      cases he : P e.2 with
      | true => simp [he, there, hP e.2 he]
      | false => simp [he]

end

end ObjectGroups
