/-
Every action keeps the machine ordered.

There is one lemma for each way in which an action can meet `Ordered`: a
thread turns and no cog changes, a thread does a deed, a context gets its
thread, or no thread turns. Tasks are followed apart from the rest: at most
one of them moves.
-/
import ObjectGroups.Proofs.Deeds

namespace ObjectGroups

open Machine (Berthed)

variable {S A V : Type} {m m' : Machine S A V} {a : Agent} {g : CogId}
  {own : Option CogId} {s s' : Stance} {x x' : Cog S A V} {loud : Bool}

/-! ## Tasks move -/

/-- At most one task moves: the task `k` to the place `q`, from `p` or as a new task. -/
inductive Moves (m m' : Machine S A V) : Prop where
  | stay : (∀ t p, m'.Berthed t p → m.Berthed t p) → Moves m m'
  | move (k : TaskId) (p q : Berth) : m.Berthed k p →
      (∀ t r, m'.Berthed t r → (t = k ∧ r = q) ∨ (m.Berthed t r ∧ ¬ (t = k ∧ r = p))) → Moves m m'
  | enter (q : Berth) : m.nextTask.val < m'.nextTask.val →
      (∀ t r, m'.Berthed t r → (t = m.nextTask ∧ r = q) ∨ m.Berthed t r) → Moves m m'

namespace Moves

variable (h : Moves m m') (ho : m.Ordered)
include h ho

theorem berth {t : TaskId} {p q : Berth} (hp : m'.Berthed t p) (hq : m'.Berthed t q) : p = q := by
  cases h with
  | stay hs => exact ho.berth (hs t p hp) (hs t q hq)
  | move k p₀ q₀ hk hm =>
    rcases hm t p hp with ⟨rfl, rfl⟩ | ⟨hp, np⟩ <;> rcases hm t q hq with ⟨ht, rfl⟩ | ⟨hq, nq⟩
    · rfl
    · exact absurd ⟨rfl, ho.berth hq hk⟩ nq
    · subst ht; exact absurd ⟨rfl, ho.berth hp hk⟩ np
    · exact ho.berth hp hq
  | enter q₀ hn hm =>
    rcases hm t p hp with ⟨ht, rfl⟩ | hp <;> rcases hm t q hq with ⟨hk, rfl⟩ | hq
    · rfl
    · subst ht; exact absurd (ho.newTask hq) (Nat.lt_irrefl _)
    · subst hk; exact absurd (ho.newTask hp) (Nat.lt_irrefl _)
    · exact ho.berth hp hq

theorem newTask (hn : m.nextTask.val ≤ m'.nextTask.val) {t : TaskId} {p : Berth}
    (hp : m'.Berthed t p) : t.val < m'.nextTask.val := by
  cases h with
  | stay hs => exact Nat.lt_of_lt_of_le (ho.newTask (hs t p hp)) hn
  | move k p₀ q₀ hk hm =>
    rcases hm t p hp with ⟨rfl, -⟩ | ⟨hp, -⟩
    · exact Nat.lt_of_lt_of_le (ho.newTask hk) hn
    · exact Nat.lt_of_lt_of_le (ho.newTask hp) hn
  | enter q₀ hn' hm =>
    rcases hm t p hp with ⟨rfl, -⟩ | hp
    · exact hn'
    · exact Nat.lt_of_lt_of_le (ho.newTask hp) hn

end Moves

/-! ## One kind of action at a time -/

/-- Numbers are given out in order. -/
structure Issues (m m' : Machine S A V) : Prop where
  context : m.registry.nextContext.val ≤ m'.registry.nextContext.val
  task : m.nextTask.val ≤ m'.nextTask.val
  cog : m.nextCog ≤ m'.nextCog
  caller : m.nextCaller ≤ m'.nextCaller

theorem Issues.of_eq (h : m'.issue = m.issue) : Issues m m' := by
  simp only [Machine.issue, Prod.mk.injEq] at h
  obtain ⟨hc, ht, hg, hn⟩ := h
  constructor <;> simp [*]

theorem Shift.issues {actor : Option Agent} (h : Shift m m' actor) : Issues m m' := by
  cases h with
  | quiet _ _ _ hi => exact .of_eq hi
  | deed _ _ _ _ hi => exact .of_eq hi
  | birth _ _ _ _ hi => exact .of_eq hi
  | launch _ _ hi => exact .of_eq hi
  | gone _ _ _ _ _ hi => exact .of_eq hi
  | furnish _ _ _ hi => exact .of_eq hi
  | rest _ _ hi => exact .of_eq hi
  | allocate _ _ _ hi | letter _ _ _ hi | arrive _ _ _ hi | found _ _ _ _ hi =>
    simp only [Machine.issue, Prod.mk.injEq] at hi
    obtain ⟨hc, ht, hg, hn⟩ := hi
    constructor <;> simp [hc, ht, hg, hn, ContextId.next, TaskId.next]

/-- A thread that hosts a task or is between tasks has a cog. -/
theorem Machine.Ordered.own_of_hosts (ho : m.Ordered) (hl : m.look a = some (own, s))
    (hs : s.hosts = true) : own ≠ none := by
  obtain ⟨g, -, -, rfl, -⟩ := ho.home_of_hosts hl hs
  exact Option.some_ne_none g

theorem Machine.Ordered.newcomer_turns (ho : m.Ordered) (ht : Turns m a own s s' m')
    (hi : Issues m m') (hnew : ∀ c, s'.newcomer? = some c → s.newcomer? = some c ∨
      (c = m.registry.nextContext ∧ m.registry.nextContext.val < m'.registry.nextContext.val))
    {b : Agent} {own₁ : Option CogId} {s₁ : Stance} {c : ContextId}
    (hb : m'.look b = some (own₁, s₁)) (hs : s₁.newcomer? = some c) :
    c.val < m'.registry.nextContext.val ∧ m'.look (.context c) = none ∧
      ∀ b' own' s', m'.look b' = some (own', s') → s'.newcomer? = some c → b' = b := by
  rcases ht.cases hb with ⟨rfl, rfl, rfl⟩ | ⟨hba, hb⟩
  · rcases hnew c hs with hold | ⟨rfl, hlt⟩
    · obtain ⟨hlt, habs, huniq⟩ := ho.newcomer ht.before hold
      refine ⟨Nat.lt_of_lt_of_le hlt hi.context, ht.absent habs, fun b' own' s' hb' hs' => ?_⟩
      rcases ht.cases hb' with ⟨rfl, -, -⟩ | ⟨-, hb'⟩
      · rfl
      · exact huniq b' own' s' hb' hs'
    · refine ⟨hlt, ht.absent ?_, fun b' own' s' hb' hs' => ?_⟩
      · cases hl : m.look (.context m.registry.nextContext) with
        | none => rfl
        | some p => exact absurd (ho.newContext (by simp [hl])) (Nat.lt_irrefl _)
      · rcases ht.cases hb' with ⟨rfl, -, -⟩ | ⟨-, hb'⟩
        · rfl
        · exact absurd (ho.newcomer hb' hs').1 (Nat.lt_irrefl _)
  · obtain ⟨hlt, habs, huniq⟩ := ho.newcomer hb hs
    refine ⟨Nat.lt_of_lt_of_le hlt hi.context, ht.absent habs, fun b' own' s' hb' hs' => ?_⟩
    rcases ht.cases hb' with ⟨rfl, rfl, rfl⟩ | ⟨-, hb'⟩
    · rcases hnew c hs' with hold | ⟨rfl, -⟩
      · exact huniq _ _ _ ht.before hold
      · exact absurd hlt (Nat.lt_irrefl _)
    · exact huniq b' own' s' hb' hs'

/-- A thread that turns without touching a cog leaves the tasks where they are, or has the next one
to submit. -/
theorem Turns.moves (ht : Turns m a own s s' m') (hc : m'.cogs = m.cogs)
    (hseat : ∀ seat, s'.seat? = some seat → s.seat? = some seat)
    (hletter : ∀ k, s'.letter? = some k →
      s.letter? = some k ∨ (k = m.nextTask ∧ m.nextTask.val < m'.nextTask.val)) : Moves m m' := by
  have old {t : TaskId} {r : Berth} (hr : m'.Berthed t r) :
      (r = .letter a ∧ s'.letter? = some t) ∨ m.Berthed t r := by
    cases r with
    | seat b =>
      obtain ⟨own₁, s₁, active, hb, hs⟩ := hr
      rcases ht.cases hb with ⟨rfl, rfl, rfl⟩ | ⟨-, hb⟩
      · exact .inr ⟨_, _, _, ht.before, hseat _ hs⟩
      · exact .inr ⟨_, _, _, hb, hs⟩
    | letter b =>
      obtain ⟨own₁, s₁, hb, hs⟩ := hr
      rcases ht.cases hb with ⟨rfl, rfl, rfl⟩ | ⟨-, hb⟩
      · exact .inl ⟨rfl, hs⟩
      · exact .inr ⟨_, _, hb, hs⟩
    | queue i => exact .inr (by simpa only [Berthed, hc] using hr)
  by_cases hk : s'.letter? = some m.nextTask ∧ m.nextTask.val < m'.nextTask.val
  · refine .enter (.letter a) hk.2 fun t r hr => ?_
    rcases old hr with ⟨rfl, hs⟩ | hr
    · exact .inl ⟨Option.some.inj (hs.symm.trans hk.1), rfl⟩
    · exact .inr hr
  · refine .stay fun t r hr => ?_
    rcases old hr with ⟨rfl, hs⟩ | hr
    · rcases hletter t hs with hs | ⟨rfl, hlt⟩
      · exact ⟨_, _, ht.before, hs⟩
      · exact absurd ⟨hs, hlt⟩ hk
    · exact hr

/-- A thread that turns without touching a cog keeps order, if its new stance
has no more of the slot, of a lock and of tasks than the old one. -/
theorem Machine.Ordered.turns (ho : m.Ordered) (ht : Turns m a own s s' m')
    (hc : m'.cogs = m.cogs) (hi : Issues m m') (hlock : s'.lock own = s.lock own)
    (hgrants : s'.grants = s.grants) (hslot : s'.slot = true → s.slot = true)
    (hseat : ∀ seat, s'.seat? = some seat → s.seat? = some seat)
    (hhosts : s'.hosts = true → s.hosts = true)
    (hletter : ∀ k, s'.letter? = some k →
      s.letter? = some k ∨ (k = m.nextTask ∧ m.nextTask.val < m'.nextTask.val))
    (hnew : ∀ c, s'.newcomer? = some c → s.newcomer? = some c ∨
      (c = m.registry.nextContext ∧ m.registry.nextContext.val < m'.registry.nextContext.val)) :
    m'.Ordered := by
  have moves := ht.moves hc hseat hletter
  constructor
  case home =>
    intro b i s₁ hb
    rw [hc]
    rcases ht.cases hb with ⟨rfl, rfl, rfl⟩ | ⟨-, hb⟩
    · exact ho.home ht.before
    · exact ho.home hb
  case alone =>
    intro b s₁ hb
    rcases ht.cases hb with ⟨rfl, rfl, rfl⟩ | ⟨-, hb⟩
    · cases hh : s₁.hosts with
      | false => rfl
      | true => exact absurd rfl (ho.own_of_hosts ht.before (hhosts hh))
    · exact ho.alone hb
  case holder =>
    intro c i s₁ y hb hy hs
    rw [hc] at hy
    rcases ht.cases hb with ⟨rfl, rfl, rfl⟩ | ⟨-, hb⟩
    · obtain ⟨h₁, h₂⟩ := ho.holder ht.before hy (hslot hs)
      exact ⟨h₁, fun k hk => h₂ k (hseat _ hk)⟩
    · exact ho.holder hb hy hs
  case locks =>
    intro b own₁ s₁ i hb hs
    rw [hc]
    rcases ht.cases hb with ⟨rfl, rfl, rfl⟩ | ⟨-, hb⟩
    · rw [hgrants]
      exact ho.locks ht.before (hlock ▸ hs)
    · exact ho.locks hb hs
  case locker =>
    intro i y b hy hb
    rw [hc] at hy
    obtain ⟨own₁, s₁, hl, hs⟩ := ho.locker hy hb
    by_cases e : b = a
    · subst e
      obtain ⟨rfl, rfl⟩ : own = own₁ ∧ s = s₁ := by simpa [ht.before] using hl
      exact ⟨_, _, ht.after, hlock ▸ hs⟩
    · exact ⟨_, _, by rw [ht.look, if_neg e, hl], hs⟩
  case berth => exact moves.berth ho
  case queued =>
    intro i y hy
    exact ho.queued (hc ▸ hy)
  case newTask => exact moves.newTask ho hi.task
  case newContext =>
    intro c hb
    exact Nat.lt_of_lt_of_le (ho.newContext (ht.present hb)) hi.context
  case newcomer => exact ho.newcomer_turns ht hi hnew
  case newCaller =>
    intro n hb
    exact Nat.lt_of_lt_of_le (ho.newCaller (ht.present hb)) hi.caller
  case newCog =>
    intro i hy
    exact Nat.lt_of_lt_of_le (ho.newCog (hc ▸ hy)) hi.cog

theorem Deed.moves (ho : m.Ordered) (ht : Turns m a own s s' m') (hw : Works m g x x' m')
    (hd : Deed g a own loud s x s' x') : Moves m m' := by
  have letter_none {t : TaskId} {b : Agent} (hl : s'.letter? = none)
      (hr : m'.Berthed t (.letter b)) : b ≠ a ∧ m.Berthed t (.letter b) := by
    obtain ⟨own₁, s₁, hb, hs⟩ := hr
    rcases ht.cases hb with ⟨rfl, rfl, rfl⟩ | ⟨hne, hb⟩
    · rw [hl] at hs
      cases hs
    · exact ⟨hne, _, _, hb, hs⟩
  rcases hd.tasks with ⟨hl, hseat, hq⟩ | ⟨k, hl, hseat, hq⟩ | ⟨k, hlk, hl, hseat, hq⟩
  · refine .stay fun t r hr => ?_
    cases r with
    | seat b =>
      obtain ⟨own₁, s₁, active, hb, hs⟩ := hr
      rcases ht.cases hb with ⟨rfl, rfl, rfl⟩ | ⟨-, hb⟩
      · obtain ⟨active, hs⟩ := hseat _ _ hs
        exact ⟨_, _, _, ht.before, hs⟩
      · exact ⟨_, _, _, hb, hs⟩
    | letter b => exact (letter_none hl hr).2
    | queue i =>
      obtain ⟨y, hy, hty⟩ := hr
      rcases hw.cases hy with ⟨rfl, rfl⟩ | ⟨-, hy⟩
      · exact ⟨x, hw.before, hq.subset hty⟩
      · exact ⟨y, hy, hty⟩
  · -- The head of the queue becomes the task of the thread.
    have head : m.Berthed k (.queue g) := ⟨x, hw.before, by simp [hq]⟩
    refine .move k (.queue g) (.seat a) head fun t r hr => ?_
    cases r with
    | seat b =>
      obtain ⟨own₁, s₁, active, hb, hs⟩ := hr
      rcases ht.cases hb with ⟨rfl, rfl, rfl⟩ | ⟨-, hb⟩
      · rw [hseat] at hs
        cases hs
        exact .inl ⟨rfl, rfl⟩
      · exact .inr ⟨⟨_, _, _, hb, hs⟩, by simp⟩
    | letter b => exact .inr ⟨(letter_none hl hr).2, by simp⟩
    | queue i =>
      obtain ⟨y, hy, hty⟩ := hr
      rcases hw.cases hy with ⟨rfl, rfl⟩ | ⟨hne, hy⟩
      · refine .inr ⟨⟨x, hw.before, by simp [hq, hty]⟩, ?_⟩
        rintro ⟨rfl, -⟩
        have nodup := ho.queued hw.before
        rw [hq, List.nodup_cons] at nodup
        exact nodup.1 hty
      · exact .inr ⟨⟨y, hy, hty⟩, by simp [hne]⟩
  · -- The task that the thread was about to submit goes to the end of the queue.
    have letter : m.Berthed k (.letter a) := ⟨_, _, ht.before, hlk⟩
    refine .move k (.letter a) (.queue g) letter fun t r hr => ?_
    cases r with
    | seat b =>
      obtain ⟨own₁, s₁, active, hb, hs⟩ := hr
      rcases ht.cases hb with ⟨rfl, rfl, rfl⟩ | ⟨-, hb⟩
      · exact .inr ⟨⟨_, _, _, ht.before, hseat ▸ hs⟩, by simp⟩
      · exact .inr ⟨⟨_, _, _, hb, hs⟩, by simp⟩
    | letter b =>
      obtain ⟨hne, hb⟩ := letter_none hl hr
      exact .inr ⟨hb, by simp [hne]⟩
    | queue i =>
      obtain ⟨y, hy, hty⟩ := hr
      rcases hw.cases hy with ⟨rfl, rfl⟩ | ⟨-, hy⟩
      · rw [hq, List.mem_append, List.mem_singleton] at hty
        rcases hty with hty | rfl
        · exact .inr ⟨⟨x, hw.before, hty⟩, by simp⟩
        · exact .inl ⟨rfl, rfl⟩
      · exact .inr ⟨⟨y, hy, hty⟩, by simp⟩

theorem Machine.Ordered.deed (ho : m.Ordered) (ht : Turns m a own s s' m')
    (hw : Works m g x x' m') (hd : Deed g a own loud s x s' x') (hi : m'.issue = m.issue) :
    m'.Ordered := by
  have moves := hd.moves ho ht hw
  have hi := Issues.of_eq hi
  constructor
  case home =>
    intro b i s₁ hb
    rcases ht.cases hb with ⟨rfl, rfl, rfl⟩ | ⟨-, hb⟩
    · exact ⟨(ho.home ht.before).1, hw.cog (ho.home ht.before).2⟩
    · exact ⟨(ho.home hb).1, hw.cog (ho.home hb).2⟩
  case alone =>
    intro b s₁ hb
    rcases ht.cases hb with ⟨rfl, rfl, rfl⟩ | ⟨-, hb⟩
    · cases hh : s₁.hosts with
      | false => rfl
      | true => exact absurd rfl (hd.hosts hh (ho.own_of_hosts ht.before))
    · exact ho.alone hb
  case holder =>
    intro c i s₁ y hb hy hs
    rcases hw.cases hy with ⟨rfl, rfl⟩ | ⟨hne, hy⟩
    · rcases ht.cases hb with ⟨rfl, rfl, rfl⟩ | ⟨hca, hb⟩
      · refine ⟨hd.holder rfl hs rfl fun hs => (ho.holder ht.before hw.before hs).1, fun k hk => ?_⟩
        refine hd.holderTask hk rfl fun hk => (ho.holder ht.before hw.before ?_).2 k hk
        simp [Stance.slot, hk]
      · obtain ⟨hactive, htask⟩ := ho.holder hb hw.before hs
        -- The slot is the other thread's, so it cannot be the doer's.
        have free : ¬ (s.slot = true ∧ own = some i) := by
          rintro ⟨hss, rfl⟩
          obtain ⟨⟨d, rfl⟩, -⟩ := ho.home ht.before
          have := (ho.holder ht.before hw.before hss).1
          rw [hactive] at this
          cases this
          exact hca rfl
        refine ⟨hd.active free hca hactive, fun k hk => ?_⟩
        refine hd.activeTask free hactive (fun b hb' => hca ?_) (htask k hk)
        have berth := ho.berth (p := .seat a) (q := .seat (.context c))
          ⟨_, _, _, ht.before, hb'⟩ ⟨_, _, _, hb, hk⟩
        injection berth with berth
        exact berth.symm
    · rcases ht.cases hb with ⟨rfl, rfl, rfl⟩ | ⟨-, hb⟩
      · obtain ⟨hseat, hslot⟩ := hd.guest fun e => hne (Option.some.inj e)
        rw [hseat]
        exact ho.holder ht.before hy (hslot hs)
      · exact ho.holder hb hy hs
  case locks =>
    intro b own₁ s₁ i hb hs
    rcases ht.cases hb with ⟨rfl, rfl, rfl⟩ | ⟨hba, hb⟩
    · cases hd.lock_own hs
      refine ⟨x', hw.here, hd.lock_self hs fun hss hown c hc => ?_⟩
      subst hown hc
      exact (ho.holder ht.before hw.before hss).1
    · obtain ⟨y, hy, hlock, hgrants⟩ := ho.locks hb hs
      by_cases e : i = g
      · subst e
        obtain rfl : x = y := Option.some.inj (hw.before.symm.trans hy)
        have holds (hs : s.lock own = some i) : x.lock = some a := by
          obtain ⟨y, hy, hlock, -⟩ := ho.locks ht.before hs
          cases hw.before.symm.trans hy
          exact hlock
        obtain ⟨hlock', hactive⟩ := hd.lock_other hba hlock holds
        exact ⟨x', hw.here, hlock', hactive ▸ hgrants⟩
      · exact ⟨y, by rw [hw.after, if_neg e, hy], hlock, hgrants⟩
  case locker =>
    intro i y b hy hb
    have found {j : CogId} {z : Cog S A V} (hz : m.cogs.get? j = some z) (hl : z.lock = some a) :
        s.lock own = some j := by
      obtain ⟨own₁, s₁, hl, hs⟩ := ho.locker hz hl
      cases ht.before.symm.trans hl
      exact hs
    have other {j : CogId} {z : Cog S A V} (hz : m.cogs.get? j = some z) (hl : z.lock = some b)
        (hba : b ≠ a) : ∃ own₁ s₁, m'.look b = some (own₁, s₁) ∧ s₁.lock own₁ = some j := by
      obtain ⟨own₁, s₁, hl, hs⟩ := ho.locker hz hl
      exact ⟨_, _, by rw [ht.look, if_neg hba, hl], hs⟩
    rcases hw.cases hy with ⟨rfl, rfl⟩ | ⟨hne, hy⟩
    · rcases hd.locker hb (found hw.before) with ⟨rfl, hs⟩ | ⟨hba, hb⟩
      · exact ⟨_, _, ht.after, hs⟩
      · exact other hw.before hb hba
    · by_cases e : b = a
      · subst e
        have hs := found hy hb
        rcases hd.lock_eq with hn | hg
        · rw [hn] at hs
          cases hs
        · rw [hg] at hs
          exact absurd (Option.some.inj hs).symm hne
      · exact other hy hb e
  case berth => exact moves.berth ho
  case queued =>
    intro i y hy
    rcases hw.cases hy with ⟨rfl, rfl⟩ | ⟨-, hy⟩
    · have nodup := ho.queued hw.before
      rcases hd.tasks with ⟨-, -, hq⟩ | ⟨k, -, -, hq⟩ | ⟨k, hlk, -, -, hq⟩
      · exact nodup.sublist hq
      · rw [hq, List.nodup_cons] at nodup
        exact nodup.2
      · rw [hq, List.nodup_append]
        refine ⟨nodup, by simp, fun t ht' k' hk' => ?_⟩
        rintro rfl
        cases List.mem_singleton.mp hk'
        cases ho.berth (p := .letter a) (q := .queue i) ⟨_, _, ht.before, hlk⟩ ⟨x, hw.before, ht'⟩
    · exact ho.queued hy
  case newTask => exact moves.newTask ho hi.task
  case newContext =>
    intro c hb
    exact Nat.lt_of_lt_of_le (ho.newContext (ht.present hb)) hi.context
  case newcomer =>
    exact ho.newcomer_turns ht hi fun c hc => by rw [hd.newcomer] at hc; cases hc
  case newCaller =>
    intro n hb
    exact Nat.lt_of_lt_of_le (ho.newCaller (ht.present hb)) hi.caller
  case newCog =>
    intro i hy
    refine Nat.lt_of_lt_of_le (ho.newCog ?_) hi.cog
    rw [hw.after] at hy
    split at hy
    · next e => simp [e, hw.before]
    · exact hy

section
variable {c : ContextId} {cog : Option CogId} {first : Stance} {f : Cog S A V → Cog S A V}
  (hb : Births m a own s s' c cog first m')
  (hfirst : (∃ g, cog = some g ∧ first = .claim) ∨ (cog = none ∧ first = .body none))
include hb

/-- A cog is as it was, or it is the newcomer's and was free, locked by the starter. -/
theorem Machine.Ordered.cog_births (ho : m.Ordered)
    (hs : s.lock own = cog ∧ (cog ≠ none → s.grants = true))
    (hcogs : ∀ i, m'.cogs.get? i = (m.cogs.get? i).map fun x => if cog = some i then f x else x)
    (hf : ∀ g x, cog = some g → m.cogs.get? g = some x → (f x).scheduler.active = some c ∧
      (f x).lock = none ∧ (f x).scheduler.queued = x.scheduler.queued)
    {i : CogId} {y : Cog S A V} (hy : m'.cogs.get? i = some y) :
    ∃ x, m.cogs.get? i = some x ∧ y.scheduler.queued = x.scheduler.queued ∧
      ((cog ≠ some i ∧ y = x) ∨ (cog = some i ∧ x.scheduler.active = none ∧ x.lock = some a ∧
        y.scheduler.active = some c ∧ y.lock = none)) := by
  rw [hcogs] at hy
  obtain ⟨x, hx, rfl⟩ := Option.map_eq_some_iff.mp hy
  by_cases e : cog = some i
  · obtain ⟨ha, hl, hq⟩ := hf i x e hx
    obtain ⟨x₁, hx₁, hlock, hgrants⟩ := ho.locks hb.before (hs.1.trans e)
    obtain rfl : x = x₁ := Option.some.inj (hx.symm.trans hx₁)
    refine ⟨x, hx, by rw [if_pos e, hq], .inr ⟨e, hgrants (hs.2 (by simp [e])), hlock, ?_⟩⟩
    rw [if_pos e]
    exact ⟨ha, hl⟩
  · exact ⟨x, hx, by rw [if_neg e], .inl ⟨e, by rw [if_neg e]⟩⟩

include hfirst

/-- No task goes anywhere. -/
theorem Births.moves (hletter : s'.letter? = none)
    (hseat : ∀ seat, s'.seat? = some seat → s.seat? = some seat)
    (hqueue : ∀ i y, m'.cogs.get? i = some y →
      ∃ x, m.cogs.get? i = some x ∧ y.scheduler.queued = x.scheduler.queued) : Moves m m' := by
  refine .stay fun t r hr => ?_
  cases r with
  | seat b =>
    obtain ⟨own₁, s₁, active, hl, hk⟩ := hr
    rcases hb.cases hl with ⟨rfl, rfl, rfl⟩ | ⟨-, -, -, rfl⟩ | ⟨-, -, hl⟩
    · exact ⟨_, _, _, hb.before, hseat _ hk⟩
    · rcases hfirst with ⟨_, -, rfl⟩ | ⟨-, rfl⟩ <;> cases hk
    · exact ⟨_, _, _, hl, hk⟩
  | letter b =>
    obtain ⟨own₁, s₁, hl, hk⟩ := hr
    rcases hb.cases hl with ⟨rfl, rfl, rfl⟩ | ⟨-, -, -, rfl⟩ | ⟨-, -, hl⟩
    · rw [hletter] at hk
      cases hk
    · rcases hfirst with ⟨_, -, rfl⟩ | ⟨-, rfl⟩ <;> cases hk
    · exact ⟨_, _, hl, hk⟩
  | queue i =>
    obtain ⟨y, hy, hk⟩ := hr
    obtain ⟨x, hx, hq⟩ := hqueue i y hy
    exact ⟨x, hx, hq ▸ hk⟩

/-- Neither the starter nor the new thread is about to start a context. -/
theorem Machine.Ordered.newcomer_births (ho : m.Ordered) (hnone : s'.newcomer? = none)
    (hi : Issues m m') {b : Agent} {own₁ : Option CogId} {s₁ : Stance} {d : ContextId}
    (hl : m'.look b = some (own₁, s₁)) (hd : s₁.newcomer? = some d) :
    d.val < m'.registry.nextContext.val ∧ m'.look (.context d) = none ∧
      ∀ b' own' s', m'.look b' = some (own', s') → s'.newcomer? = some d → b' = b := by
  obtain ⟨-, -, unique⟩ :=
    ho.newcomer (c := c) hb.before (by simp [Stance.newcomer?, hb.launches])
  have old {b : Agent} {own₁ : Option CogId} {s₁ : Stance} (hl : m'.look b = some (own₁, s₁))
      (hd : s₁.newcomer? = some d) : b ≠ a ∧ m.look b = some (own₁, s₁) := by
    rcases hb.cases hl with ⟨rfl, rfl, rfl⟩ | ⟨-, -, -, rfl⟩ | ⟨hne, -, hl⟩
    · rw [hnone] at hd
      cases hd
    · rcases hfirst with ⟨_, -, rfl⟩ | ⟨-, rfl⟩ <;> cases hd
    · exact ⟨hne, hl⟩
  obtain ⟨hba, hl⟩ := old hl hd
  obtain ⟨hlt, habs, huniq⟩ := ho.newcomer hl hd
  refine ⟨Nat.lt_of_lt_of_le hlt hi.context, ?_, fun b' own' s' hl' hd' => ?_⟩
  · have hdc : .context d ≠ Agent.context c := fun e => by
      cases e
      exact hba (unique b own₁ s₁ hl hd)
    have hda : .context d ≠ a := fun e => by
      rw [e, hb.before] at habs
      cases habs
    rw [hb.look, if_neg hda, if_neg hdc, habs]
  · exact huniq b' own' s' (old hl' hd').2 hd'

/-- A context that gets its thread keeps order, if the slot and the lock of its
cog were the starter's to give. -/
theorem Machine.Ordered.births (ho : m.Ordered)
    (hs : s.lock own = cog ∧ (cog ≠ none → s.grants = true))
    (hs' : s'.lock own = none ∧ s'.letter? = none ∧ s'.newcomer? = none)
    (hslot : s'.slot = true → s.slot = true)
    (hseat : ∀ seat, s'.seat? = some seat → s.seat? = some seat)
    (hhosts : s'.hosts = true → s.hosts = true)
    (hcogs : ∀ i, m'.cogs.get? i = (m.cogs.get? i).map fun x => if cog = some i then f x else x)
    (hf : ∀ g x, cog = some g → m.cogs.get? g = some x → (f x).scheduler.active = some c ∧
      (f x).lock = none ∧ (f x).scheduler.queued = x.scheduler.queued)
    (hi : m'.issue = m.issue) : m'.Ordered := by
  have hi := Issues.of_eq hi
  obtain ⟨hclt, hcabs, -⟩ :=
    ho.newcomer (c := c) hb.before (by simp [Stance.newcomer?, hb.launches])
  have cogs {i : CogId} {y : Cog S A V} (hy : m'.cogs.get? i = some y) :=
    ho.cog_births hb hs hcogs hf hy
  have there {i : CogId} (h : ∃ x, m.cogs.get? i = some x) : ∃ x, m'.cogs.get? i = some x := by
    obtain ⟨x, hx⟩ := h
    exact ⟨_, by rw [hcogs, hx]; rfl⟩
  have moves : Moves m m' := hb.moves hfirst hs'.2.1 hseat fun i y hy => by
    obtain ⟨x, hx, hq, -⟩ := cogs hy
    exact ⟨x, hx, hq⟩
  constructor
  case home =>
    intro b i s₁ hl
    rcases hb.cases hl with ⟨rfl, rfl, rfl⟩ | ⟨-, rfl, rfl, -⟩ | ⟨-, -, hl⟩
    · exact ⟨(ho.home hb.before).1, there (ho.home hb.before).2⟩
    · obtain ⟨x, hx, -⟩ := ho.locks hb.before hs.1
      exact ⟨⟨c, rfl⟩, there ⟨x, hx⟩⟩
    · exact ⟨(ho.home hl).1, there (ho.home hl).2⟩
  case alone =>
    intro b s₁ hl
    rcases hb.cases hl with ⟨rfl, rfl, rfl⟩ | ⟨-, rfl, rfl, rfl⟩ | ⟨-, -, hl⟩
    · cases hh : s₁.hosts with
      | false => rfl
      | true => exact absurd rfl (ho.own_of_hosts hb.before (hhosts hh))
    · rcases hfirst with ⟨_, e, -⟩ | ⟨-, rfl⟩
      · cases e
      · rfl
    · exact ho.alone hl
  case holder =>
    intro d i s₁ y hl hy hss
    obtain ⟨x, hx, -, ⟨hne, rfl⟩ | ⟨hcog, hfree, hlock, hactive, -⟩⟩ := cogs hy
    · rcases hb.cases hl with ⟨rfl, rfl, rfl⟩ | ⟨-, -, e, -⟩ | ⟨-, -, hl⟩
      · obtain ⟨h₁, h₂⟩ := ho.holder hb.before hx (hslot hss)
        exact ⟨h₁, fun k hk => h₂ k (hseat _ hk)⟩
      · exact absurd e.symm hne
      · exact ho.holder hl hx hss
    · rcases hb.cases hl with ⟨rfl, rfl, rfl⟩ | ⟨-, e, -, rfl⟩ | ⟨-, -, hl⟩
      · have := (ho.holder hb.before hx (hslot hss)).1
        rw [hfree] at this
        cases this
      · cases e
        rcases hfirst with ⟨_, -, rfl⟩ | ⟨e, -⟩
        · exact ⟨hactive, fun k hk => by cases hk⟩
        · rw [hcog] at e
          cases e
      · have := (ho.holder hl hx hss).1
        rw [hfree] at this
        cases this
  case locks =>
    intro b own₁ s₁ i hl hss
    rcases hb.cases hl with ⟨rfl, rfl, rfl⟩ | ⟨-, -, -, rfl⟩ | ⟨hba, -, hl⟩
    · rw [hs'.1] at hss
      cases hss
    · rcases hfirst with ⟨_, -, rfl⟩ | ⟨-, rfl⟩ <;> cases hss
    · obtain ⟨x, hx, hlock, hgrants⟩ := ho.locks hl hss
      obtain ⟨y, hy⟩ := there ⟨x, hx⟩
      obtain ⟨x₁, hx₁, -, ⟨-, rfl⟩ | ⟨-, -, hlock', -⟩⟩ := cogs hy
      · cases hx.symm.trans hx₁
        exact ⟨_, hy, hlock, hgrants⟩
      · cases hx.symm.trans hx₁
        rw [hlock] at hlock'
        exact absurd (Option.some.inj hlock') hba
  case locker =>
    intro i y b hy hlock
    obtain ⟨x, hx, -, ⟨hne, rfl⟩ | ⟨-, -, -, -, hnone⟩⟩ := cogs hy
    · obtain ⟨own₁, s₁, hl, hss⟩ := ho.locker hx hlock
      by_cases e : b = a
      · subst e
        cases hb.before.symm.trans hl
        exact absurd (hs.1.symm.trans hss) hne
      · refine ⟨own₁, s₁, ?_, hss⟩
        have ec : b ≠ .context c := fun e => by rw [e, hcabs] at hl; cases hl
        rw [hb.look, if_neg e, if_neg ec, hl]
    · rw [hnone] at hlock
      cases hlock
  case berth => exact moves.berth ho
  case queued =>
    intro i y hy
    obtain ⟨x, hx, hq, -⟩ := cogs hy
    exact hq ▸ ho.queued hx
  case newTask => exact moves.newTask ho hi.task
  case newContext =>
    intro d hl
    refine Nat.lt_of_lt_of_le ?_ hi.context
    rw [hb.look] at hl
    split at hl
    · next e => exact ho.newContext (by simp [e, hb.before])
    · split at hl
      · next e =>
        cases e
        exact hclt
      · exact ho.newContext hl
  case newcomer => exact ho.newcomer_births hb hfirst hs'.2.2 hi
  case newCaller =>
    intro n hl
    refine Nat.lt_of_lt_of_le (ho.newCaller ?_) hi.caller
    rw [hb.look] at hl
    split at hl
    · next e => simp [e, hb.before]
    · exact hl
  case newCog =>
    intro i hy
    refine Nat.lt_of_lt_of_le (ho.newCog ?_) hi.cog
    rw [hcogs] at hy
    simpa using hy

end

/-- Order is kept where no thread turns: a thread without a lock may be gone, a
caller may have come, and so may a cog. -/
theorem Machine.Ordered.calm (ho : m.Ordered)
    (hl : ∀ b, m'.look b = m.look b ∨
      (m'.look b = none ∧ ∀ own s, m.look b = some (own, s) → s.lock own = none) ∨
      (m.look b = none ∧ m'.look b = some (none, .body none) ∧
        ∃ n, b = .caller n ∧ n < m'.nextCaller))
    (hc : ∀ i y, m'.cogs.get? i = some y →
      (∃ x, m.cogs.get? i = some x ∧ y.scheduler = x.scheduler ∧ y.lock = x.lock) ∨
      (m.cogs.get? i = none ∧ y.scheduler.queued = [] ∧ y.lock = none ∧ i.val < m'.nextCog))
    (hc' : ∀ i, (∃ x, m.cogs.get? i = some x) → ∃ y, m'.cogs.get? i = some y)
    (hi : Issues m m') : m'.Ordered := by
  have look {b : Agent} {own : Option CogId} {s : Stance} (hb : m'.look b = some (own, s)) :
      m.look b = some (own, s) ∨
        (own = none ∧ s = .body none ∧ ∃ n, b = .caller n ∧ n < m'.nextCaller) := by
    rcases hl b with e | ⟨e, -⟩ | ⟨-, e, hn⟩ <;> rw [e] at hb
    · exact .inl hb
    · cases hb
    · cases hb
      exact .inr ⟨rfl, rfl, hn⟩
  have moves : Moves m m' := .stay fun t r hr => by
    cases r with
    | seat b =>
      obtain ⟨own, s, active, hb, hs⟩ := hr
      rcases look hb with hb | ⟨-, rfl, -⟩
      · exact ⟨_, _, _, hb, hs⟩
      · cases hs
    | letter b =>
      obtain ⟨own, s, hb, hs⟩ := hr
      rcases look hb with hb | ⟨-, rfl, -⟩
      · exact ⟨_, _, hb, hs⟩
      · cases hs
    | queue i =>
      obtain ⟨y, hy, ht⟩ := hr
      rcases hc i y hy with ⟨x, hx, hs, -⟩ | ⟨-, hq, -⟩
      · exact ⟨x, hx, hs ▸ ht⟩
      · rw [hq] at ht
        cases ht
  constructor
  case home =>
    intro b i s hb
    rcases look hb with hb | ⟨e, -⟩
    · exact ⟨(ho.home hb).1, hc' i (ho.home hb).2⟩
    · cases e
  case alone =>
    intro b s hb
    rcases look hb with hb | ⟨-, rfl, -⟩
    · exact ho.alone hb
    · rfl
  case holder =>
    intro c i s y hb hy hs
    rcases look hb with hb | ⟨e, -⟩
    · rcases hc i y hy with ⟨x, hx, hsch, -⟩ | ⟨hnone, -⟩
      · exact hsch ▸ ho.holder hb hx hs
      · obtain ⟨-, x, hx⟩ := ho.home hb
        rw [hnone] at hx
        cases hx
    · cases e
  case locks =>
    intro b own s i hb hs
    rcases look hb with hb | ⟨-, rfl, -⟩
    · obtain ⟨x, hx, hlock, hgrants⟩ := ho.locks hb hs
      obtain ⟨y, hy⟩ := hc' i ⟨x, hx⟩
      rcases hc i y hy with ⟨x₁, hx₁, hsch, hlk⟩ | ⟨hnone, -⟩
      · cases hx.symm.trans hx₁
        exact ⟨y, hy, hlk ▸ hlock, hsch ▸ hgrants⟩
      · rw [hnone] at hx
        cases hx
    · cases hs
  case locker =>
    intro i y b hy hlock
    rcases hc i y hy with ⟨x, hx, -, hlk⟩ | ⟨-, -, hnone, -⟩
    · obtain ⟨own, s, hb, hs⟩ := ho.locker hx (hlk ▸ hlock)
      rcases hl b with e | ⟨-, e⟩ | ⟨e, -⟩
      · exact ⟨own, s, e ▸ hb, hs⟩
      · rw [e own s hb] at hs
        cases hs
      · rw [e] at hb
        cases hb
    · rw [hnone] at hlock
      cases hlock
  case berth => exact moves.berth ho
  case queued =>
    intro i y hy
    rcases hc i y hy with ⟨x, hx, hsch, -⟩ | ⟨-, hq, -⟩
    · exact hsch ▸ ho.queued hx
    · rw [hq]
      exact List.nodup_nil
  case newTask => exact moves.newTask ho hi.task
  case newContext =>
    intro c hb
    obtain ⟨⟨own, s⟩, hb⟩ := Option.isSome_iff_exists.mp hb
    rcases look hb with hb | ⟨-, -, n, e, -⟩
    · exact Nat.lt_of_lt_of_le (ho.newContext (by simp [hb])) hi.context
    · cases e
  case newcomer =>
    intro b own s c hb hs
    rcases look hb with hb | ⟨-, rfl, -⟩
    · obtain ⟨hlt, habs, huniq⟩ := ho.newcomer hb hs
      refine ⟨Nat.lt_of_lt_of_le hlt hi.context, ?_, fun b' own' s' hb' hs' => ?_⟩
      · rcases hl (.context c) with e | ⟨e, -⟩ | ⟨-, -, n, e, -⟩
        · rw [e, habs]
        · exact e
        · cases e
      · rcases look hb' with hb' | ⟨-, rfl, -⟩
        · exact huniq b' own' s' hb' hs'
        · cases hs'
    · cases hs
  case newCaller =>
    intro n hb
    obtain ⟨⟨own, s⟩, hb⟩ := Option.isSome_iff_exists.mp hb
    rcases look hb with hb | ⟨-, -, n', e, hn⟩
    · exact Nat.lt_of_lt_of_le (ho.newCaller (by simp [hb])) hi.caller
    · cases e
      exact hn
  case newCog =>
    intro i hy
    obtain ⟨y, hy⟩ := Option.isSome_iff_exists.mp hy
    rcases hc i y hy with ⟨x, hx, -⟩ | ⟨-, -, -, hlt⟩
    · exact Nat.lt_of_lt_of_le (ho.newCog (by simp [hx])) hi.cog
    · exact hlt

/-! ## Every action -/

theorem Machine.Ordered.shift (ho : m.Ordered) {actor : Option Agent} (h : Shift m m' actor) :
    m'.Ordered := by
  have issues := h.issues
  cases h with
  | quiet ht hq hc hi =>
    exact ho.turns ht hc (.of_eq hi) hq.lock hq.grants hq.slot (fun _ => hq.seat) hq.hosts
      (fun k hk => .inl (hq.letter ▸ hk)) fun c hc => .inl (hq.newcomer hc)
  | deed ht hw hd _ hi => exact ho.deed ht hw hd hi
  | @allocate a own s ht hs hc hi =>
    simp only [Machine.issue, Prod.mk.injEq] at hi
    obtain ⟨hnc, hnt, hng, hnn⟩ := hi
    refine ho.turns ht hc issues (by simp) (by simp) (by simp) (by simp) (by simp)
      (fun k hk => .inl (by simpa using hk)) fun c hcn => .inr ⟨?_, by simp [hnc, ContextId.next]⟩
    have stage := s.stage?_restage (.register m.registry.nextContext) hs
    simpa [Stance.newcomer?, stage] using hcn.symm
  | @birth a own s s' c g x x' hb hw hg _ hi =>
    have cogs (i : CogId) : m'.cogs.get? i =
        (m.cogs.get? i).map fun y => if some g = some i then x' else y := by
      rw [hw.after]
      by_cases e : i = g
      · simp [e, hw.before]
      · simp [e, Ne.symm e]
    cases hg with
    | submission =>
      refine ho.births hb (.inl ⟨g, rfl, rfl⟩) ⟨rfl, fun _ => rfl⟩ ⟨rfl, rfl, rfl⟩ id (fun _ => id)
        id cogs (fun i y hi hy => ?_) hi
      cases hi
      cases hw.before.symm.trans hy
      exact ⟨rfl, rfl, rfl⟩
    | handover =>
      refine ho.births hb (.inl ⟨g, rfl, rfl⟩) ⟨rfl, fun _ => rfl⟩ ⟨rfl, rfl, rfl⟩ id (fun _ => id)
        id cogs (fun i y hi hy => ?_) hi
      cases hi
      cases hw.before.symm.trans hy
      exact ⟨rfl, rfl, rfl⟩
  | launch hb hc hi =>
    exact ho.births (f := id) hb (.inr ⟨rfl, rfl⟩) ⟨rfl, fun h => absurd rfl h⟩ ⟨rfl, rfl, rfl⟩ id
      (fun _ => id) id (fun i => by simp [hc])
      (fun g x hg => by cases hg) hi
  | @letter a own seat s' ht hs hc hi =>
    simp only [Machine.issue, Prod.mk.injEq] at hi
    obtain ⟨hnc, hnt, hng, hnn⟩ := hi
    rcases hs with rfl | ⟨g, view, rfl, hv, -⟩
    · exact ho.turns ht hc issues rfl rfl id (fun _ => id) id
        (fun k hk => by cases hk) (fun c hc => by cases hc)
    · refine ho.turns ht hc issues rfl rfl id (fun _ => id) id (fun k hk => .inr ⟨?_, ?_⟩)
        (fun c hc => by cases hc)
      · rw [← hv]
        exact (Option.some.inj hk).symm
      · simp [hnt, TaskId.next]
  | @gone a own s hl hs hgone hothers hc hi =>
    refine ho.calm (fun b => ?_) (fun i y hy => .inl ⟨y, hc ▸ hy, rfl, rfl⟩) (fun i h => hc ▸ h)
      (.of_eq hi)
    by_cases e : b = a
    · subst e
      refine .inr (.inl ⟨by simp [Machine.look, hgone], fun own₁ s₁ hl₁ => ?_⟩)
      cases hl.symm.trans hl₁
      rcases hs with rfl | ⟨-, seat, rfl⟩ <;> rfl
    · exact .inl (hothers b e).look
  | arrive hl hothers hc hi =>
    simp only [Machine.issue, Prod.mk.injEq] at hi
    obtain ⟨hnc, hnt, hng, hnn⟩ := hi
    refine ho.calm (fun b => ?_) (fun i y hy => .inl ⟨y, hc ▸ hy, rfl, rfl⟩) (fun i h => hc ▸ h) issues
    by_cases e : b = .caller m.nextCaller
    · subst e
      refine .inr (.inr ⟨?_, hl, _, rfl, by simp [hnn]⟩)
      cases habs : m.look (.caller m.nextCaller) with
      | none => rfl
      | some p => exact absurd (ho.newCaller (by simp [habs])) (Nat.lt_irrefl _)
    · exact .inl (hothers b e).look
  | found name state hothers hc hi =>
    simp only [Machine.issue, Prod.mk.injEq] at hi
    obtain ⟨hnc, hnt, hng, hnn⟩ := hi
    have absent : m.cogs.get? ⟨m.nextCog⟩ = none := by
      cases habs : m.cogs.get? ⟨m.nextCog⟩ with
      | none => rfl
      | some p =>
        have present : (m.cogs.get? ⟨m.nextCog⟩).isSome := by rw [habs]; rfl
        exact absurd (ho.newCog present) (Nat.lt_irrefl _)
    refine ho.calm (fun b => .inl (hothers b).look) (fun i y hy => ?_) (fun i h => ?_) issues
    · rw [hc, Table.get?_put] at hy
      split at hy
      · next e =>
        cases hy
        exact .inr ⟨e ▸ absent, rfl, rfl, by simp [e, hng]⟩
      · exact .inl ⟨y, hy, rfl, rfl⟩
    · rw [hc, Table.get?_put]
      split
      · exact ⟨_, rfl⟩
      · exact h
  | @furnish g f hth hc hf hi =>
    refine ho.calm (fun b => .inl (Machine.Stirred.same hth).look) (fun i y hy => .inl ?_)
      (fun i h => ?_) (.of_eq hi)
    · rw [hc, Table.get?_modify] at hy
      split at hy
      · obtain ⟨x, hx, rfl⟩ := Option.map_eq_some_iff.mp hy
        exact ⟨x, hx, by rw [hf], by rw [hf]⟩
      · exact ⟨y, hy, rfl, rfl⟩
    · obtain ⟨x, hx⟩ := h
      rw [hc, Table.get?_modify]
      split
      · exact ⟨f x, by rw [hx]; rfl⟩
      · exact ⟨x, hx⟩
  | rest hothers hc hi =>
    exact ho.calm (fun b => .inl (hothers b).look) (fun i y hy => .inl ⟨y, hc ▸ hy, rfl, rfl⟩)
      (fun i h => hc ▸ h) (.of_eq hi)

namespace Machine

theorem Ordered.act (ho : m.Ordered) {act : Action S A V} (h : m.act act = some m') : m'.Ordered :=
  ho.shift (shift_act ho h)

theorem Ordered.reachable (ho : m.Ordered) (h : Reachable m m') : m'.Ordered := by
  induction h with
  | refl => exact ho
  | act _ h ih => exact ih.act h

theorem Reachable.ordered {r : Registry} {memory : A} (h : Reachable (.empty r memory) m) :
    m.Ordered :=
  (ordered_empty r memory).reachable h

end Machine

end ObjectGroups
