/-
Panics of a guard stop at the await, with one exception.

An await calls the code of its guard's author in eight places, and each call may
panic. Over the description and over whether it stays true, a guard may panic
without any consequence. A panic in the wait, in the subscription, in the poll or
over the deadline is a failure of the guard, which the body is told of with the
slot. But the failure of a poll is reported under the guard's description: if
the guard panics over that as well, nobody catches it, and it unwinds into the
body, which has not got the slot back.
-/
import ObjectGroups.Proofs.Heeded

namespace ObjectGroups

open Machine

variable {S A V : Type} {start m m' : Machine S A V} {g : CogId} {c : ContextId}
  {x x' : Cog S A V} {aw : Awaiting S A V} {phase phase' : Phase S} {t t' : Thread S A V}
  {act : Action S A V} {e : GuardError} {p : Payload}

/-- A guard that panics when it is asked panics over its label as well, or the panic is reported. -/
theorem Guard.evaluate_panic {v : Sight} {s : S} {q : Guard S} :
    q.evaluate v s = .panic p ↔ (∃ p₀, q.poll v s = .panic p₀) ∧ q.label v = .error p := by
  unfold evaluate
  cases q.poll v s with
  | ok b => simp
  | error e => simp
  | panic p₀ => cases q.label v <;> simp

namespace Machine

/-- While the thread was in the await, a call of its guard failed with `e`. -/
def Blamed (start : Machine S A V) (c : ContextId) (g : CogId) (aw : Awaiting S A V) (e : GuardError)
    (m : Machine S A V) : Prop :=
  ∃ m₀ x t phase, Reachable start m₀ ∧ m₀.Stands c g x t aw phase ∧ Fails m₀ x aw phase e ∧
    Stays (·.Awaits c g aw) m₀ m

/-- The context has the slot of the cog, for this task. -/
def Hosts (m : Machine S A V) (c : ContextId) (g : CogId) (k : TaskId) : Prop :=
  ∃ x, m.cogs.get? g = some x ∧ x.scheduler.active = some c ∧ x.scheduler.activeTask = some k

/-- With the slot free, the guard is asked for it and panics, and over its label as well. -/
structure Bursts (m : Machine S A V) (c : ContextId) (g : CogId) (aw : Awaiting S A V) (p : Payload) :
    Prop where
  asks : ∃ x t, m.Stands c g x t aw (.contend none) ∧ x.scheduler.active = none ∧
    ∃ p₀, aw.guard.poll m.sight x.state = .panic p₀
  going : m.interrupted c = false
  label : aw.guard.label m.sight = .error p

/-- What one action makes of an await, whatever its guard does. -/
inductive Contains (start m : Machine S A V) (act : Action S A V) (c : ContextId) (g : CogId)
    (aw : Awaiting S A V) (m' : Machine S A V) : Prop where
  | awaits : m'.Awaits c g aw → Contains start m act c g aw m'
  | resumes : act = .step (.context c) → Resumes m c g aw m' → Answered c g aw (.ok ()) m' →
      m'.Hosts c g aw.task → Contains start m act c g aw m'
  /-- The body is told of a failure, and a call of the guard has failed with it. -/
  | fails (e : GuardError) : act = .step (.context c) → Blamed start c g aw e m →
      Answered c g aw (.error (.guard e)) m' → m'.Hosts c g aw.task → Contains start m act c g aw m'
  /-- The body is told of an interrupt, and its task has been finished as aborted. -/
  | aborts {t : Thread S A V} {x : Cog S A V} : act = .step (.context c) →
      m'.threads.get? (.context c) = some t → t.cog = some g →
      t.control.behind = .run (some ⟨aw.task, false⟩) (aw.next (.error .interrupted)) →
      m'.cogs.get? g = some x → x.scheduler.Cancelled aw.task → Contains start m act c g aw m'
  | unwinds (p : Payload) : act = .step (.context c) → m.Bursts c g aw p → Unwound c g aw p m' →
      Contains start m act c g aw m'

end Machine

/-! ## What a failure comes from -/

/-- A failure that an await keeps is one that it has kept before, or of a call in this step. -/
theorem Proceeds.cause (h : Proceeds m c g x aw m' phase phase') (he : phase'.failure? = some e) :
    phase.failure? = some e ∨ Fails m x aw phase e := by
  cases h with
  | answered _ hp =>
    rcases hp with rfl | rfl
    · cases he
    · cases he
  | waitFailed hr hw hne =>
    cases he
    exact .inr (.wait hr hw hne)
  | subscribeFailed hs =>
    cases he
    exact .inr (.subscribe (by rw [hs]))
  | aimFailed hd =>
    cases he
    exact .inr (.deadline hd)
  | reentersFailed | taken | sleeps | wakes => exact .inl he
  | _ => cases he

theorem Phase.Begins.failure (h : phase.Begins x c aw) : phase.failure? = none := by
  cases h <;> rfl

namespace Machine

theorem Blamed.later (h : Blamed start c g aw e m) (ha : m.act act = some m') (awaits : m'.Awaits c g aw) :
    Blamed start c g aw e m' := by
  obtain ⟨m₀, x, t, phase, hr, hs, hf, stays⟩ := h
  exact ⟨m₀, x, t, phase, hr, hs, hf, .act stays ha awaits⟩

theorem Blamed.now (hr : Reachable start m) (hs : m.Stands c g x t aw phase) (hf : Fails m x aw phase e) :
    Blamed start c g aw e m :=
  ⟨m, x, t, phase, hr, hs, hf, .refl hs.in_await⟩

/-- In every run, an await keeps only failures of calls of its guard. -/
theorem Reachable.blamed (h : Reachable start m) (ho : start.Ordered)
    (hf : start.Follows fun c g _ aw phase => ∀ e, phase.failure? = some e → Blamed start c g aw e start) :
    m.Follows fun c g _ aw phase => ∀ e, phase.failure? = some e → Blamed start c g aw e m := by
  induction h with
  | refl => exact hf
  | @act n n' act hn ha ih =>
    refine follows_act (ho.reachable hn) ha ih ?_ ?_
    · intro c g x x' t t' aw phase phase' hact hs before hs' proceeds e he
      rcases proceeds.cause he with he | fails
      · rcases before with begins | before
        · rw [begins.failure] at he
          cases he
        · exact (before e he).later ha hs'.in_await
      · exact (Blamed.now hn hs fails).later ha hs'.in_await
    · intro c g x x' t aw phase hne hs before hm hx'
      obtain ⟨p, t', hs', -⟩ := hs.stirred hm hx'
      refine ⟨t', _, hs', fun e he => ?_⟩
      have kept : phase.failure? = some e := by
        cases p with
        | false => exact he
        | true => exact phase.failure_rouse.symm.trans he
      rcases before with begins | before
      · rw [begins.failure] at kept
        cases kept
      · exact (before e kept).later ha hs'.in_await

/-! ## How an await ends -/

theorem hosts_of_resume (hx : m'.cogs.get? g =
    some { x with scheduler := x.scheduler.resume aw.task c m.now, lock := none }) :
    m'.Hosts c g aw.task :=
  ⟨_, hx, Scheduler.active_resume .., Scheduler.activeTask_resume ..⟩

theorem Filed.cancels (h : m.Filed g x) (ht : m.threads.get? (.context c) = some t) (hg : t.cog = some g)
    (hk : t.control.await? = some aw) (now : Instant) :
    (x.scheduler.abort aw.task c now).2.Cancelled aw.task := by
  have hl := look_eq m _ ht
  rw [hg] at hl
  obtain ⟨record, hr, -⟩ := h.hosted hl (Control.charge_of_await hk)
  have recorded : (x.scheduler.records.get? aw.task).isSome := by simp [hr]
  exact Scheduler.cancelled_abort recorded (h.handled _ recorded) now

/-- A thread that finds the slot taken does not ask the guard. -/
theorem Stands.finds_taken (hs : m.Stands c g x t aw (.contend none)) (busy : x.scheduler.active ≠ none)
    (calm : m.interrupted c = false) :
    m.act (.step (.context c)) = some (m.setControl (.context c) (.awaiting aw (.doze none))) := by
  show m.step _ = _
  rw [step_awaiting hs.thread hs.home hs.control hs.cog]
  simp [stepAwait, contend, calm, Option.isSome_iff_ne_none.mpr busy]

/-- What an action makes of an await. -/
theorem Awaits.contains {r : Registry} {memory : A} (h : Reachable (.empty r memory) m)
    (awaits : m.Awaits c g aw) (ha : m.act act = some m') : Contains (.empty r memory) m act c g aw m' := by
  have ho : m.Ordered := h.ordered
  obtain ⟨t, ht, home, hk⟩ := id awaits
  obtain ⟨x, hx⟩ := ho.hosts ht home
  have hl := look_eq m _ ht
  by_cases hact : act = .step (.context c)
  · subst hact
    obtain ⟨k, ht', treads⟩ := step_treads ho ht home hx hk ha
    have follows := h.blamed (ordered_empty r memory) (fun c t g x ht => by cases ht) c t g x ht home hx
    have goesOn (hk' : k.await? = some aw) : Contains (.empty r memory) m (.step (.context c)) c g aw m' :=
      .awaits ⟨_, ht', home, hk'⟩
    generalize hc : t.control = control at treads
    cases treads with
    | tells _ _ hk' => exact goesOn hk'
    | hands hands => cases hands with
      | goesOn => exact goesOn rfl
      | enlists hk => exact goesOn (Control.await?_of_behind hk)
      | unwinds hn =>
        -- The name of the context differs from that of the thread itself in the number alone.
        rw [home, hc] at hl
        rw [h.housed.nameable ho hl] at hn
        cases hn
    | @strides phase _ strides =>
      have hs : m.Stands c g x t aw phase := ⟨ht, home, hx, hc⟩
      cases strides with
      | hands => exact goesOn rfl
      | enlists hk => exact goesOn (Control.await?_of_behind hk)
      | marked hk => exact goesOn (Control.await?_of_behind hk)
      | proceeds => exact goesOn rfl
      | aborts _ hb hx' =>
        exact .aborts rfl ht' home hb hx' ((h.filed hx).cancels ht home hk _)
      | fails free hfailure hb hx' =>
        refine .fails _ rfl ?_ ⟨_, ht', home, hb⟩ (hosts_of_resume hx')
        rcases hfailure with rfl | ⟨rfl, he⟩
        · rw [hc] at follows
          rcases follows.awaiting with begins | blamed
          · cases begins
          · exact blamed _ rfl
        · exact .now h hs (.poll free he)
      | @unwinds p _ hp hb _ calm =>
        have free : x.scheduler.active = none := by
          by_contra busy
          cases ha.symm.trans (hs.finds_taken busy calm)
          rw [thread_set _ ht (.same rfl)] at ht'
          cases ht'
          cases hb
        obtain ⟨panics, label⟩ := Guard.evaluate_panic.mp hp
        exact .unwinds p rfl ⟨⟨x, t, hs, free, panics⟩, calm, label⟩ ⟨_, ht', home, hb⟩
      | resumes free holds hb hx' =>
        have lock := ho.lock_of_contend ht home hc hx rfl
        have taken : Resumes m c g aw m' :=
          ⟨⟨x, hx, lock, free, holds⟩, ⟨_, hx', rfl, Scheduler.active_resume .., Scheduler.activeTask_resume ..⟩,
            by rw [hx', hx]; rfl⟩
        exact .resumes rfl taken ⟨_, ht', home, hb⟩ (hosts_of_resume hx')
  · exact .awaits (awaits.stays ho ha (Action.actor_ne hact))

/-- Such a panic goes through the await, which leaves the slot to others. -/
theorem Bursts.unwinds (h : m.Bursts c g aw p) :
    ∃ m', m.act (.step (.context c)) = some m' ∧ Unwound c g aw p m' ∧
      (m'.cogs.get? g).map (·.scheduler.active) = some none := by
  obtain ⟨⟨x, t, hs, free, panics⟩, calm, label⟩ := h
  have hp : aw.guard.evaluate m.sight x.state = .panic p := Guard.evaluate_panic.mpr ⟨panics, label⟩
  have ha : m.act (.step (.context c)) = some (m.contend (.context c) c g x aw none) :=
    step_awaiting hs.thread hs.home hs.control hs.cog
  refine ⟨_, ha, ?_, ?_⟩
  · exact (hs.unwound free hp ha).resolve_right (by simp [calm])
  · simp [contend, calm, free, hp, goOn, turned, setLock, cog_onCog, hs.cog]

theorem await_begins {k : TaskId} {guard : Guard S} {next : Exit TaskError Unit → Body S A V}
    (ht : m.threads.get? (.context c) = some t) (hg : t.cog = some g)
    (hk : t.control = .run (some ⟨k, true⟩) (.await guard next)) :
    ∃ m', m.act (.step (.context c)) = some m' ∧
      m'.Awaits c g { task := k, guard, label := awaitLabel m.sight guard, next } := by
  have ha : m.act (.step (.context c)) = m.stepBody (.context c) t (some ⟨k, true⟩) (.await guard next) := by
    simp only [act, step, ht, hk]
  exact ⟨_, ha, awaits_of_call ht hg hk ha⟩

/-- What the panics of guards come to. -/
structure Contained (start m : Machine S A V) : Prop where
  /-- An await begins, whatever its guard says of itself. -/
  begins {c : ContextId} {g : CogId} {t : Thread S A V} {k : TaskId} {guard : Guard S}
      {next : Exit TaskError Unit → Body S A V} : m.threads.get? (.context c) = some t →
    t.cog = some g → t.control = .run (some ⟨k, true⟩) (.await guard next) →
    ∃ m', m.act (.step (.context c)) = some m' ∧
      m'.Awaits c g { task := k, guard, label := awaitLabel m.sight guard, next }
  goesOn {act : Action S A V} {c : ContextId} {g : CogId} {aw : Awaiting S A V} {m' : Machine S A V} :
    m.Awaits c g aw → m.act act = some m' → Contains start m act c g aw m'
  /-- A call that fails or panics where it matters is a failure of the guard. -/
  counts {c : ContextId} {g : CogId} {x : Cog S A V} {t : Thread S A V} {aw : Awaiting S A V}
      {phase : Phase S} {e : GuardError} {m' : Machine S A V} : m.Stands c g x t aw phase →
    Fails m x aw phase e → m.act (.step (.context c)) = some m' → m.Carries c g aw e m'
  bursts {c : ContextId} {g : CogId} {aw : Awaiting S A V} {p : Payload} : m.Bursts c g aw p →
    ∃ m', m.act (.step (.context c)) = some m' ∧ Unwound c g aw p m' ∧
      (m'.cogs.get? g).map (·.scheduler.active) = some none

end Machine

/-- In every run, whatever the code of its guard does, an await goes on or ends in one of three ways, the
body with the slot and its guard just found to hold, or with the slot and a failure of a call of the
guard, or without it and its task finished as aborted, unless the guard panics both when it is asked
for the slot and over its label. Then the panic unwinds into the body. -/
theorem panics_contained (r : Registry) (memory : A) (h : Reachable (.empty r memory) m) :
    Contained (.empty r memory) m where
  begins := await_begins
  goesOn awaits ha := awaits.contains h ha
  counts := h.ordered.records
  bursts := Bursts.unwinds

/-- A guard that panics when it is asked, and over whether it stays true. -/
def bomb (label : Except Payload String) : Guard Nat := .user {
  label := fun _ => label
  poll := fun _ _ => .panic (.text "poll exploded")
  wait := fun _ => .answer (.ok true)
  stays := fun _ => .error (.text "stays exploded")
  sources := fun _ => ([], .ok false)
  deadline := fun _ => .ok none }

/-- The only task of a cog awaits it, and is about to ask it for the slot. -/
def fuseActions (label : Except Payload String) : List (Action Nat Unit Unit) :=
  [.found "cog" 0,
    .arrive (.submit ⟨1⟩ "first" (.await (bomb label) fun _ => .exit (.ok ())) fun _ => .exit (.ok ()))] ++
    List.replicate 6 (.step (.caller 1)) ++ List.replicate 9 (.step (.context ⟨1⟩))

def fuse (label : Except Payload String) : Machine Nat Unit Unit :=
  (fuseActions label).foldl perform (.empty { namePrefix := "cog", admits := fun _ => true } ())

/-- It is asked, and its label can be told. -/
def ticking : Machine Nat Unit Unit := fuse (.ok "Bomb")

theorem panics_contained_bomb : ∃ x t aw m',
    ticking.Stands ⟨1⟩ ⟨1⟩ x t aw (.contend none) ∧
    aw.guard.poll ticking.sight x.state = .panic (.text "poll exploded") ∧
    ticking.act (.step (.context ⟨1⟩)) = some m' ∧
    Answered ⟨1⟩ ⟨1⟩ aw (.error (.guard (.evaluation "Bomb panicked"))) m' ∧
    Contains (.empty { namePrefix := "cog", admits := fun _ => true } ()) ticking
      (.step (.context ⟨1⟩)) ⟨1⟩ ⟨1⟩ aw m' := by
  have asks : ((ticking.threads.get? (.context ⟨1⟩)).bind (·.control.looks?)).map (fun aw =>
      (aw.guard.poll ticking.sight 0, aw.guard.evaluate ticking.sight 0)) =
      some (.panic (.text "poll exploded"), .error (.evaluation "Bomb panicked")) := by decide +kernel
  have works : (ticking.threads.get? (.context ⟨1⟩)).map (·.cog) = some (some ⟨1⟩) := by
    decide +kernel
  have free : (ticking.cogs.get? ⟨1⟩).map (fun x => (x.state, x.scheduler.active)) =
      some (0, none) := by decide +kernel
  have next : (ticking.act (.step (.context ⟨1⟩))).map (fun m' =>
      (m'.threads.get? (.context ⟨1⟩)).all (·.control.await?.isNone)) = some true := by decide +kernel
  have calm : ticking.interrupted ⟨1⟩ = false := by decide +kernel
  obtain ⟨aw, looks, asks⟩ := Option.map_eq_some_iff.mp asks
  obtain ⟨x, hx, free⟩ := Option.map_eq_some_iff.mp free
  obtain ⟨m', ha, next⟩ := Option.map_eq_some_iff.mp next
  obtain ⟨t, stands⟩ := Stands.of_looks looks works hx
  simp only [Prod.mk.injEq] at asks free
  rw [← free.1] at asks
  have contained : Contained (.empty { namePrefix := "cog", admits := fun _ => true } ()) ticking :=
    panics_contained _ () (reachable_foldl (fuseActions (.ok "Bomb")) _)
  refine ⟨x, t, aw, m', stands, asks.1, ha, ?_, contained.goesOn stands.in_await ha⟩
  rcases contained.counts stands (.poll free.2 asks.2) ha with ⟨x', t', phase, hs', -⟩ | answered | interrupted
  · simp [hs'.thread, hs'.awaits] at next
  · exact answered
  · cases calm.symm.trans interrupted

/-- It is asked, and panics over its label. -/
def burning : Machine Nat Unit Unit := fuse (.error (.text "label exploded"))

/-- The body gets the panic over the label, and the task is left without the slot. -/
theorem panic_unwinds : ∃ aw m', burning.Awaits ⟨1⟩ ⟨1⟩ aw ∧
    burning.act (.step (.context ⟨1⟩)) = some m' ∧
    Unwound ⟨1⟩ ⟨1⟩ aw (.text "label exploded") m' ∧
    (m'.cogs.get? ⟨1⟩).map (·.scheduler.active) = some none := by
  have asks : ((burning.threads.get? (.context ⟨1⟩)).bind (·.control.looks?)).map (fun aw =>
      aw.guard.evaluate burning.sight 0) = some (.panic (.text "label exploded")) := by decide +kernel
  have works : (burning.threads.get? (.context ⟨1⟩)).map (·.cog) = some (some ⟨1⟩) := by
    decide +kernel
  have free : (burning.cogs.get? ⟨1⟩).map (fun x => (x.state, x.scheduler.active)) =
      some (0, none) := by decide +kernel
  have calm : burning.interrupted ⟨1⟩ = false := by decide +kernel
  obtain ⟨aw, looks, asks⟩ := Option.map_eq_some_iff.mp asks
  obtain ⟨x, hx, free⟩ := Option.map_eq_some_iff.mp free
  obtain ⟨t, stands⟩ := Stands.of_looks looks works hx
  simp only [Prod.mk.injEq] at free
  rw [← free.1] at asks
  obtain ⟨panics, label⟩ := Guard.evaluate_panic.mp asks
  have bursts : burning.Bursts ⟨1⟩ ⟨1⟩ aw (.text "label exploded") :=
    ⟨⟨x, t, stands, free.2, panics⟩, calm, label⟩
  obtain ⟨m', ha, unwound, left⟩ := bursts.unwinds
  exact ⟨aw, m', stands.in_await, ha, unwound, left⟩

end ObjectGroups
