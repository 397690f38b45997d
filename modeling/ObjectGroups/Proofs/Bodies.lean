/-
What threads make of the bodies they run.

A body is a tree, and a thread goes down one of its branches. `Leads` is one
step down, whatever the answer; `Comes` any number of them. Between two steps
of its body a thread may sleep, start a context, tell listeners or wake others,
but what it is going to run then is fixed up to the answer, and its task is the
same (`pursues_step`). Before all that a body waits in the hands of whoever
submits its task, and then in a queue (`Bears`).
-/
import Mathlib.Logic.Relation
import ObjectGroups.Proofs.Attempts
import ObjectGroups.Proofs.Signals

namespace ObjectGroups

variable {S A V : Type} {m m' m₁ : Machine S A V} {a : Agent} {g : CogId} {c : ContextId}
  {t : Thread S A V} {seat : Option Seat} {stage : Stage} {e : Errand S A V} {k : Control S A V}
  {b b' : Body S A V} {P : Body S A V → Prop}

open Machine

namespace Body

/-- What a body may go on with. -/
inductive Leads : Body S A V → Body S A V → Prop where
  | access (change : S → S) (next : S → Body S A V) (refused : Body S A V) (s : S) :
      Leads (.access change next refused) (next s)
  | refused (change : S → S) (next : S → Body S A V) (refused : Body S A V) :
      Leads (.access change next refused) refused
  | memory (change : A → A) (next : A → Body S A V) (x : A) : Leads (.memory change next) (next x)
  | block (ready : A → Bool) (next : Body S A V) : Leads (.block ready next) next
  | await (q : Guard S) (next : Exit TaskError Unit → Body S A V) (r : Exit TaskError Unit) :
      Leads (.await q next) (next r)
  | submit (i : CogId) (name : String) (task : Body S A V) (next : Exit RuntimeError TaskId → Body S A V)
      (r : Exit RuntimeError TaskId) : Leads (.submit i name task next) (next r)
  | start (label : String) (w : Waker) (main : Body S A V)
      (next : Exit RuntimeError ContextId → Body S A V) (r : Exit RuntimeError ContextId) :
      Leads (.start label w main next) (next r)
  | request (r : Request S V) (next : r.Reply → Body S A V) (x : r.Reply) :
      Leads (.request r next) (next x)

/-- What may be left of a body after a while. -/
abbrev Comes : Body S A V → Body S A V → Prop := Relation.ReflTransGen Leads

/-- A body that something follows goes on as it would alone. -/
theorem leads_attempt {after : Exit TaskError V → Body S A V} (hb : ∀ r, b ≠ .exit r)
    (h : (b.attempt after).Leads b') : ∃ rest, b.Leads rest ∧ b' = rest.attempt after := by
  cases b with
  | exit r => exact absurd rfl (hb r)
  | access change next refused => cases h with
    | access _ _ _ s => exact ⟨_, .access change next refused s, rfl⟩
    | refused => exact ⟨_, .refused change next refused, rfl⟩
  | memory change next => cases h with
    | memory _ _ x => exact ⟨_, .memory change next x, rfl⟩
  | block ready next => cases h with
    | block => exact ⟨_, .block ready next, rfl⟩
  | await q next => cases h with
    | await _ _ r => exact ⟨_, .await q next r, rfl⟩
  | submit i name task next => cases h with
    | submit _ _ _ _ r => exact ⟨_, .submit i name task next r, rfl⟩
  | start label w main next => cases h with
    | start _ _ _ _ r => exact ⟨_, .start label w main next r, rfl⟩
  | request q next => cases h with
    | request _ _ x => exact ⟨_, .request q next x, rfl⟩

end Body

def Errand.Faces (P : Body S A V → Prop) : Errand S A V → Prop
  | .submission _ _ _ next => ∀ r, P (next r)
  | .handover aw => ∀ r, P (aw.next r)
  | .direct _ _ _ _ next => ∀ r, P (next r)

namespace Control

/-- The thread is going to run a body, and `P` holds of it whatever comes before. -/
def Faces (P : Body S A V → Prop) : Control S A V → Prop
  | .run _ b => P b
  | .enrol _ _ _ _ next => ∀ r, P (next r)
  | .starting _ e => e.Faces P
  | .awaiting aw _ => ∀ r, P (aw.next r)
  | .notify _ _ after => after.Faces P
  | .signal _ _ next => P next
  | .sweep _ next => P next
  | .idle _ _ _ _ next => ∀ r, P (next r)
  | .linger _ _ _ _ _ next => ∀ r, P (next r)
  | .park _ _ _ _ next => ∀ r, P (next r)
  | .hold _ _ _ _ next => ∀ r, P (next r)
  | .claim | .complete _ _ | .strand _ | .leave => False

/-- The thread is going to run a body after its next step, and `P` holds of that body. -/
def Heads (P : Body S A V → Prop) : Control S A V → Prop
  | .run _ b => (∀ r, b ≠ .exit r) ∧ ∀ b', b.Leads b' → P b'
  | k => k.Faces P

/-- The task that the thread hosts. -/
def task? (k : Control S A V) : Option TaskId := k.stance.seat?.map (·.task)

theorem faces_rouse (k : Control S A V) : k.rouse.Faces P ↔ k.Faces P := by
  cases k with
  | awaiting aw phase => cases phase <;> rfl
  | _ => rfl

@[simp] theorem task?_rouse (k : Control S A V) : k.rouse.task? = k.task? := by
  simp [task?]

end Control

theorem faces_announce (kind : NoticeKind) (view : Option TaskView) :
    (announce g kind view k).Faces P ↔ k.Faces P := by
  cases view <;> rfl

theorem task?_announce (kind : NoticeKind) (view : Option TaskView) :
    (announce g kind view k).task? = k.task? := by
  simp [Control.task?]

/-! ## One step -/

/-- The thread `a`, which was `t`, goes on with the same task, and is going to run a body of which `P`
holds. -/
def Pursues (P : Body S A V → Prop) (t : Thread S A V) (a : Agent) (m' : Machine S A V) : Prop :=
  ∃ t', m'.threads.get? a = some t' ∧ t'.cog = t.cog ∧ t'.control.task? = t.control.task? ∧
    t'.control.Faces P

section
variable (ht : m.threads.get? a = some t)
include ht

theorem Pursues.set (hm : m.Stirred m₁ a) (htask : k.task? = t.control.task?) (hk : k.Faces P) :
    Pursues P t a (m₁.setControl a k) :=
  ⟨_, thread_set k ht hm, rfl, htask, hk⟩

theorem pursues_body {own : Option CogId} (hk : t.control = .run seat b) (hb : ∀ r, b ≠ .exit r)
    (hP : ∀ b', b.Leads b' → P b') (h : m.BodyStep a own seat b m') : Pursues P t a m' := by
  have go {m₁ : Machine S A V} {k : Control S A V} (hm : m₁.threads = m.threads)
      (hs : k.task? = seat.map (·.task)) (hc : k.Faces P) : Pursues P t a (m₁.setControl a k) :=
    .set ht (.same hm) (hs.trans (by rw [hk]; rfl)) hc
  have answered (r : Request S V) (next : r.Reply → Body S A V) (hb : b = .request r next) (x : r.Reply) :
      P (next x) := hP _ (hb ▸ .request r next x)
  cases h with
  | quits | completes | fails | strands | leaves => exact absurd rfl (hb _)
  | accesses => exact go rfl rfl (hP _ (.access ..))
  | refuses => exact go rfl rfl (hP _ (.refused ..))
  | remembers => exact go rfl rfl (hP _ (.memory ..))
  | passes => exact go rfl rfl (hP _ (.block ..))
  | awaits hs =>
    subst hs
    exact go rfl rfl fun r => hP _ (.await _ _ r)
  | inactive => exact go rfl rfl (hP _ (.await ..))
  | closed => exact go rfl rfl (hP _ (.submit ..))
  | submits => exact go rfl rfl fun r => hP _ (.submit _ _ _ _ r)
  | starts => exact go rfl rfl fun r => hP _ (.start _ _ _ _ r)
  | holds | parks | idles | terminates | lingers => exact go rfl rfl (answered _ _ rfl)
  | _ => exact go rfl rfl (hP _ (.request ..))

theorem pursues_handedOver (m₁ : Machine S A V) (hm : m.Stirred m₁ a) (aw : Awaiting S A V)
    (htask : t.control.task? = some aw.task) (hP : ∀ r, P (aw.next r)) :
    Pursues P t a (m₁.handedOver a c g aw) := by
  have told : m.Stirred (((m₁.broadcast g).onScheduler g (·.addWaiter c)).setLock g none) a :=
    hm.broadcast.trans (.same rfl)
  refine .set ht told ?_ ((faces_announce ..).mpr hP)
  rw [task?_announce, htask]
  rfl

section
variable (hk : t.control = .starting stage e) (hP : e.Faces P) (hm : m.Stirred m₁ a)
  (hown : ∀ aw, e = .handover aw → t.cog.isSome ∧ a.context?.isSome)
include hk hP hm hown

theorem pursues_startFailed (err : RuntimeError) : Pursues P t a (m₁.startFailed a t.cog err e) := by
  cases e with
  | submission seat i view next =>
    exact .set ht (hm.trans (.same rfl)) (by rw [hk]; rfl) (hP _)
  | handover aw =>
    obtain ⟨hg, hc⟩ := hown aw rfl
    obtain ⟨i, hi⟩ := Option.isSome_iff_exists.mp hg
    obtain ⟨d, hd⟩ := Option.isSome_iff_exists.mp hc
    let m₂ := m₁.report (.queueNotStarted (((m₁.cogs.get? i).map (·.name)).getD "") err)
    have reported : m.Stirred m₂ a := hm.trans (.same rfl)
    simp only [startFailed, hi, hd]
    exact pursues_handedOver ht m₂ reported aw (by rw [hk]; rfl) hP
  | direct seat label w main next =>
    exact .set ht hm (by rw [hk]; rfl) (hP _)

theorem pursues_startUnwound (x : Payload) : Pursues P t a (m₁.startUnwound a t.cog x e) := by
  cases e with
  | submission seat i view next =>
    exact .set ht (hm.trans (.same rfl)) (by rw [hk]; rfl) (hP _)
  | handover aw =>
    obtain ⟨hg, -⟩ := hown aw rfl
    obtain ⟨i, hi⟩ := Option.isSome_iff_exists.mp hg
    simp only [startUnwound, hi]
    exact .set ht (hm.trans (.same rfl)) (by rw [hk]; rfl) (hP _)
  | direct seat label w main next =>
    exact .set ht hm (by rw [hk]; rfl) (hP _)

theorem pursues_startSucceeded (d : ContextId) : Pursues P t a (m₁.startSucceeded a t.cog d e) := by
  cases e with
  | submission seat i view next =>
    have granted : m.Stirred (m₁.onScheduler i (·.grant d)) a := hm.trans (.same rfl)
    have told : m.Stirred (((m₁.onScheduler i (·.grant d)).broadcast i).setLock i none) a :=
      granted.broadcast.trans (.same rfl)
    refine .set ht told ?_ ((faces_announce ..).mpr (hP _))
    rw [task?_announce, hk]
    rfl
  | handover aw =>
    obtain ⟨hg, hc⟩ := hown aw rfl
    obtain ⟨i, hi⟩ := Option.isSome_iff_exists.mp hg
    obtain ⟨self, hself⟩ := Option.isSome_iff_exists.mp hc
    have granted : m.Stirred (m₁.onScheduler i (·.grant d)) a := hm.trans (.same rfl)
    simp only [startSucceeded, hi, hself]
    exact pursues_handedOver ht _ granted aw (by rw [hk]; rfl) hP
  | direct seat label w main next =>
    exact .set ht hm (by rw [hk]; rfl) (hP _)

end

end

theorem pursues_start (ho : m.Ordered) (ht : m.threads.get? a = some t)
    (hk : t.control = .starting stage e) (hP : e.Faces P) (h : m.StartStep a t.cog e stage m') :
    Pursues P t a m' := by
  have hl : m.look a = some (t.cog, e.stance stage) := look_starting m a ht hk
  have hown (aw : Awaiting S A V) (he : e = .handover aw) : t.cog.isSome ∧ a.context?.isSome := by
    subst he
    obtain ⟨g, c, -, hg, rfl, -⟩ := ho.home_of_hosts hl rfl
    exact ⟨by simp [hg], rfl⟩
  cases h with
  | closed => exact pursues_startFailed ht hk hP (.same rfl) hown _
  | numbers | enters => exact .set ht (.same rfl) (by rw [hk]; cases e <;> rfl) hP
  | panics => exact pursues_startUnwound ht hk hP (.strike (.same rfl)) hown _
  | refused => exact pursues_startFailed ht hk hP (.strike (.same rfl)) hown _
  | @granted c =>
    have hca : a ≠ .context c := by
      rintro rfl
      cases (ho.unlaunched hl (e.stage?_stance _)).symm.trans hl
    refine pursues_startSucceeded ht hk hP ?_ hown c
    exact ⟨false, by simp [Table.get?_put, hca]⟩

theorem pursues_signal {signals : List Signal} {next : Body S A V} (ht : m.threads.get? a = some t)
    (hk : t.control = .signal seat signals next) (hP : P next) (h : m.SignalStep a seat next signals m') :
    Pursues P t a m' := by
  have go {m₁ : Machine S A V} {k : Control S A V} (hm : m.Stirred m₁ a)
      (hs : k.stance = .body seat) (hc : k.Faces P) : Pursues P t a (m₁.setControl a k) :=
    .set ht hm (by rw [hk, Control.task?, Control.task?, hs]; rfl) hc
  cases h with
  | interrupts => exact go (.interruptParker (.same rfl)) rfl hP
  | unparks => exact go (.unpark (.same rfl)) rfl hP
  | rings => exact go (.notifyAll (.same rfl)) rfl hP
  | through | counts | misses => exact go (.same rfl) rfl hP

theorem pursues_await {x : Cog S A V} {aw : Awaiting S A V} {phase : Phase S}
    (ht : m.threads.get? (.context c) = some t) (hk : t.control = .awaiting aw phase)
    (hP : ∀ r, P (aw.next r)) (h : m.AwaitStep c g x aw phase m') : Pursues P t (.context c) m' := by
  have go {m₁ : Machine S A V} {k : Control S A V} (hm : m.Stirred m₁ (.context c))
      (hs : k.task? = some aw.task) (hc : k.Faces P) : Pursues P t (.context c) (m₁.setControl (.context c) k) :=
    .set ht hm (hs.trans (by rw [hk]; cases phase <;> rfl)) hc
  cases h with
  | handsOver =>
    have suspended : m.Stirred (m.onScheduler g (·.suspend aw.task c aw.label)) (.context c) := .same rfl
    exact pursues_handedOver ht _ suspended aw (by rw [hk]; rfl) hP
  | marks => exact go (.same rfl) (by rw [task?_announce]; rfl) ((faces_announce ..).mpr hP)
  | returns | resumes | fails =>
    exact go (.same rfl) (by rw [task?_announce]; rfl) ((faces_announce ..).mpr (hP _))
  | aborts | abandons =>
    simp only [Machine.abort, announceEnd]
    refine go ?_ (by rw [task?_announce]; rfl) ((faces_announce ..).mpr (hP _))
    split
    · exact .notifyAll (.same rfl)
    · exact .same rfl
  | unwinds => exact go (.same rfl) rfl (hP _)
  | _ => exact go (.same rfl) rfl hP

/-- A thread that is in the middle of a body goes on with what the body leads to. -/
theorem pursues_step (ho : m.Ordered) (ht : m.threads.get? a = some t) (h : m.step a = some m')
    (hk : t.control.Heads P) : Pursues P t a m' := by
  have took := step_of ht h
  generalize hc : t.control = control at hk took
  have go {m₁ : Machine S A V} {k : Control S A V} (hm : m₁.threads = m.threads)
      (hs : k.task? = control.task?) (hk : k.Faces P) : Pursues P t a (m₁.setControl a k) :=
    .set ht (.same hm) (hc ▸ hs) hk
  cases took with
  | runs took => exact pursues_body ht hc hk.1 hk.2 took
  | enlists => exact go rfl rfl hk
  | @joins seat i view task =>
    have told : m.Stirred ((m.onScheduler i (·.enqueue view task)).broadcast i) a := .broadcast (.same rfl)
    refine .set ht told ?_ ((faces_announce ..).mpr (hk _))
    rw [task?_announce, hc]
    rfl
  | starts took => exact pursues_start ho ht hc hk took
  | awaits ha _ _ took =>
    subst ha
    exact pursues_await ht hc hk took
  | tells => exact go (threads_deliver ..) rfl hk
  | sends took => exact pursues_signal ht hc hk took
  | sweeps | idles | lingers | dozes | waits => exact go rfl rfl hk
  | idled | gaveUp | lingered | lands | answers => exact go rfl rfl (hk _)
  | takes | retires | completes | strands | fades | leaves | departs => exact hk.elim

/-! ## The body of a task that has not begun -/

section
variable {x x' : Cog S A V} {own : Option CogId} {s s' : Stance} {task : Body S A V} {view : TaskView}
  {next : Exit RuntimeError TaskId → Body S A V} {move : Action S A V} {j : TaskId} {i : CogId}

/-- A notification is nothing to a thread that is about to submit a task. -/
theorem Control.rouse_enrol (h : k.rouse.behind = .enrol seat g view task next) : k.rouse = k := by
  cases k with
  | awaiting aw phase => cases phase <;> cases h
  | idle | linger | park | hold => cases h
  | _ => rfl

theorem Control.behind_claim (h : k.stance = .claim) : k.behind = .claim := by
  induction k with
  | notify _ _ after ih => exact ih h
  | awaiting aw phase => cases phase <;> cases h
  | starting _ errand => cases errand <;> cases h
  | claim => rfl
  | _ => cases h

/-- Tasks come into a queue at its end. -/
theorem Deed.entries {loud : Bool} (h : Deed g a own loud s x s' x') :
    (∀ e ∈ x'.scheduler.queue, e ∈ x.scheduler.queue) ∨ ∃ seat view body, s = .enrol seat g view ∧
      x'.scheduler.queue = x.scheduler.queue ++ [(view.id, body)] := by
  cases h with
  | submit body | enqueue body => exact .inr ⟨_, _, body, rfl, rfl⟩
  | take now _ _ hq =>
    refine .inl fun e he => ?_
    rw [Scheduler.queue_markRunning] at he
    rw [hq]
    exact List.mem_cons_of_mem _ he
  | withdraw => exact .inl fun e he => List.dropLast_subset _ he
  | _ =>
    refine .inl fun e he => ?_
    simpa [Scheduler.addWaiter, Scheduler.markReady, Scheduler.removeWaiter, Scheduler.retire] using he

/-- What a thread is about to do changes as it is told of, or else by a step of this very kind. -/
theorem told_or_done (ht : m.threads.get? a = some t) (h : m.step a = some m') (hk : t.control.behind = k) :
    (m'.cogs = m.cogs ∧ ∃ t', m'.threads.get? a = some t' ∧ t'.cog = t.cog ∧ t'.control.behind = k) ∨
      t.control = k := by
  cases hc : t.control with
  | notify i n after =>
    rw [hc] at hk
    simp only [step, ht, hc] at h
    cases h
    have kept : m.Stirred (m.deliver i n) a := .same (threads_deliver ..)
    exact .inl ⟨cogs_deliver .., _, thread_set after ht kept, rfl, hk⟩
  | _ =>
    rw [hc] at hk
    exact .inr hk

/-- Wherever the task is before it begins, `P` holds of its body. -/
structure Machine.Bears (m : Machine S A V) (j : TaskId) (P : Body S A V → Prop) : Prop where
  letter {a : Agent} {t : Thread S A V} {seat : Option Seat} {g : CogId} {view : TaskView}
    {task : Body S A V} {next : Exit RuntimeError TaskId → Body S A V} : m.threads.get? a = some t →
      t.control.behind = .enrol seat g view task next → view.id = j → P task
  queue {g : CogId} {x : Cog S A V} {task : Body S A V} : m.cogs.get? g = some x →
    (j, task) ∈ x.scheduler.queue → P task

/-- A thread that is about to submit a task has been so before, unless the task is new. -/
theorem enrol_origin (ho : m.Ordered) (ha : m.act move = some m') {t' : Thread S A V}
    (ht' : m'.threads.get? a = some t') (hk : t'.control.behind = .enrol seat g view task next) :
    view.id = m.nextTask ∨
      ∃ t, m.threads.get? a = some t ∧ t.control.behind = .enrol seat g view task next := by
  have hl' : m'.look a = some (t'.cog, .enrol seat g view) := by
    rw [look_eq m' a ht', ← Control.stance_behind, hk]
    rfl
  rcases (shift_act ho ha).enrol hl' with hl | ⟨-, hid, -⟩
  · obtain ⟨t, ht, -, hs⟩ := look_eq_some m a hl
    refine .inr ⟨t, ht, ?_⟩
    by_cases hact : move.actor? = some a
    · obtain rfl := Action.step_of_actor hact
      obtain ⟨task₀, next₀, hb⟩ := Control.behind_enrol hs
      rcases told_or_done ht ha hb with ⟨-, t₁, ht₁, -, told⟩ | done
      · cases ht'.symm.trans ht₁
        exact hb.trans (told.symm.trans hk)
      · obtain ⟨k, ht₁, enrols⟩ := enrols ht done ha
        cases ht'.symm.trans ht₁
        cases enrols with
        | starts => cases hk
        | joins =>
          have told : (announce g .added (some view) (.run seat (next₀ (.ok view.id)))).behind = _ := hk
          rw [behind_announce] at told
          cases told
    · rcases ho.stays ha ht hact with stays | roused
      · cases ht'.symm.trans stays
        exact hk
      · cases ht'.symm.trans roused
        have same : t.control.rouse = t.control := Control.rouse_enrol hk
        exact same ▸ hk
  · exact .inl hid

/-- A task that comes into a queue comes with the body of the thread that submits it. -/
theorem enrol_entries (ht : m.threads.get? a = some t) (hs : t.control.stance = .enrol seat i view)
    (h : m.step a = some m') (hx : m.cogs.get? g = some x) (hx' : m'.cogs.get? g = some x') {e : TaskId × Body S A V}
    (he : e ∈ x'.scheduler.queue) : e ∈ x.scheduler.queue ∨
      ∃ task next, t.control.behind = .enrol seat i view task next ∧ e = (view.id, task) := by
  obtain ⟨task, next, hb⟩ := Control.behind_enrol hs
  rcases told_or_done ht h hb with ⟨same, -⟩ | done
  · rw [same, hx] at hx'
    cases hx'
    exact .inl he
  · have added : m'.cogs.get? g = some x ∨
        ∃ lock, m'.cogs.get? g = some { x with scheduler := x.scheduler.enqueue view task, lock } := by
      have took := step_of ht h
      rw [done] at took
      by_cases hg : g = i
      · subst hg
        cases took with
        | enlists hy => exact .inr ⟨some a, by simp [setLock, onScheduler, cog_onCog, hx]⟩
        | joins hy => exact .inr ⟨x.lock, by simp [onScheduler, cog_onCog, hx]⟩
      · cases took with
        | enlists hy => exact .inl (by simp [setLock, onScheduler, cog_onCog, hx, hg])
        | joins hy => exact .inl (by simp [onScheduler, cog_onCog, hx, hg])
    rcases added with same | ⟨lock, new⟩
    · cases hx'.symm.trans same
      exact .inl he
    · cases hx'.symm.trans new
      rcases List.mem_append.mp he with he | he
      · exact .inl he
      · exact .inr ⟨task, next, hb, List.mem_singleton.mp he⟩

namespace Machine.Bears

theorem act (h : m.Bears j P) (ho : m.Ordered) (hj : j.val < m.nextTask.val) (ha : m.act move = some m') :
    m'.Bears j P where
  letter {a t seat g view task next} ht hk hid := by
    rcases enrol_origin ho ha ht hk with new | ⟨t₀, ht₀, hk₀⟩
    · rw [← hid, new] at hj
      exact absurd hj (Nat.lt_irrefl _)
    · exact h.letter ht₀ hk₀ hid
  queue {g x' task} hx' he := by
    have shift := shift_act ho ha
    generalize hact : move.actor? = actor at shift
    cases shift.aftermath ho hx' with
    | founded _ _ empty =>
      rw [empty] at he
      cases he
    | aside _ hx same => exact h.queue hx (same ▸ he)
    | @deed a own loud s s' x ht hw hd =>
      obtain rfl := Action.step_of_actor hact
      rcases hd.entries with kept | ⟨seat, view, body, rfl, -⟩
      · exact h.queue hw.before (kept _ he)
      · obtain ⟨t, htt, -, hs⟩ := look_eq_some m a ht.before
        rcases enrol_entries htt hs ha hw.before hx' he with he | ⟨task, next, hb, e⟩
        · exact h.queue hw.before he
        · cases e
          exact h.letter htt hb rfl
    | grant _ hw hg =>
      refine h.queue hw.before ?_
      cases hg <;> exact he

/-- Who claims the task is about to run its body. -/
theorem claimed (h : m.Bears j P) (ho : m.Ordered) (ha : m.act move = some m')
    (hc : (⟨m, move, m'⟩ : Move S A V).claimed? g = some (c, j)) :
    ∃ t task, m'.threads.get? (.context c) = some t ∧ t.control = .run (some ⟨j, true⟩) task ∧ P task := by
  obtain ⟨active, turn⟩ := Move.claimed?_turn hc
  obtain ⟨hact, hl, own', hl'⟩ := Move.acts turn
  obtain rfl := Action.step_of_actor hact
  obtain ⟨t, ht, hown, hs⟩ := look_eq_some m _ hl
  obtain ⟨t', ht', -, hs'⟩ := look_eq_some m' _ hl'
  obtain ⟨-, x, hx⟩ := ho.home hl
  rcases told_or_done ht ha (Control.behind_claim hs) with ⟨-, t₁, ht₁, -, told⟩ | done
  · cases ht'.symm.trans ht₁
    rw [← Control.stance_behind, told] at hs'
    cases hs'
  · have took := step_of ht (show m.step (.context c) = some m' from ha)
    rw [done, hown] at took
    cases took with
    | @takes d i y k body rest hd hi hy _ _ _ queue =>
      cases hi
      cases hx.symm.trans hy
      have ht₁ : _ = some { t with control := .run (some ⟨k, true⟩) body } := thread_set _ ht (.same rfl)
      cases ht'.symm.trans ht₁
      cases hs'
      have there : (j, body) ∈ x.scheduler.queue := by
        rw [queue]
        exact List.mem_cons_self
      exact ⟨_, body, ht', rfl, h.queue hx there⟩
    | retires =>
      rw [look_setControl, if_pos rfl] at hl'
      obtain ⟨p, -, e⟩ := Option.map_eq_some_iff.mp hl'
      cases congrArg Prod.snd e

end Machine.Bears

end

end ObjectGroups
