/-
Guards of the library, and where in them the clock may be looked at.

A guard that no user has written cannot panic, and its parts can be told from
outside: the futures it reads never change, and the clock can only make it
true at an instant that it names. The last is so as long as no `any` with a
timer stands below an `all`: the earliest instant at which the `any` may come
true says nothing about when the `all` may.
-/
import ObjectGroups.Guard

namespace ObjectGroups

variable {S : Type}

/-- Where a guard may look at the clock. -/
inductive Timing where
  | nowhere
  /-- Not below any `any`. -/
  | joint
  /-- Not below an `any` that stands below an `all`. -/
  | free
deriving DecidableEq

namespace Timing

def belowAll : Timing → Timing
  | .nowhere => .nowhere
  | .joint => .joint
  | .free => .joint

def belowAny : Timing → Timing
  | .nowhere => .nowhere
  | .joint => .nowhere
  | .free => .free

end Timing

namespace Guard

mutual

/-- Whether no user has written a part of the guard, and it looks at the clock only where it may. -/
def timed : Timing → Guard S → Bool
  | _, .always => true
  | _, .field _ _ => true
  | _, .future _ => true
  | i, .timer _ _ => i ≠ .nowhere
  | i, .all gs => allTimed i.belowAll gs
  | i, .any gs => allTimed i.belowAny gs
  | _, .user _ => false

def allTimed : Timing → List (Guard S) → Bool
  | _, [] => true
  | i, g :: gs => timed i g && allTimed i gs

end

mutual

/-- Whether no user has written a part of the guard. -/
def library : Guard S → Bool
  | .all gs => allLibrary gs
  | .any gs => allLibrary gs
  | .user _ => false
  | _ => true

def allLibrary : List (Guard S) → Bool
  | [] => true
  | g :: gs => library g && allLibrary gs

end

/-- A guard of the library in which no `any` with a timer stands below an `all`. -/
def punctual (g : Guard S) : Bool := g.timed .free

/-- The futures that a guard of the library subscribes to. -/
def reads (g : Guard S) : List FutureId :=
  (g.sources { now := 0, resolved := fun _ => false, turn := 0 }).1

theorem allTimed_iff {i : Timing} {gs : List (Guard S)} :
    allTimed i gs = true ↔ ∀ g ∈ gs, g.timed i = true := by
  induction gs with
  | nil => simp [allTimed]
  | cons g gs ih => simp [allTimed, ih]

theorem allLibrary_iff {gs : List (Guard S)} :
    allLibrary gs = true ↔ ∀ g ∈ gs, g.library = true := by
  induction gs with
  | nil => simp [allLibrary]
  | cons g gs ih => simp [allLibrary, ih]

/-- Induction over a guard and the parts it is made of. -/
@[elab_as_elim]
theorem induct {P : Guard S → Prop} (always : P .always) (field : ∀ name pred, P (.field name pred))
    (future : ∀ f, P (.future f)) (timer : ∀ d r, P (.timer d r))
    (all : ∀ gs, (∀ g ∈ gs, P g) → P (.all gs)) (any : ∀ gs, (∀ g ∈ gs, P g) → P (.any gs))
    (user : ∀ u, P (.user u)) (g : Guard S) : P g :=
  @Guard.rec S P (fun gs => ∀ g ∈ gs, P g) always field future timer all any user nofun
    (fun _ _ hg hgs => List.forall_mem_cons.mpr ⟨hg, hgs⟩) g

theorem belowAll_of_timed {i : Timing} {gs : List (Guard S)} (h : (Guard.all gs).timed i = true) :
    ∀ g ∈ gs, g.timed i.belowAll = true := allTimed_iff.mp h

theorem belowAny_of_timed {i : Timing} {gs : List (Guard S)} (h : (Guard.any gs).timed i = true) :
    ∀ g ∈ gs, g.timed i.belowAny = true := allTimed_iff.mp h

theorem timed_of_nowhere {g : Guard S} (h : g.timed .nowhere = true) (i : Timing) :
    g.timed i = true := by
  induction g using induct generalizing i with
  | all gs ih => exact allTimed_iff.mpr fun g hg => ih g hg (belowAll_of_timed h g hg) _
  | any gs ih => exact allTimed_iff.mpr fun g hg => ih g hg (belowAny_of_timed h g hg) _
  | timer d r => simp [timed] at h
  | user u => cases h
  | _ => rfl

theorem library_of_timed {g : Guard S} {i : Timing} (h : g.timed i = true) : g.library = true := by
  induction g using induct generalizing i with
  | all gs ih => exact allLibrary_iff.mpr fun g hg => ih g hg (belowAll_of_timed h g hg)
  | any gs ih => exact allLibrary_iff.mpr fun g hg => ih g hg (belowAny_of_timed h g hg)
  | user u => cases h
  | _ => rfl

theorem punctual_of_joint {g : Guard S} (h : g.timed .joint = true) : g.punctual = true := by
  cases g with
  | any gs =>
    exact allTimed_iff.mpr fun g hg => timed_of_nowhere (belowAny_of_timed h g hg) _
  | _ => exact h

/-! ## The parts of a poll -/

section
variable {v v' : Sight} {s : S}

theorem pollAll_true {gs : List (Guard S)} :
    pollAll v s gs = .ok true ↔ ∀ g ∈ gs, g.poll v s = .ok true := by
  induction gs with
  | nil => simp [pollAll]
  | cons g gs ih =>
    rw [pollAll, List.forall_mem_cons, ← ih]
    split
    · next h => simp [h]
    · next h => exact ⟨fun e => absurd e h, fun e => absurd e.1 h⟩

theorem pollAny_false {gs : List (Guard S)} :
    pollAny v s gs = .ok false ↔ ∀ g ∈ gs, g.poll v s = .ok false := by
  induction gs with
  | nil => simp [pollAny]
  | cons g gs ih =>
    rw [pollAny, List.forall_mem_cons, ← ih]
    split
    · next h => simp [h]
    · next h => exact ⟨fun e => absurd e h, fun e => absurd e.1 h⟩

theorem pollAny_true {gs : List (Guard S)} (h : pollAny v s gs = .ok true) :
    ∃ g ∈ gs, g.poll v s = .ok true := by
  induction gs with
  | nil => cases h
  | cons g gs ih =>
    rw [pollAny] at h
    split at h
    · obtain ⟨g', hg', h'⟩ := ih h
      exact ⟨g', List.mem_cons_of_mem g hg', h'⟩
    · exact ⟨g, List.mem_cons_self, h⟩

end

theorem evaluate_ok {v : Sight} {s : S} {g : Guard S} {r : Bool} :
    g.evaluate v s = .ok r ↔ g.poll v s = .ok r := by
  unfold evaluate
  cases g.poll v s with
  | ok b => simp
  | error e => simp
  | panic p => cases g.label v <;> simp

/-! ## Calls that cannot fail -/

theorem labels_ok {v : Sight} {gs : List (Guard S)} (h : ∀ g ∈ gs, ∃ l, g.label v = .ok l) :
    ∃ ls, labels v gs = .ok ls := by
  induction gs with
  | nil => exact ⟨[], rfl⟩
  | cons g gs ih =>
    rw [List.forall_mem_cons] at h
    obtain ⟨l, hl⟩ := h.1
    obtain ⟨ls, hls⟩ := ih h.2
    exact ⟨l :: ls, by rw [labels, hl, hls]; rfl⟩

theorem label_ok {g : Guard S} (h : g.library = true) (v : Sight) : ∃ l, g.label v = .ok l := by
  induction g using induct with
  | all gs ih =>
    obtain ⟨ls, hls⟩ := labels_ok fun g hg => ih g hg (allLibrary_iff.mp h g hg)
    exact ⟨_, by rw [label, hls]; rfl⟩
  | any gs ih =>
    obtain ⟨ls, hls⟩ := labels_ok fun g hg => ih g hg (allLibrary_iff.mp h g hg)
    exact ⟨_, by rw [label, hls]; rfl⟩
  | user u => cases h
  | _ => exact ⟨_, rfl⟩

/-- A guard of the library may fail to be evaluated, but nothing unwinds from it. -/
theorem evaluate_ne_panic {g : Guard S} (h : g.library = true) (v : Sight) (s : S) (p : Payload) :
    g.evaluate v s ≠ .panic p := by
  obtain ⟨l, hl⟩ := label_ok h v
  unfold evaluate
  rw [hl]
  split <;> simp

theorem sourcesOf_congr {v v' : Sight} {gs : List (Guard S)}
    (h : ∀ g ∈ gs, ∃ fs b, g.sources v = (fs, .ok b) ∧ g.sources v' = (fs, .ok b)) :
    ∃ fs b, sourcesOf v gs = (fs, .ok b) ∧ sourcesOf v' gs = (fs, .ok b) := by
  induction gs with
  | nil => exact ⟨[], false, rfl, rfl⟩
  | cons g gs ih =>
    rw [List.forall_mem_cons] at h
    obtain ⟨fs, b, hv, hv'⟩ := h.1
    obtain ⟨fs', b', hvs, hvs'⟩ := ih h.2
    exact ⟨fs ++ fs', b || b', by rw [sourcesOf, hv, hvs], by rw [sourcesOf, hv', hvs']⟩

theorem sources_congr {i : Timing} {g : Guard S} (h : g.timed i = true) (v v' : Sight) :
    ∃ fs b, g.sources v = (fs, .ok b) ∧ g.sources v' = (fs, .ok b) := by
  induction g using induct generalizing i with
  | all gs ih => exact sourcesOf_congr fun g hg => ih g hg (belowAll_of_timed h g hg)
  | any gs ih => exact sourcesOf_congr fun g hg => ih g hg (belowAny_of_timed h g hg)
  | user u => cases h
  | _ => exact ⟨_, _, rfl, rfl⟩

/-- The futures that a guard of the library subscribes to are the same at any time. -/
theorem sources_eq {i : Timing} {g : Guard S} (h : g.timed i = true) (v : Sight) :
    ∃ b, g.sources v = (g.reads, .ok b) := by
  obtain ⟨fs, b, hv, hv'⟩ := sources_congr h v { now := 0, resolved := fun _ => false, turn := 0 }
  exact ⟨b, by rw [hv, reads, hv']⟩

/-- A guard of the library reads what its parts read. -/
theorem reads_list {gs : List (Guard S)} {i : Timing} (h : ∀ g ∈ gs, g.timed i = true) (v : Sight) :
    (sourcesOf v gs).1 = gs.flatMap reads := by
  have all : ∃ b, sourcesOf v gs = (gs.flatMap reads, .ok b) := by
    induction gs with
    | nil => exact ⟨false, rfl⟩
    | cons g gs ih =>
      rw [List.forall_mem_cons] at h
      obtain ⟨b, hb⟩ := sources_eq h.1 v
      obtain ⟨b', hb'⟩ := ih h.2
      exact ⟨b || b', by rw [sourcesOf, hb, hb', List.flatMap_cons]⟩
  obtain ⟨b, hb⟩ := all
  rw [hb]

theorem mem_reads_all {gs : List (Guard S)} {i : Timing} (h : ∀ g ∈ gs, g.timed i = true)
    {g : Guard S} (hg : g ∈ gs) {f : FutureId} (hf : f ∈ g.reads) : f ∈ (Guard.all gs).reads := by
  rw [reads, sources, reads_list h]
  exact List.mem_flatMap_of_mem hg hf

theorem mem_reads_any {gs : List (Guard S)} {i : Timing} (h : ∀ g ∈ gs, g.timed i = true)
    {g : Guard S} (hg : g ∈ gs) {f : FutureId} (hf : f ∈ g.reads) : f ∈ (Guard.any gs).reads := by
  rw [reads, sources, reads_list h]
  exact List.mem_flatMap_of_mem hg hf

/-! ## What a poll depends on -/

section
variable {v v' : Sight} {s : S}

theorem pollAll_congr {gs : List (Guard S)} (h : ∀ g ∈ gs, g.poll v s = g.poll v' s) :
    pollAll v s gs = pollAll v' s gs := by
  induction gs with
  | nil => rfl
  | cons g gs ih =>
    rw [List.forall_mem_cons] at h
    rw [pollAll, pollAll, h.1, ih h.2]

theorem pollAny_congr {gs : List (Guard S)} (h : ∀ g ∈ gs, g.poll v s = g.poll v' s) :
    pollAny v s gs = pollAny v' s gs := by
  induction gs with
  | nil => rfl
  | cons g gs ih =>
    rw [List.forall_mem_cons] at h
    rw [pollAny, pollAny, h.1, ih h.2]

/-- The futures that the guard reads, and the clock if it looks at it. -/
theorem poll_congr {i : Timing} {g : Guard S} (h : g.timed i = true)
    (hn : i ≠ .nowhere → v.now = v'.now) (hr : ∀ f ∈ g.reads, v.resolved f = v'.resolved f) :
    g.poll v s = g.poll v' s := by
  induction g using induct generalizing i with
  | always => rfl
  | field name pred => rfl
  | future f =>
    have same := hr f (by simp [reads, sources])
    rw [poll, poll, same]
  | timer d r =>
    have same := hn (by simpa [timed] using h)
    rw [poll, poll, same]
  | all gs ih =>
    have parts := belowAll_of_timed h
    rw [poll, poll]
    refine pollAll_congr fun g hg => ?_
    exact ih g hg (parts g hg) (fun hi => hn (by rintro rfl; exact hi rfl))
      fun f hf => hr f (mem_reads_all parts hg hf)
  | any gs ih =>
    have parts := belowAny_of_timed h
    rw [poll, poll]
    refine pollAny_congr fun g hg => ?_
    exact ih g hg (parts g hg) (fun hi => hn (by rintro rfl; exact hi rfl))
      fun f hf => hr f (mem_reads_any parts hg hf)
  | user u => cases h

end

/-! ## Deadlines -/

theorem deadlines_congr {v v' : Sight} {gs : List (Guard S)}
    (h : ∀ g ∈ gs, ∃ d, g.deadline v = .ok d ∧ g.deadline v' = .ok d) :
    ∃ ds, deadlines v gs = .ok ds ∧ deadlines v' gs = .ok ds := by
  induction gs with
  | nil => exact ⟨[], rfl, rfl⟩
  | cons g gs ih =>
    rw [List.forall_mem_cons] at h
    obtain ⟨d, hd, hd'⟩ := h.1
    obtain ⟨ds, hds, hds'⟩ := ih h.2
    exact ⟨d :: ds, by rw [deadlines, hd, hds]; rfl, by rw [deadlines, hd', hds']; rfl⟩

theorem deadline_eq {i : Timing} {g : Guard S} (h : g.timed i = true) (v v' : Sight)
    (hn : v.now = v'.now) : ∃ d, g.deadline v = .ok d ∧ g.deadline v' = .ok d := by
  induction g using induct generalizing i with
  | timer d r => exact ⟨_, rfl, by rw [deadline, hn]⟩
  | all gs ih =>
    obtain ⟨ds, hds, hds'⟩ := deadlines_congr fun g hg => ih g hg (belowAll_of_timed h g hg)
    exact ⟨_, by rw [deadline, hds]; rfl, by rw [deadline, hds']; rfl⟩
  | any gs ih =>
    obtain ⟨ds, hds, hds'⟩ := deadlines_congr fun g hg => ih g hg (belowAny_of_timed h g hg)
    exact ⟨_, by rw [deadline, hds]; rfl, by rw [deadline, hds']; rfl⟩
  | user u => cases h
  | _ => exact ⟨_, rfl, rfl⟩

theorem bind_ok_iff {α β : Type} {x : Except Payload α} {f : α → Except Payload β} {b : β} :
    x >>= f = .ok b ↔ ∃ a, x = .ok a ∧ f a = .ok b := by
  cases x <;> simp [bind, Except.bind]

theorem deadlines_ok {v : Sight} {gs : List (Guard S)} {ds : List (Option Instant)}
    (h : deadlines v gs = .ok ds) (d : Option Instant) :
    d ∈ ds ↔ ∃ g ∈ gs, g.deadline v = .ok d := by
  induction gs generalizing ds with
  | nil =>
    cases h
    simp
  | cons g gs ih =>
    rw [deadlines] at h
    obtain ⟨e, hd, h⟩ := bind_ok_iff.mp h
    obtain ⟨es, hds, h⟩ := bind_ok_iff.mp h
    cases h
    simp [ih hds, hd, eq_comm]

theorem deadline_all {v : Sight} {gs : List (Guard S)} {d : Option Instant}
    (h : (Guard.all gs).deadline v = .ok d) :
    ∃ ds, deadlines v gs = .ok ds ∧ d = Instant.latest ds := by
  rw [deadline] at h
  obtain ⟨ds, hds, h⟩ := bind_ok_iff.mp h
  cases h
  exact ⟨ds, hds, rfl⟩

theorem deadline_any {v : Sight} {gs : List (Guard S)} {d : Option Instant}
    (h : (Guard.any gs).deadline v = .ok d) :
    ∃ ds, deadlines v gs = .ok ds ∧ d = Instant.earliest ds := by
  rw [deadline] at h
  obtain ⟨ds, hds, h⟩ := bind_ok_iff.mp h
  cases h
  exact ⟨ds, hds, rfl⟩

end Guard

/-! ## The latest and the earliest of some instants -/

namespace Instant

theorem latest_le {ds : List (Option Instant)} {t e : Instant} (h : ∀ d, some d ∈ ds → d ≤ t)
    (he : latest ds = some e) : e ≤ t := by
  induction ds generalizing e with
  | nil => cases he
  | cons d ds ih =>
    have rest {d : Instant} (hd : latest ds = some d) : d ≤ t :=
      ih (fun d hd => h d (List.mem_cons_of_mem _ hd)) hd
    cases d with
    | none => exact rest he
    | some d =>
      have head : d ≤ t := h d List.mem_cons_self
      rw [latest] at he
      cases hl : latest ds with
      | none =>
        rw [hl] at he
        cases he
        exact head
      | some d' =>
        rw [hl] at he
        cases he
        exact Int.max_le.mpr ⟨head, rest hl⟩

theorem latest_isSome {ds : List (Option Instant)} {d : Instant} (h : some d ∈ ds) :
    ∃ e, latest ds = some e := by
  induction ds with
  | nil => cases h
  | cons d' ds ih => cases d' with
    | none => exact ih (by simpa using h)
    | some d' =>
      rw [latest]
      cases latest ds with
      | none => exact ⟨_, rfl⟩
      | some e => exact ⟨_, rfl⟩

theorem earliest_le {ds : List (Option Instant)} {d : Instant} (h : some d ∈ ds) :
    ∃ e, earliest ds = some e ∧ e ≤ d := by
  induction ds with
  | nil => cases h
  | cons d' ds ih => cases d' with
    | none => exact ih (by simpa using h)
    | some d' =>
      rw [earliest]
      rcases List.mem_cons.mp h with hd | hd
      · cases hd
        cases earliest ds with
        | none => exact ⟨d, rfl, Int.le_refl d⟩
        | some e => exact ⟨min d e, rfl, Int.min_le_left ..⟩
      · obtain ⟨e, he, hle⟩ := ih hd
        rw [he]
        exact ⟨min d' e, rfl, Int.le_trans (Int.min_le_right ..) hle⟩

theorem latest_none {ds : List (Option Instant)} (h : ∀ d ∈ ds, d = none) : latest ds = none := by
  induction ds with
  | nil => rfl
  | cons d ds ih =>
    rw [List.forall_mem_cons] at h
    rw [h.1]
    exact ih h.2

theorem earliest_none {ds : List (Option Instant)} (h : ∀ d ∈ ds, d = none) :
    earliest ds = none := by
  induction ds with
  | nil => rfl
  | cons d ds ih =>
    rw [List.forall_mem_cons] at h
    rw [h.1]
    exact ih h.2

end Instant

namespace Guard

/-! ## When the clock makes a guard true -/

section
variable {v v' : Sight} {s : S}

theorem deadline_nowhere {g : Guard S} (h : g.timed .nowhere = true) (v : Sight) :
    g.deadline v = .ok none := by
  have none {gs : List (Guard S)} {ds : List (Option Instant)} (hds : deadlines v gs = .ok ds)
      (ih : ∀ g ∈ gs, g.deadline v = .ok none) : ∀ d ∈ ds, d = none := by
    intro d hd
    obtain ⟨g, hg, he⟩ := (deadlines_ok hds d).mp hd
    rw [ih g hg] at he
    cases he
    rfl
  obtain ⟨d, hd, -⟩ := deadline_eq h v v rfl
  induction g using induct generalizing d with
  | timer d r => simp [timed] at h
  | all gs ih =>
    obtain ⟨ds, hds, rfl⟩ := deadline_all hd
    have parts := belowAll_of_timed h
    rw [hd, Instant.latest_none (none hds fun g hg => ?_)]
    obtain ⟨d, hd, -⟩ := deadline_eq (parts g hg) v v rfl
    exact ih g hg (parts g hg) d hd
  | any gs ih =>
    obtain ⟨ds, hds, rfl⟩ := deadline_any hd
    have parts := belowAny_of_timed h
    rw [hd, Instant.earliest_none (none hds fun g hg => ?_)]
    obtain ⟨d, hd, -⟩ := deadline_eq (parts g hg) v v rfl
    exact ih g hg (parts g hg) d hd
  | user u => cases h
  | _ => rfl

/-- Nothing below `all` comes true before the latest of the deadlines. -/
theorem deadline_le_of_true {g : Guard S} (h : g.timed .joint = true) (ht : g.poll v' s = .ok true)
    {e : Instant} (hd : g.deadline v = .ok (some e)) : e ≤ v'.now := by
  induction g using induct generalizing e with
  | timer d r =>
    rw [deadline] at hd
    split at hd
    · cases hd
    · cases hd
      simpa [poll, Instant.due] using ht
  | all gs ih =>
    obtain ⟨ds, hds, he⟩ := deadline_all hd
    refine Instant.latest_le (fun d hd => ?_) he.symm
    obtain ⟨g, hg, hd⟩ := (deadlines_ok hds _).mp hd
    exact ih g hg (belowAll_of_timed h g hg) (pollAll_true.mp ht g hg) hd
  | any gs ih =>
    have nowhere : (Guard.any gs).timed .nowhere = true := h
    rw [deadline_nowhere nowhere] at hd
    cases hd
  | user u => cases h
  | _ => cases hd

/-- Below `all`, what comes true while the futures stay as they are does so by the clock. -/
theorem deadline_of_joint {g : Guard S} (h : g.timed .joint = true)
    (hr : ∀ f ∈ g.reads, v.resolved f = v'.resolved f) (hf : g.poll v s ≠ .ok true)
    (ht : g.poll v' s = .ok true) : ∃ e, g.deadline v = .ok (some e) := by
  induction g using induct with
  | always => exact absurd rfl hf
  | field name pred => exact absurd ht hf
  | future f =>
    have same := hr f (by simp [reads, sources])
    rw [poll, same] at hf
    exact absurd ht hf
  | timer d r =>
    have later : Instant.due v'.now d = true := by simpa [poll] using ht
    have before : Instant.due v.now d = false := by simpa [poll] using hf
    cases d with
    | none => cases later
    | some d => exact ⟨d, by simp [deadline, before]⟩
  | all gs ih =>
    have parts := belowAll_of_timed h
    have some_false : ∃ g ∈ gs, g.poll v s ≠ .ok true := by
      refine Classical.byContradiction fun hn => hf (pollAll_true.mpr fun g hg => ?_)
      exact Classical.byContradiction fun hp => hn ⟨g, hg, hp⟩
    obtain ⟨g, hg, hp⟩ := some_false
    obtain ⟨e, he⟩ := ih g hg (parts g hg) (fun f hf => hr f (mem_reads_all parts hg hf)) hp
      (pollAll_true.mp ht g hg)
    obtain ⟨d, hd, -⟩ := deadline_eq h v v rfl
    obtain ⟨ds, hds, rfl⟩ := deadline_all hd
    obtain ⟨d, hl⟩ := Instant.latest_isSome ((deadlines_ok hds _).mpr ⟨g, hg, he⟩)
    exact ⟨d, by rw [hd, hl]⟩
  | any gs ih =>
    have nowhere : (Guard.any gs).timed .nowhere = true := h
    rw [poll_congr nowhere (fun hi => absurd rfl hi) hr] at hf
    exact absurd ht hf
  | user u => cases h

/-- A guard that comes true while the state and the futures stay as they are
has named an instant that has passed by then. -/
theorem deadline_passed {g : Guard S} (h : g.punctual = true)
    (hr : ∀ f ∈ g.reads, v.resolved f = v'.resolved f) (hf : g.poll v s = .ok false)
    (ht : g.poll v' s = .ok true) : ∃ e, g.deadline v = .ok (some e) ∧ e ≤ v'.now := by
  have joint {g : Guard S} (h : g.timed .joint = true)
      (hr : ∀ f ∈ g.reads, v.resolved f = v'.resolved f) (hf : g.poll v s = .ok false)
      (ht : g.poll v' s = .ok true) : ∃ e, g.deadline v = .ok (some e) ∧ e ≤ v'.now := by
    obtain ⟨e, he⟩ := deadline_of_joint h hr (by simp [hf]) ht
    exact ⟨e, he, deadline_le_of_true h ht he⟩
  induction g using induct with
  | any gs ih =>
    have parts := belowAny_of_timed h
    obtain ⟨g, hg, hp⟩ := pollAny_true ht
    obtain ⟨e, he, hle⟩ := ih g hg (parts g hg) (fun f hf => hr f (mem_reads_any parts hg hf))
      (pollAny_false.mp hf g hg) hp
    obtain ⟨d, hd, -⟩ := deadline_eq h v v rfl
    obtain ⟨ds, hds, rfl⟩ := deadline_any hd
    obtain ⟨d, hl, hde⟩ := Instant.earliest_le ((deadlines_ok hds _).mpr ⟨g, hg, he⟩)
    exact ⟨d, by rw [hd, hl], Int.le_trans hde hle⟩
  | _ => exact joint h hr hf ht

end

end Guard

end ObjectGroups
