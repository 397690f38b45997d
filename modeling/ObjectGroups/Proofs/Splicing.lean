/-
Nested conjunctions and disjunctions are one.

An `all` inside an `all` can be replaced by its parts, in place and in order,
and so can an `any` inside an `any` (`Guard.Splices`). What a composite guard
says it folds from what its parts say, and each function has its own way to do
so: it stops at the first part that decides, joins lists of futures up to a
panic, or takes the latest or earliest of the instants that there are. But all
of these are associative, and no parts at all are neutral in front of others
(`Guard.Folds`); nothing else matters.
-/
import ObjectGroups.Proofs.Readings

namespace ObjectGroups

variable {S M : Type} {g g' : Guard S} {v : Sight}

namespace Guard

/-- `g'` comes of `g` as the parts of an `all` inside an `all`, or of an `any` inside an `any`, take its
place, anywhere in `g`. -/
inductive Splices : Guard S → Guard S → Prop where
  | all (before inner behind : List (Guard S)) :
      Splices (.all (before ++ .all inner :: behind)) (.all (before ++ inner ++ behind))
  | any (before inner behind : List (Guard S)) :
      Splices (.any (before ++ .any inner :: behind)) (.any (before ++ inner ++ behind))
  | withinAll {g g' : Guard S} (before behind : List (Guard S)) : Splices g g' →
      Splices (.all (before ++ g :: behind)) (.all (before ++ g' :: behind))
  | withinAny {g g' : Guard S} (before behind : List (Guard S)) : Splices g g' →
      Splices (.any (before ++ g :: behind)) (.any (before ++ g' :: behind))

/-- What `F` says of a composite guard is folded from what it says of the parts. -/
structure Folds (node : List (Guard S) → Guard S) (F : Guard S → M) (op : M → M → M) (unit : M) :
    Prop where
  node_eq (gs : List (Guard S)) : F (node gs) = gs.foldr (fun g r => op (F g) r) unit
  assoc (a b c : M) : op (op a b) c = op a (op b c)
  unit_op (a : M) : op unit a = a

namespace Folds

variable {node : List (Guard S) → Guard S} {F : Guard S → M} {op : M → M → M} {unit : M}

theorem of_lists {L : List (Guard S) → M} (nil : L [] = unit) (cons : ∀ g gs, L (g :: gs) = op (F g) (L gs))
    (node_eq : ∀ gs, F (node gs) = L gs) (assoc : ∀ a b c, op (op a b) c = op a (op b c))
    (unit_op : ∀ a, op unit a = a) : Folds node F op unit where
  node_eq gs := by
    rw [node_eq]
    induction gs with
    | nil => exact nil
    | cons g gs ih => rw [cons, ih, List.foldr_cons]
  assoc := assoc
  unit_op := unit_op

variable (h : Folds node F op unit)
include h

/-- What is said of some parts, followed by what is said of others. -/
theorem foldr_eq (gs : List (Guard S)) (r : M) :
    gs.foldr (fun g r => op (F g) r) r = op (F (node gs)) r := by
  rw [h.node_eq]
  induction gs with
  | nil => exact (h.unit_op r).symm
  | cons g gs ih => rw [List.foldr_cons, List.foldr_cons, ih, h.assoc]

theorem splice (before inner behind : List (Guard S)) :
    F (node (before ++ node inner :: behind)) = F (node (before ++ inner ++ behind)) := by
  rw [h.node_eq, h.node_eq, List.append_assoc, List.foldr_append, List.foldr_append, List.foldr_append,
    List.foldr_cons, h.foldr_eq inner]

theorem within (before behind : List (Guard S)) (same : F g = F g') :
    F (node (before ++ g :: behind)) = F (node (before ++ g' :: behind)) := by
  rw [h.node_eq, h.node_eq, List.foldr_append, List.foldr_append, List.foldr_cons, List.foldr_cons, same]

end Folds

/-- What is folded through both connectives is not changed. -/
theorem Splices.same {F : Guard S → M} {opAll opAny : M → M → M} {unitAll unitAny : M} (h : Splices g g')
    (all : Folds .all F opAll unitAll) (any : Folds .any F opAny unitAny) : F g = F g' := by
  induction h with
  | all before inner behind => exact all.splice before inner behind
  | any before inner behind => exact any.splice before inner behind
  | withinAll before behind _ ih => exact all.within before behind ih
  | withinAny before behind _ ih => exact any.within before behind ih

/-! ## One function at a time -/

/-- Goes on with `b` if the answer is `go`. -/
def next (go : Bool) : Answer → Answer → Answer
  | .ok a, b => if a = go then b else .ok a
  | r, _ => r

theorem next_assoc (go : Bool) (a b c : Answer) : next go (next go a b) c = next go a (next go b c) := by
  cases a with
  | ok a => by_cases ha : a = go <;> simp [next, ha]
  | _ => rfl

theorem folds_poll_all (v : Sight) (s : S) : Folds .all (poll v s) (next true) (.ok true) := by
  refine .of_lists (L := pollAll v s) rfl (fun g gs => ?_) (fun gs => by rw [poll]) (next_assoc true)
    (fun a => by simp [next])
  rw [pollAll]
  cases poll v s g with
  | ok b => cases b <;> rfl
  | _ => rfl

theorem folds_poll_any (v : Sight) (s : S) : Folds .any (poll v s) (next false) (.ok false) := by
  refine .of_lists (L := pollAny v s) rfl (fun g gs => ?_) (fun gs => by rw [poll]) (next_assoc false)
    (fun a => by simp [next])
  rw [pollAny]
  cases poll v s g with
  | ok b => cases b <;> rfl
  | _ => rfl

/-- Both last, or the first that does not says so. -/
def lasting : Except Payload Bool → Except Payload Bool → Except Payload Bool
  | .ok true, b => b
  | r, _ => r

theorem lasting_assoc (a b c : Except Payload Bool) : lasting (lasting a b) c = lasting a (lasting b c) := by
  cases a with
  | ok a => cases a <;> rfl
  | error p => rfl

theorem folds_stays (v : Sight) : Folds (S := S) .all (stays v) lasting (.ok true) ∧
    Folds (S := S) .any (stays v) lasting (.ok true) := by
  have cons (g : Guard S) (gs : List (Guard S)) : stayAll v (g :: gs) = lasting (stays v g) (stayAll v gs) := by
    rw [stayAll]
    cases stays v g with
    | ok b => cases b <;> rfl
    | error p => rfl
  exact ⟨.of_lists rfl cons (fun gs => by rw [stays]) lasting_assoc fun a => rfl,
    .of_lists rfl cons (fun gs => by rw [stays]) lasting_assoc fun a => rfl⟩

/-- The futures of both, unless there is a panic before those of the second. -/
def joined : List FutureId × Except Payload Bool → List FutureId × Except Payload Bool →
    List FutureId × Except Payload Bool
  | (fs, .error p), _ => (fs, .error p)
  | (fs, .ok _), (fs', .error p) => (fs ++ fs', .error p)
  | (fs, .ok b), (fs', .ok b') => (fs ++ fs', .ok (b || b'))

theorem joined_assoc (a b c : List FutureId × Except Payload Bool) :
    joined (joined a b) c = joined a (joined b c) := by
  obtain ⟨fs, a⟩ := a
  obtain ⟨fs', b⟩ := b
  obtain ⟨fs'', c⟩ := c
  cases a <;> cases b <;> cases c <;> simp [joined, Bool.or_assoc]

theorem folds_sources (v : Sight) : Folds (S := S) .all (sources v) joined ([], .ok false) ∧
    Folds (S := S) .any (sources v) joined ([], .ok false) := by
  have cons (g : Guard S) (gs : List (Guard S)) :
      sourcesOf v (g :: gs) = joined (sources v g) (sourcesOf v gs) := by
    rw [sourcesOf]
    obtain ⟨fs, a⟩ := sources v g
    obtain ⟨fs', b⟩ := sourcesOf v gs
    cases a <;> cases b <;> rfl
  have unit (a : List FutureId × Except Payload Bool) : joined ([], .ok false) a = a := by
    obtain ⟨fs, a⟩ := a
    cases a <;> rfl
  exact ⟨.of_lists rfl cons (fun gs => by rw [sources]) joined_assoc unit,
    .of_lists rfl cons (fun gs => by rw [sources]) joined_assoc unit⟩

/-- One instant of both, as `choose` says. -/
def aimed (choose : List (Option Instant) → Option Instant) (a b : Except Payload (Option Instant)) :
    Except Payload (Option Instant) := do
  let d ← a
  let e ← b
  .ok (choose [d, e])

theorem aimed_assoc {choose : List (Option Instant) → Option Instant}
    (assoc : ∀ d e f, choose [choose [d, e], f] = choose [d, choose [e, f]])
    (a b c : Except Payload (Option Instant)) :
    aimed choose (aimed choose a b) c = aimed choose a (aimed choose b c) := by
  cases a with
  | error p => rfl
  | ok d => cases b with
    | error p => rfl
    | ok e => cases c with
      | error p => rfl
      | ok f => exact congrArg Except.ok (assoc d e f)

/-- The instants of the parts, one of which `choose` picks. -/
theorem deadlines_cons {choose : List (Option Instant) → Option Instant}
    (cons : ∀ d ds, choose (d :: ds) = choose [d, choose ds]) (v : Sight) (g : Guard S) (gs : List (Guard S)) :
    (deadlines v (g :: gs)).map choose = aimed choose (deadline v g) ((deadlines v gs).map choose) := by
  rw [deadlines]
  cases deadline v g with
  | error p => rfl
  | ok d => cases deadlines v gs with
    | error p => rfl
    | ok ds => exact congrArg Except.ok (cons d ds)

theorem folds_deadline_all (v : Sight) :
    Folds (S := S) .all (deadline v) (aimed Instant.latest) (.ok none) := by
  refine .of_lists (L := fun gs => (deadlines v gs).map Instant.latest) rfl (deadlines_cons Instant.latest_cons v)
    (fun gs => ?_) (aimed_assoc fun d e f => ?_) fun a => ?_
  · rw [deadline]
    cases deadlines v gs <;> rfl
  · cases d <;> cases e <;> cases f <;> simp [Instant.latest, Int.max_assoc]
  · cases a with
    | error p => rfl
    | ok d => cases d <;> rfl

theorem folds_deadline_any (v : Sight) :
    Folds (S := S) .any (deadline v) (aimed Instant.earliest) (.ok none) := by
  refine .of_lists (L := fun gs => (deadlines v gs).map Instant.earliest) rfl
    (deadlines_cons Instant.earliest_cons v) (fun gs => ?_) (aimed_assoc fun d e f => ?_) fun a => ?_
  · rw [deadline]
    cases deadlines v gs <;> rfl
  · cases d <;> cases e <;> cases f <;> simp [Instant.earliest, Int.min_assoc]
  · cases a with
    | error p => rfl
    | ok d => cases d <;> rfl

/-- Whether the guard describes itself, whatever it says. -/
def describes (v : Sight) (g : Guard S) : Except Payload Unit := (label v g).map fun _ => ()

theorem folds_describes (v : Sight) :
    Folds (S := S) .all (describes v) (fun a b => a >>= fun _ => b) (.ok ()) ∧
      Folds (S := S) .any (describes v) (fun a b => a >>= fun _ => b) (.ok ()) := by
  have cons (g : Guard S) (gs : List (Guard S)) : (labels v (g :: gs)).map (fun _ => ()) =
      (describes v g >>= fun _ => (labels v gs).map fun _ => ()) := by
    rw [labels, describes]
    cases label v g with
    | error p => rfl
    | ok l => cases labels v gs <;> rfl
  have assoc (a b c : Except Payload Unit) :
      ((a >>= fun _ => b) >>= fun _ => c) = (a >>= fun _ => b >>= fun _ => c) := by
    cases a <;> rfl
  refine ⟨.of_lists (L := fun gs => (labels v gs).map fun _ => ()) rfl cons (fun gs => ?_) assoc fun a => rfl,
    .of_lists (L := fun gs => (labels v gs).map fun _ => ()) rfl cons (fun gs => ?_) assoc fun a => rfl⟩
  all_goals
    rw [describes, label]
    cases labels v gs <;> rfl

/-- Who asks the guards is told the same, now and always. Only their descriptions differ. -/
structure Agree (g g' : Guard S) : Prop where
  poll (v : Sight) (s : S) : g.poll v s = g'.poll v s
  stays (v : Sight) : g.stays v = g'.stays v
  sources (v : Sight) : g.sources v = g'.sources v
  deadline (v : Sight) : g.deadline v = g'.deadline v
  /-- If one refuses its description so does the other. -/
  describes (v : Sight) : g.describes v = g'.describes v

theorem Agree.symm (h : Agree g g') : Agree g' g where
  poll v s := (h.poll v s).symm
  stays v := (h.stays v).symm
  sources v := (h.sources v).symm
  deadline v := (h.deadline v).symm
  describes v := (h.describes v).symm

theorem Splices.agree (h : Splices g g') : Agree g g' where
  poll v s := h.same (folds_poll_all v s) (folds_poll_any v s)
  stays v := h.same (folds_stays v).1 (folds_stays v).2
  sources v := h.same (folds_sources v).1 (folds_sources v).2
  deadline v := h.same (folds_deadline_all v) (folds_deadline_any v)
  describes v := h.same (folds_describes v).1 (folds_describes v).2

end Guard

/-- The same answer, but for the description under which a panic may have been reported. -/
inductive Answer.Alike : Answer → Answer → Prop where
  | same (r : Answer) : Alike r r
  | panicked (l l' : String) :
      Alike (.error (.evaluation (l ++ " panicked"))) (.error (.evaluation (l' ++ " panicked")))

theorem Guard.Agree.evaluate (h : Agree g g') (v : Sight) (s : S) :
    Answer.Alike (g.evaluate v s) (g'.evaluate v s) := by
  have describes := h.describes v
  unfold Guard.evaluate
  rw [h.poll v s]
  cases g'.poll v s with
  | ok b => exact .same _
  | error e => exact .same _
  | panic p =>
    unfold Guard.describes at describes
    cases hl : g.label v with
    | error q => cases hl' : g'.label v with
      | error q' =>
        rw [hl, hl'] at describes
        cases describes
        exact .same _
      | ok l' =>
        rw [hl, hl'] at describes
        cases describes
    | ok l => cases hl' : g'.label v with
      | error q' =>
        rw [hl, hl'] at describes
        cases describes
      | ok l' => exact .panicked l l'

end ObjectGroups
