/-
The step of a wait.

`Paces` says what the step comes to: the wait has an answer (`Answers`) or goes to
another point of the same guard (`Goes`); it subscribes, parks or wakes; or it
goes from one part of an `all` to the next.
-/
import ObjectGroups.Guard.Wait

namespace ObjectGroups

variable {S : Type} {v : Sight} {σ : S} {p : Parker}

/-- The answer that a wait has at this point. -/
inductive WaitPoint.Answers (v : Sight) (σ : S) : WaitPoint S → Answer → Prop where
  | always : Answers v σ (.enter .always) (.ok true)
  | field (name : String) (pred : S → Answer) :
      Answers v σ (.enter (.field name pred)) ((Guard.field name pred).evaluate v σ)
  | nothing : Answers v σ (.enter (.all [])) (.ok true)
  | resolved {f : FutureId} : v.resolved f = true → Answers v σ (.future f) (.ok true)
  | resolvedSince {f : FutureId} : v.resolved f = true → Answers v σ (.recheck f) (.ok true)
  | due {d : Instant} : d ≤ v.now → Answers v σ (.timer d) (.ok true)
  | polled {gs : List (Guard S)} {external : Bool} : (Guard.any gs).evaluate v σ ≠ .ok false →
      Answers v σ (.anyPoll gs external) ((Guard.any gs).evaluate v σ)
  | aimFailed {gs : List (Guard S)} {external : Bool} {q : Payload} :
      (Guard.any gs).deadline v = .error q → Answers v σ (.anyAim gs external) (.panic q)
  /-- There is nothing to wait for. -/
  | aimless {gs : List (Guard S)} : (Guard.any gs).deadline v = .ok none →
      Answers v σ (.anyAim gs false) (.ok false)
  | last (gs : List (Guard S)) : Answers v σ (.anyLast gs) ((Guard.any gs).evaluate v σ)
  | user (g : Guard S) (r : Answer) : Answers v σ (.user g (.answer r)) r

/-- Where a wait goes from this point, if it only looks. -/
inductive WaitPoint.Goes (v : Sight) (σ : S) : WaitPoint S → WaitPoint S → Prop where
  | answers {x : WaitPoint S} {r : Answer} : x.Answers v σ r → Goes v σ x (.done r)
  | future (f : FutureId) : Goes v σ (.enter (.future f)) (.future f)
  | timer (d : Instant) (r : Span) : Goes v σ (.enter (.timer (some d) r)) (.timer d)
  | never (r : Span) : Goes v σ (.enter (.timer none r)) .never
  | user (u : UserGuard S) : Goes v σ (.enter (.user u)) (.user (.user u) (u.wait v))
  | joins (f : FutureId) : Goes v σ (.future f) (.join f)
  | parksFuture {f : FutureId} : v.resolved f = false →
      Goes v σ (.recheck f) (.park none .awake (.future f))
  | parksTimer (d : Instant) : Goes v σ (.timer d) (.park (some d) .awake (.timer d))
  | parksNever : Goes v σ .never (.park none .awake .never)
  | refused {gs : List (Guard S)} {external : Bool} : (Guard.any gs).evaluate v σ = .ok false →
      Goes v σ (.anyPoll gs external) (.anyAim gs external)
  | parksAny {gs : List (Guard S)} {external : Bool} {d : Option Instant} :
      (Guard.any gs).deadline v = .ok d → Goes v σ (.anyAim gs external) (.park d .awake (.any gs))
  | evaluates (g : Guard S) (next : Answer → WaitPlan) :
      Goes v σ (.user g (.evaluate next)) (.user g (next (g.evaluate v σ)))
  | parksUser (g : Guard S) (d : Option Instant) (next : Except GuardError Unit → WaitPlan) :
      Goes v σ (.user g (.park d next)) (.park d .awake (.user g next))

namespace Wait

/-- What a step of a wait comes to. -/
inductive Paces (v : Sight) (σ : S) (p : Parker) : Wait S → WaitMove S → Prop where
  | goes {x y : WaitPoint S} {frames : List (Bool × List (Guard S))} : x.Goes v σ y →
      Paces v σ p ⟨x, frames⟩ { parker := p, wait := ⟨y, frames⟩ }
  | descends (g : Guard S) (gs : List (Guard S)) (frames : List (Bool × List (Guard S))) :
      Paces v σ p ⟨.enter (.all (g :: gs)), frames⟩
        { parker := p, wait := ⟨.enter g, (true, gs) :: frames⟩ }
  | joins (f : FutureId) (frames : List (Bool × List (Guard S))) :
      Paces v σ p ⟨.join f, frames⟩ { joins := [f], parker := p, wait := ⟨.recheck f, frames⟩ }
  | subscribes {gs : List (Guard S)} {fs : List FutureId} {external : Bool}
      {frames : List (Bool × List (Guard S))} : (Guard.any gs).sources v = (fs, .ok external) →
      Paces v σ p ⟨.enter (.any gs), frames⟩
        { joins := fs, parker := p, wait := ⟨.anyPoll gs external, frames⟩ }
  | subscribeFailed {gs : List (Guard S)} {fs : List FutureId} {q : Payload}
      {frames : List (Bool × List (Guard S))} : (Guard.any gs).sources v = (fs, .error q) →
      Paces v σ p ⟨.enter (.any gs), frames⟩
        { joins := fs, parker := p, wait := ⟨.done (.panic q), frames⟩ }
  | sleeps {d : Option Instant} {sleep : Sleep} {after : AfterPark S}
      {frames : List (Bool × List (Guard S))} : p.look v.now d sleep = some .sleeps →
      Paces v σ p ⟨.park d sleep after, frames⟩
        { parker := p, wait := ⟨.park d (.asleep false) after, frames⟩ }
  | wakes {d : Option Instant} {sleep : Sleep} {after : AfterPark S}
      {frames : List (Bool × List (Guard S))} {r : Except GuardError Unit} {p' : Parker} :
      p.look v.now d sleep = some (.ended (r, p')) →
      Paces v σ p ⟨.park d sleep after, frames⟩
        { parker := p', wait := ⟨WaitPoint.afterPark r after, frames⟩ }
  /-- The next part of an `all` has its turn. -/
  | passes (b held : Bool) (g : Guard S) (gs : List (Guard S))
      (frames : List (Bool × List (Guard S))) :
      Paces v σ p ⟨.done (.ok b), (held, g :: gs) :: frames⟩
        { parker := p, wait := ⟨.enter g, (b && held, gs) :: frames⟩ }
  /-- An `all` has its answer; a failure is that of its part. -/
  | ends {r r' : Answer} {held : Bool} {gs : List (Guard S)}
      {frames : List (Bool × List (Guard S))} :
      (∃ b, r = .ok b ∧ r' = .ok (b && held)) ∨ r' = r →
      Paces v σ p ⟨.done r, (held, gs) :: frames⟩ { parker := p, wait := ⟨.done r', frames⟩ }

theorem step_paces {w : Wait S} {next : WaitMove S} (h : w.step v σ p = some next) :
    w.Paces v σ p next := by
  obtain ⟨point, frames⟩ := w
  have goes {y : WaitPoint S} (hm : some { parker := p, wait := ⟨y, frames⟩ } = some next)
      (hy : point.Goes v σ y) : Paces v σ p ⟨point, frames⟩ next := by
    cases hm
    exact .goes hy
  cases point with
  | enter g => cases g with
    | always => exact goes h (.answers .always)
    | field name pred => exact goes h (.answers (.field name pred))
    | future f => exact goes h (.future f)
    | timer d r => cases d with
      | none => exact goes h (.never r)
      | some d => exact goes h (.timer d r)
    | all gs => cases gs with
      | nil => exact goes h (.answers .nothing)
      | cons g gs =>
        cases h
        exact .descends g gs frames
    | any gs =>
      cases hs : (Guard.any gs).sources v with
      | mk fs answer =>
        simp only [step, WaitPoint.enterAny, hs] at h
        cases h
        cases answer with
        | ok external => exact .subscribes hs
        | error q => exact .subscribeFailed hs
    | user u => exact goes h (.user u)
  | future f =>
    refine goes h ?_
    split
    · next hf => exact .answers (.resolved hf)
    · exact .joins f
  | join f =>
    cases h
    exact .joins f frames
  | recheck f =>
    refine goes h ?_
    split
    · next hf => exact .answers (.resolvedSince hf)
    · next hf => exact .parksFuture (by simpa using hf)
  | timer d =>
    refine goes h ?_
    split
    · next hd => exact .answers (.due hd)
    · exact .parksTimer d
  | never => exact goes h .parksNever
  | anyPoll gs external =>
    refine goes h ?_
    split
    · next hp => exact .refused hp
    · next hp => exact .answers (.polled hp)
  | anyAim gs external =>
    refine goes h ?_
    unfold WaitPoint.aim
    split
    · next hd => exact .answers (.aimFailed hd)
    · next hd => cases external with
      | true => exact .parksAny hd
      | false => exact .answers (.aimless hd)
    · next d hd => exact .parksAny hd
  | anyLast gs => exact goes h (.answers (.last gs))
  | user g plan => cases plan with
    | answer r => exact goes h (.answers (.user g r))
    | evaluate next => exact goes h (.evaluates g next)
    | park d next => exact goes h (.parksUser g d next)
  | park d sleep after =>
    simp only [step] at h
    split at h
    · cases h
    · next hl =>
      cases h
      exact .sleeps hl
    · next r p' hl =>
      cases h
      exact .wakes hl
  | done r => cases frames with
    | nil => cases h
    | cons frame frames =>
      obtain ⟨held, rest⟩ := frame
      cases r with
      | ok b => cases rest with
        | nil =>
          cases h
          exact .ends (.inl ⟨b, rfl, rfl⟩)
        | cons g gs =>
          cases h
          exact .passes b held g gs frames
      | _ =>
        cases h
        exact .ends (.inr rfl)

end Wait

end ObjectGroups
