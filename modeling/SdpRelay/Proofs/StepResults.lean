import Mathlib.Tactic.Common

namespace SdpRelay

/-!
# How steps end

A step of a solve or of a session ends with an answer or with a fault, and it
leaves a state either way.  `Ends` says what holds at the end of one step, and
`EndAlike` compares the ends of two.  Both pass through sequences of steps, so
that a fact about a whole solve is put together from facts about its steps.
-/

variable {ε σ σ₁ σ₂ β γ : Type}

/-- The state that a step leaves. -/
def stateAfter : EStateM.Result ε σ β → σ
  | .ok _ next => next
  | .error _ next => next

@[simp] theorem stateAfter_ok
    (answer : β)
    (next : σ) :
    stateAfter (.ok answer next : EStateM.Result ε σ β) = next :=
  rfl

@[simp] theorem stateAfter_error
    (fault : ε)
    (next : σ) :
    stateAfter (.error fault next : EStateM.Result ε σ β) = next :=
  rfl

/-- What a step answers. -/
def answerOf : EStateM.Result ε σ β → Except ε β
  | .ok answer _ => .ok answer
  | .error fault _ => .error fault

theorem eq_ok_of_answerOf
    {result : EStateM.Result ε σ β}
    {answer : β}
    (answered : answerOf result = .ok answer) :
    result = .ok answer (stateAfter result) := by
  cases result with
  | ok =>
      cases answered
      rfl
  | error =>
      cases answered

theorem eq_error_of_answerOf
    {result : EStateM.Result ε σ β}
    {fault : ε}
    (failed : answerOf result = .error fault) :
    result = .error fault (stateAfter result) := by
  cases result with
  | ok =>
      cases failed
  | error =>
      cases failed
      rfl

/-- The end of a step with another view of the state. -/
def withState
    (view : σ₁ → σ₂) :
    EStateM.Result ε σ₁ β → EStateM.Result ε σ₂ β
  | .ok answer next => .ok answer (view next)
  | .error fault next => .error fault (view next)

@[simp] theorem stateAfter_withState
    (view : σ₁ → σ₂)
    (result : EStateM.Result ε σ₁ β) :
    stateAfter (withState view result) = view (stateAfter result) := by
  cases result <;> rfl

/-- A step whose answer is dropped leaves the state that it leaves anyway. -/
@[simp] theorem stateAfter_discard
    (step : EStateM ε σ β)
    (start : σ) :
    stateAfter (discard step start) = stateAfter (step start) := by
  change stateAfter (EStateM.map (fun _ => PUnit.unit) step start) = _
  unfold EStateM.map
  cases step start <;> rfl

/-- A step ends with an answer of one kind or with a fault of another kind. -/
def Ends
    (onAnswer : β → σ → Prop)
    (onFault : ε → σ → Prop) :
    EStateM.Result ε σ β → Prop
  | .ok answer next => onAnswer answer next
  | .error fault next => onFault fault next

namespace Ends

variable
  {onAnswer : β → σ → Prop}
  {onFault : ε → σ → Prop}

theorem mono
    {laterAnswer : β → σ → Prop}
    {laterFault : ε → σ → Prop}
    {result : EStateM.Result ε σ β}
    (ends : Ends onAnswer onFault result)
    (answers : ∀ answer next, onAnswer answer next → laterAnswer answer next)
    (faults : ∀ fault next, onFault fault next → laterFault fault next) :
    Ends laterAnswer laterFault result := by
  cases result with
  | ok answer next =>
      exact answers answer next ends
  | error fault next =>
      exact faults fault next ends

/-- Two facts about the end of one step hold together. -/
theorem and
    {alsoAnswer : β → σ → Prop}
    {alsoFault : ε → σ → Prop}
    {result : EStateM.Result ε σ β}
    (ends : Ends onAnswer onFault result)
    (also : Ends alsoAnswer alsoFault result) :
    Ends
      (fun answer next => onAnswer answer next ∧ alsoAnswer answer next)
      (fun fault next => onFault fault next ∧ alsoFault fault next)
      result := by
  cases result with
  | ok answer next =>
      exact ⟨ends, also⟩
  | error fault next =>
      exact ⟨ends, also⟩

/-- A sequence of steps ends as its second part does, or with a fault of its first. -/
theorem bind
    {between : β → σ → Prop}
    {onFirstFault : ε → σ → Prop}
    {onSecond : γ → σ → Prop}
    {first : EStateM ε σ β}
    {second : β → EStateM ε σ γ}
    {start : σ}
    (ends : Ends between onFirstFault (first start))
    (faults : ∀ fault next, onFirstFault fault next → onFault fault next)
    (continues :
      ∀ answer next, between answer next →
        Ends onSecond onFault (second answer next)) :
    Ends onSecond onFault ((first >>= second) start) := by
  change Ends onSecond onFault (EStateM.bind first second start)
  unfold EStateM.bind
  cases result : first start with
  | ok answer next =>
      rw [result] at ends
      exact continues answer next ends
  | error fault next =>
      rw [result] at ends
      exact faults fault next ends

/-- A step whose answer is dropped ends in the same state. -/
theorem discard
    {holds : σ → Prop}
    {step : EStateM ε σ β}
    {start : σ}
    (ends : Ends (fun _ => holds) onFault (step start)) :
    Ends (fun _ => holds) onFault (discard step start) := by
  change Ends _ _ (EStateM.map (fun _ => PUnit.unit) step start)
  unfold EStateM.map
  cases result : step start with
  | ok answer next =>
      rw [result] at ends
      exact ends
  | error fault next =>
      rw [result] at ends
      exact ends

/-- What holds however a step ends holds of the state that it leaves. -/
theorem always_iff
    {holds : σ → Prop}
    {result : EStateM.Result ε σ β} :
    Ends (fun _ => holds) (fun _ => holds) result ↔
      holds (stateAfter result) := by
  cases result with
  | ok answer next =>
      exact Iff.rfl
  | error fault next =>
      exact Iff.rfl

end Ends

/-- A step leaves alone what is looked at, however it ends. -/
def Keeps
    (view : σ → γ)
    (step : EStateM ε σ β) :
    Prop :=
  ∀ start, view (stateAfter (step start)) = view start

namespace Keeps

variable {δ : Type} {view : σ → γ}

theorem pure (answer : β) : Keeps view (pure answer : EStateM ε σ β) :=
  fun _ => rfl

theorem throw (fault : ε) : Keeps view (throw fault : EStateM ε σ β) :=
  fun _ => rfl

theorem get : Keeps view (get : EStateM ε σ σ) :=
  fun _ => rfl

theorem modify
    {change : σ → σ}
    (kept : ∀ state, view (change state) = view state) :
    Keeps view (modify change : EStateM ε σ PUnit) :=
  kept

theorem bind
    {first : EStateM ε σ β}
    {second : β → EStateM ε σ δ}
    (keepsFirst : Keeps view first)
    (keepsSecond : ∀ answer, Keeps view (second answer)) :
    Keeps view (first >>= second) := by
  intro start
  change view (stateAfter (EStateM.bind first second start)) = view start
  rw [← keepsFirst start]
  unfold EStateM.bind
  cases first start with
  | ok answer next =>
      exact keepsSecond answer next
  | error fault next =>
      rfl

theorem forM
    {step : δ → EStateM ε σ PUnit}
    (items : List δ)
    (keeps : ∀ item, Keeps view (step item)) :
    Keeps view (items.forM step) := by
  induction items with
  | nil =>
      exact .pure _
  | cons item rest inductionHypothesis =>
      exact .bind (keeps item) fun _ => inductionHypothesis

theorem discard
    {step : EStateM ε σ β}
    (keeps : Keeps view step) :
    Keeps view (discard step) := by
  intro start
  rw [stateAfter_discard]
  exact keeps start

/-- What is looked at stays the same, whether the step answers or fails. -/
theorem ends
    {step : EStateM ε σ β}
    (keeps : Keeps view step)
    (start : σ) :
    Ends
      (fun _ next => view next = view start)
      (fun _ next => view next = view start)
      (step start) :=
  Ends.always_iff.mpr (keeps start)

end Keeps

/-- A step leaves alone what is looked at, and cannot fail. -/
def Completes
    (view : σ → γ)
    (step : EStateM ε σ β) :
    Prop :=
  ∀ start,
    Ends
      (fun _ next => view next = view start)
      (fun _ _ => False)
      (step start)

namespace Completes

variable {δ : Type} {view : σ → γ}

theorem pure (answer : β) : Completes view (pure answer : EStateM ε σ β) :=
  fun _ => rfl

theorem get : Completes view (get : EStateM ε σ σ) :=
  fun _ => rfl

theorem modify
    {change : σ → σ}
    (kept : ∀ state, view (change state) = view state) :
    Completes view (modify change : EStateM ε σ PUnit) :=
  kept

theorem bind
    {first : EStateM ε σ β}
    {second : β → EStateM ε σ δ}
    (completesFirst : Completes view first)
    (completesSecond : ∀ answer, Completes view (second answer)) :
    Completes view (first >>= second) := by
  intro start
  refine Ends.bind (completesFirst start) (fun _ _ => id) ?_
  intro answer next same
  rw [← same]
  exact completesSecond answer next

theorem keeps
    {step : EStateM ε σ β}
    (completes : Completes view step) :
    Keeps view step := by
  intro start
  refine Ends.always_iff.mp ((completes start).mono (fun _ _ => id) ?_)
  exact fun _ _ => False.elim

end Completes

/-- Two steps end with the same answer or with the same fault, in related states. -/
inductive EndAlike
    (onAnswer : β → σ₁ → σ₂ → Prop)
    (onFault : σ₁ → σ₂ → Prop) :
    EStateM.Result ε σ₁ β → EStateM.Result ε σ₂ β → Prop where
  | answer {answer : β} {first : σ₁} {second : σ₂}
      (related : onAnswer answer first second) :
      EndAlike onAnswer onFault (.ok answer first) (.ok answer second)
  | fault {fault : ε} {first : σ₁} {second : σ₂}
      (related : onFault first second) :
      EndAlike onAnswer onFault (.error fault first) (.error fault second)

/-- Two steps end alike, and in the same relation whether they answer or fail. -/
abbrev StayAlike
    (related : σ₁ → σ₂ → Prop) :
    EStateM.Result ε σ₁ β → EStateM.Result ε σ₂ β → Prop :=
  EndAlike (fun _ => related) related

namespace EndAlike

variable
  {onAnswer : β → σ₁ → σ₂ → Prop}
  {onFault : σ₁ → σ₂ → Prop}

theorem mono
    {laterAnswer : β → σ₁ → σ₂ → Prop}
    {laterFault : σ₁ → σ₂ → Prop}
    {first : EStateM.Result ε σ₁ β}
    {second : EStateM.Result ε σ₂ β}
    (alike : EndAlike onAnswer onFault first second)
    (answers :
      ∀ answer one other, onAnswer answer one other →
        laterAnswer answer one other)
    (faults : ∀ one other, onFault one other → laterFault one other) :
    EndAlike laterAnswer laterFault first second := by
  cases alike with
  | answer related =>
      exact .answer (answers _ _ _ related)
  | fault related =>
      exact .fault (faults _ _ related)

/-- A step ends like itself. -/
theorem refl
    {related : σ → σ → Prop}
    (reflexive : ∀ state, related state state)
    (result : EStateM.Result ε σ β) :
    StayAlike related result result := by
  cases result with
  | ok answer next =>
      exact .answer (reflexive next)
  | error fault next =>
      exact .fault (reflexive next)

/-- A step ends like itself under another view of the state. -/
theorem withState_left
    {related : σ₂ → σ₁ → Prop}
    {view : σ₁ → σ₂}
    (viewed : ∀ state, related (view state) state)
    (result : EStateM.Result ε σ₁ β) :
    StayAlike related (withState view result) result := by
  cases result with
  | ok answer next =>
      exact .answer (viewed next)
  | error fault next =>
      exact .fault (viewed next)

/-- Sequences of steps end alike if their parts do. -/
theorem bind
    {between : γ → σ₁ → σ₂ → Prop}
    {onFirstFault : σ₁ → σ₂ → Prop}
    {first : EStateM ε σ₁ γ}
    {other : EStateM ε σ₂ γ}
    {second : γ → EStateM ε σ₁ β}
    {otherSecond : γ → EStateM ε σ₂ β}
    {start : σ₁}
    {otherStart : σ₂}
    (alike : EndAlike between onFirstFault (first start) (other otherStart))
    (faults : ∀ one two, onFirstFault one two → onFault one two)
    (continues :
      ∀ answer one two, between answer one two →
        EndAlike onAnswer onFault (second answer one)
          (otherSecond answer two)) :
    EndAlike onAnswer onFault ((first >>= second) start)
      ((other >>= otherSecond) otherStart) := by
  change
    EndAlike onAnswer onFault (EStateM.bind first second start)
      (EStateM.bind other otherSecond otherStart)
  unfold EStateM.bind
  revert alike
  generalize first start = firstResult
  generalize other otherStart = otherResult
  intro alike
  cases alike with
  | answer related =>
      exact continues _ _ _ related
  | fault related =>
      exact .fault (faults _ _ related)

/-- Two steps that branch on one condition end alike if their branches do. -/
theorem branch
    {condition : Prop}
    [Decidable condition]
    {whenTrue whenFalse : EStateM ε σ₁ β}
    {otherTrue otherFalse : EStateM ε σ₂ β}
    {start : σ₁}
    {otherStart : σ₂}
    (onTrue :
      condition →
        EndAlike onAnswer onFault (whenTrue start) (otherTrue otherStart))
    (onFalse :
      ¬ condition →
        EndAlike onAnswer onFault (whenFalse start) (otherFalse otherStart)) :
    EndAlike onAnswer onFault
      ((if condition then whenTrue else whenFalse) start)
      ((if condition then otherTrue else otherFalse) otherStart) := by
  by_cases holds : condition
  · rw [if_pos holds, if_pos holds]
    exact onTrue holds
  · rw [if_neg holds, if_neg holds]
    exact onFalse holds

end EndAlike

/-- Ends that stay alike have the same answer and related states. -/
theorem StayAlike.same_end
    {related : σ₁ → σ₂ → Prop}
    {first : EStateM.Result ε σ₁ β}
    {second : EStateM.Result ε σ₂ β}
    (alike : StayAlike related first second) :
    answerOf first = answerOf second ∧
      related (stateAfter first) (stateAfter second) := by
  cases alike with
  | answer related =>
      exact ⟨rfl, related⟩
  | fault related =>
      exact ⟨rfl, related⟩

end SdpRelay
