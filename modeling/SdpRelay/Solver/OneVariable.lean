import SdpRelay.Fault
import SdpRelay.OneVariable

namespace SdpRelay

/-!
# Solvers for one free variable

A session can replace the method for problems with one free variable. Nothing is
assumed about a method: it may fail with any fault that a session knows. The
standard choice is Newton's method; the other one gives an answer that was fixed
beforehand and remembers the problems it was asked about.
-/

/-- A solver for one free variable, as a state of type `τ`; it may give up on a problem. -/
class OneVariableSolver (τ α : Type) where
  solve :
    (sentinel : α) → OneVariableProblem α →
      EStateM (Fault α) τ (Option (OneVariableSolution α))

/-- Newton's method with a limit on its steps. -/
structure NewtonMethod where
  iterationLimit : Nat
  deriving Repr, DecidableEq

/-- Newton's method as a session uses it unless told otherwise. -/
def NewtonMethod.standard : NewtonMethod :=
  { iterationLimit := 100 }

/-- An answer that does not depend on the problem. -/
structure FixedAnswer (α : Type) where
  answer : Except SolverFault (Option (OneVariableSolution α))
  /-- The problems it was asked about, the last one first. -/
  asked : List (OneVariableProblem α)

namespace OneVariableSolver

variable {α : Type}

instance [Scalar α] : OneVariableSolver NewtonMethod α where
  solve := fun sentinel problem method =>
    match problem.newton sentinel method.iterationLimit with
    | .ok solution => .ok solution method
    | .error fault => .error (.eigen fault) method

instance : OneVariableSolver (FixedAnswer α) α where
  solve := fun _ problem method =>
    let next := { method with asked := problem :: method.asked }
    match method.answer with
    | .ok solution => .ok solution next
    | .error fault => .error (.solver fault) next

/-- Either of two methods. -/
instance
    {τ₁ τ₂ : Type}
    [OneVariableSolver τ₁ α]
    [OneVariableSolver τ₂ α] :
    OneVariableSolver (τ₁ ⊕ τ₂) α where
  solve := fun sentinel problem method =>
    match method with
    | .inl first =>
        match OneVariableSolver.solve sentinel problem first with
        | .ok solution next => .ok solution (.inl next)
        | .error fault next => .error fault (.inl next)
    | .inr second =>
        match OneVariableSolver.solve sentinel problem second with
        | .ok solution next => .ok solution (.inr next)
        | .error fault next => .error fault (.inr next)

end OneVariableSolver

end SdpRelay
