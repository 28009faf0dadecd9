import SdpRelay.Proofs.RepeatedPresolve
import SdpRelay.Proofs.StoreLayout

namespace SdpRelay

/-!
# How many passes presolve makes

`RowPass.propagate` counts its passes, but the count is only there to define it.
`RowPass.Course` is the loop as one would write it without a counter: pass over the
rows until a pass proves infeasibility or fixes nothing.  A fixed variable keeps its
bounds, so a pass that goes on leaves fewer free variables, and a course has at most
one pass more than there are free variables at its start.  Nothing is assumed about
the arithmetic.
-/

/-- A stored row mentions variables of the store only, if it has been loaded. -/
theorem Store.inRange_of_load
    {α : Type}
    [Scalar α]
    {sentinel : α}
    {program : Program α}
    {store : Store α}
    (loaded : load sentinel program = .ok store) :
    ∀ row ∈ store.rows.toRows, ∀ var ∈ row.vars,
      var < store.variableCount := by
  have acceptable := acceptable_of_load loaded
  obtain ⟨isAcceptable, rfl⟩ := load_eq_ok.mp loaded
  rw [(ofProgram_represents isAcceptable).lowerLength] at acceptable
  exact fun row member => (acceptable row member).known

namespace RowPass

variable {α : Type} [Scalar α]

/-- No further pass follows: there is a contradiction, or nothing has been fixed. -/
def Stops (pass : RowPass α) : Prop :=
  pass.summary.infeasible = true ∨ pass.summary.fixedSome = false

instance (pass : RowPass α) : Decidable pass.Stops :=
  inferInstanceAs (Decidable (_ ∨ _))

/-- The passes from given bounds on, each starting from the bounds of the one before. -/
inductive Course
    (store : Store α)
    (sentinel : α)
    (settings : Settings α) :
    Bounds α → List (RowPass α) → Prop
  | last
      {bounds : Bounds α}
      (stops : (run store sentinel settings bounds).Stops) :
      Course store sentinel settings bounds
        [run store sentinel settings bounds]
  | next
      {bounds : Bounds α}
      {later : List (RowPass α)}
      (goesOn : ¬ (run store sentinel settings bounds).Stops)
      (rest :
        Course store sentinel settings
          (run store sentinel settings bounds).bounds later) :
      Course store sentinel settings bounds
        (run store sentinel settings bounds :: later)

variable
  {store : Store α}
  {sentinel : α}
  {settings : Settings α}
  {bounds : Bounds α}

omit [Scalar α] in
/-- A pass that goes on found no contradiction and fixed something. -/
theorem not_stops_iff {pass : RowPass α} :
    ¬ pass.Stops ↔
      pass.summary.infeasible = false ∧ pass.summary.fixedSome = true := by
  simp [Stops]

/-- A pass keeps what is fixed, and if it goes on it leaves fewer free variables. -/
theorem run_shrinks
    (sentinel : α)
    (settings : Settings α)
    (bounds : Bounds α)
    (inRange :
      ∀ row ∈ store.rows.toRows, ∀ var ∈ row.vars,
        var < bounds.lower.length) :
    Bounds.KeepsFixed settings.epsilon bounds
        (run store sentinel settings bounds).bounds ∧
      (¬ (run store sentinel settings bounds).Stops →
        (run store sentinel settings bounds).bounds.freeCount
            settings.epsilon <
          bounds.freeCount settings.epsilon) := by
  refine ⟨(run_progress sentinel settings bounds inRange).keepsFixed, ?_⟩
  intro goesOn
  obtain ⟨feasible, fixes⟩ := not_stops_iff.mp goesOn
  exact run_freeCount_lt inRange feasible fixes

namespace Course

/-- Two courses from the same bounds are the same. -/
theorem unique
    {first second : List (RowPass α)}
    (isFirst : Course store sentinel settings bounds first)
    (isSecond : Course store sentinel settings bounds second) :
    first = second := by
  induction isFirst generalizing second with
  | last stops =>
      cases isSecond with
      | last => rfl
      | next goesOn => exact absurd stops goesOn
  | next goesOn _ inductionHypothesis =>
      cases isSecond with
      | last stops => exact absurd stops goesOn
      | next _ rest => rw [inductionHypothesis rest]

/-- A course has at most one pass more than there are free variables. -/
theorem length_le
    {passes : List (RowPass α)}
    (course : Course store sentinel settings bounds passes)
    (inRange :
      ∀ row ∈ store.rows.toRows, ∀ var ∈ row.vars,
        var < bounds.lower.length) :
    passes.length ≤ bounds.freeCount settings.epsilon + 1 := by
  induction course with
  | last => simp
  | next goesOn _ inductionHypothesis =>
      obtain ⟨keeps, shrinks⟩ := run_shrinks sentinel settings _ inRange
      have fewer := shrinks goesOn
      have restLength :=
        inductionHypothesis (by rw [keeps.lowerLength]; exact inRange)
      rw [List.length_cons]
      omega

/-- With more passes allowed than there are free variables, the counter does not matter. -/
theorem of_passes
    {allowed : Nat}
    (inRange :
      ∀ row ∈ store.rows.toRows, ∀ var ∈ row.vars,
        var < bounds.lower.length)
    (enough : bounds.freeCount settings.epsilon < allowed) :
    Course store sentinel settings bounds
      (passes store sentinel settings allowed bounds) := by
  induction allowed generalizing bounds with
  | zero => omega
  | succ allowed inductionHypothesis =>
      rw [passes]
      by_cases stops : (run store sentinel settings bounds).Stops
      · rw [if_pos (by simpa [Stops] using stops)]
        exact last stops
      · rw [if_neg (by simpa [Stops] using stops)]
        obtain ⟨keeps, shrinks⟩ := run_shrinks sentinel settings _ inRange
        have fewer := shrinks stops
        exact
          next stops
            (inductionHypothesis (by rw [keeps.lowerLength]; exact inRange)
              (by omega))

end Course

/--
Presolve of a loaded problem terminates, whatever the settings, the arithmetic and the
bounds to start from.  There is exactly one course of passes, it has at most one pass
more than there are free variables, and `propagate` makes exactly these passes.  This
is because every pass keeps the bounds of the fixed variables and leaves fewer free
ones if it fixes something without a contradiction.
-/
theorem propagate_terminates
    {loadSentinel : α}
    {program : Program α}
    (sentinel : α)
    (settings : Settings α)
    (bounds : Bounds α)
    (loaded : Store.load loadSentinel program = .ok store)
    (oneForEach : bounds.lower.length = store.variableCount) :
    (∃ passes,
      Course store sentinel settings bounds passes ∧
        (∀ others,
          Course store sentinel settings bounds others → others = passes) ∧
        passes.length ≤ bounds.freeCount settings.epsilon + 1 ∧
        passes.length ≤ store.variableCount + 1 ∧
        propagate store sentinel settings bounds =
          passes.foldl after (atStart bounds)) ∧
      ∀ start : Bounds α, start.lower.length = store.variableCount →
        let pass := run store sentinel settings start
        Bounds.KeepsFixed settings.epsilon start pass.bounds ∧
          (pass.summary.infeasible = false →
            pass.summary.fixedSome = true →
            pass.bounds.freeCount settings.epsilon <
              start.freeCount settings.epsilon) := by
  have known := Store.inRange_of_load loaded
  constructor
  · have inRange :
        ∀ row ∈ store.rows.toRows, ∀ var ∈ row.vars,
          var < bounds.lower.length := by
      rw [oneForEach]
      exact known
    have freeAtMost := bounds.freeCount_le settings.epsilon
    have course :
        Course store sentinel settings bounds
          (propagatePasses store sentinel settings bounds) :=
      Course.of_passes inRange (by omega)
    have atMost := course.length_le inRange
    refine
      ⟨propagatePasses store sentinel settings bounds, course,
        fun others isCourse => isCourse.unique course, atMost, ?_,
        repeated_eq_foldl _ _⟩
    omega
  · intro start startLength pass
    obtain ⟨keeps, shrinks⟩ :=
      run_shrinks sentinel settings start
        (by rw [startLength]; exact known)
    exact
      ⟨keeps, fun feasible fixes =>
        shrinks (not_stops_iff.mpr ⟨feasible, fixes⟩)⟩

/-- A program whose rows fix one variable after the other, in the order of its rows. -/
def unravellingProgram : Program ℚ :=
  {
    objective := [1, 1]
    lower := [0, 0]
    upper := [10, 10]
    integral := none
    blocks := []
    rows :=
      [
        { left := 3, right := 3, vars := [0, 1], coefs := [1, 1] },
        { left := 2, right := 2, vars := [0], coefs := [1] }
      ]
  }

/-- It takes as many passes as there can be: one for each variable and a last one. -/
theorem unravellingProgram_terminates :
    let store := Store.ofProgram unravellingProgram
    let bounds := Bounds.ofStored store.lower store.upper
    ∃ passes,
      Course store Session.standardSentinel Settings.standard bounds passes ∧
        passes.length = store.variableCount + 1 ∧
        (propagate store Session.standardSentinel Settings.standard
          bounds).bounds.lower = [2, 1] := by
  intro store bounds
  have loaded :
      Store.load Session.standardSentinel unravellingProgram = .ok store :=
    Store.load_eq_ok.mpr ⟨by decide +kernel, rfl⟩
  obtain ⟨⟨passes, course, _⟩, _⟩ :=
    propagate_terminates Session.standardSentinel Settings.standard bounds
      loaded (by decide +kernel)
  have isPasses :
      passes =
        propagatePasses store Session.standardSentinel Settings.standard
          bounds :=
    course.unique
      (Course.of_passes (by decide +kernel) (by decide +kernel))
  refine ⟨passes, course, ?_, by decide +kernel⟩
  rw [isPasses]
  decide +kernel

end RowPass

end SdpRelay
