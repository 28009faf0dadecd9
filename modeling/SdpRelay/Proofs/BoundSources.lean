import SdpRelay.Proofs.CheckedRows
import SdpRelay.Proofs.KeptRowPositions

namespace SdpRelay

/-!
# Where working bounds come from

A run of presolve notes for every bound the row and the side that it was taken from.
`Bounds.Traced` says what these notes are worth, whatever the arithmetic is like: a
bound without a note is the one to start from, and a bound with a note is the one
that the row implies on its variable, the only significant one in the row that may be
free.  This stays true when later visits fix more variables, because the others in
the row were fixed already, and it is why two variables never name the same row and
why no named row is among the kept ones.
-/

/-- One of the two bounds of a variable. -/
inductive BoundEnd where
  | lower
  | upper
  deriving Repr, DecidableEq

/-- A side of a row. -/
def LinearRow.side
    {α : Type}
    (row : LinearRow α) :
    Side → α
  | .left => row.left
  | .right => row.right

/-- What a side without a constraint is read as. -/
def Side.unbounded
    {α : Type}
    [Scalar α]
    (sentinel : α) :
    Side → α
  | .left => -sentinel
  | .right => sentinel

namespace BoundEnd

/-- The side by which a row bounds an end of a variable with a given coefficient. -/
def side
    {α : Type}
    [Scalar α]
    (coef : α) :
    BoundEnd → Side
  | .lower => if coef < 0 then .right else .left
  | .upper => if 0 < coef then .right else .left

/-- The bound that a row `left ≤ coef * y ≤ right` implies. -/
def implied
    {α : Type}
    [Scalar α]
    (sentinel coef left right : α) :
    BoundEnd → α
  | .lower => Bounds.impliedLower sentinel coef left right
  | .upper => Bounds.impliedUpper sentinel coef left right

/-- A bound is better than another one by more than `epsilon`. -/
def Improves
    {α : Type}
    [Scalar α]
    (epsilon old new : α) :
    BoundEnd → Prop
  | .lower => old + epsilon < new
  | .upper => new < old - epsilon

instance
    {α : Type}
    [Scalar α]
    (epsilon old new : α)
    (place : BoundEnd) :
    Decidable (place.Improves epsilon old new) :=
  match place with
  | .lower => inferInstanceAs (Decidable (_ < _))
  | .upper => inferInstanceAs (Decidable (_ < _))

end BoundEnd

private theorem getD_set
    {β : Type}
    {index : Nat}
    (items : List β)
    (inside : index < items.length)
    (value default : β)
    (other : Nat) :
    (items.set index value).getD other default =
      if other = index then value else items.getD other default := by
  by_cases isIndex : other = index
  · subst other
    simp [List.getD_eq_getElem?_getD, inside]
  · simp [isIndex, List.getD_eq_getElem?_getD,
      List.getElem?_set_ne (Ne.symm isIndex)]

namespace Bounds

variable {α : Type} [Scalar α]

/-- One of the bounds of a variable. -/
def valueAt
    (bounds : Bounds α)
    (var : Nat) :
    BoundEnd → α
  | .lower => bounds.lowerAt var
  | .upper => bounds.upperAt var

omit [Scalar α] in
/-- Where one of the bounds of a variable comes from. -/
def sourceAt
    (bounds : Bounds α)
    (var : Nat) :
    BoundEnd → BoundSource
  | .lower => bounds.lowerSource.getD var .stored
  | .upper => bounds.upperSource.getD var .stored

omit [Scalar α] in
/-- Before presolve, no bound comes from a row. -/
theorem sourceAt_ofStored
    (lower upper : List α)
    (var : Nat)
    (place : BoundEnd) :
    (ofStored lower upper).sourceAt var place = .stored := by
  cases place <;>
    simp [sourceAt, ofStored, List.getD_eq_getElem?_getD,
      List.getElem?_replicate] <;>
    split <;> rfl

section Tighten

variable
  {bounds : Bounds α}
  {size var : Nat}
  (sized : bounds.Sized size)
  (inside : var < size)
  (sentinel epsilon : α)
  (row : Nat)
  (coef left right : α)

include sized inside

/-- A bound after tightening: the implied one if it is better. -/
theorem valueAt_tighten (place : BoundEnd) :
    (bounds.tighten sentinel epsilon row var coef left right).1.valueAt
        var place =
      if place.Improves epsilon (bounds.valueAt var place)
          (place.implied sentinel coef left right) then
        place.implied sentinel coef left right
      else
        bounds.valueAt var place := by
  cases place with
  | lower =>
      exact
        lowerAt_tighten bounds sentinel epsilon row var coef left right
          (by rw [sized.lower]; exact inside)
  | upper =>
      exact
        upperAt_tighten bounds sentinel epsilon row var coef left right
          (by rw [sized.upper]; exact inside)

/-- The source of a bound after tightening: the row if its bound is better. -/
private theorem sourceAt_tighten
    (other : Nat)
    (place : BoundEnd) :
    (bounds.tighten sentinel epsilon row var coef left right).1.sourceAt
        other place =
      if other = var ∧
          place.Improves epsilon (bounds.valueAt var place)
            (place.implied sentinel coef left right) then
        .row row (place.side coef)
      else
        bounds.sourceAt other place := by
  cases place with
  | lower =>
      have dropKeepsSource
          (raised : Bounds α) :
          (raised.dropUpper sentinel epsilon row var coef left
              right).1.lowerSource =
            raised.lowerSource := by
        simp only [dropUpper]
        split <;> rfl
      simp only [sourceAt, tighten, dropKeepsSource, raiseLower, valueAt,
        BoundEnd.Improves, BoundEnd.implied]
      by_cases improves :
          bounds.lowerAt var + epsilon <
            impliedLower sentinel coef left right
      · simp only [improves, ↓reduceIte, and_true, setLower]
        exact getD_set _ (by rw [sized.lowerSource]; exact inside) _ _ _
      · simp only [improves, ↓reduceIte, and_false]
  | upper =>
      have raiseKeepsUpper :
          (bounds.raiseLower sentinel epsilon row var coef left
              right).1.upper =
            bounds.upper := by
        simp only [raiseLower]
        split <;> rfl
      have raiseKeepsSource :
          (bounds.raiseLower sentinel epsilon row var coef left
              right).1.upperSource =
            bounds.upperSource := by
        simp only [raiseLower]
        split <;> rfl
      simp only [sourceAt, tighten, dropUpper, upperAt, raiseKeepsUpper,
        valueAt, BoundEnd.Improves, BoundEnd.implied]
      by_cases improves :
          impliedUpper sentinel coef left right <
            bounds.upper.getD var 0 - epsilon
      · simp only [improves, ↓reduceIte, and_true, setUpper,
          raiseKeepsSource]
        exact getD_set _ (by rw [sized.upperSource]; exact inside) _ _ _
      · simp only [improves, ↓reduceIte, and_false, raiseKeepsSource]

/--
What a row with one free variable does to any bound: it leaves the bound and its
source alone, or it is a bound of that variable that gets better and is noted.
-/
theorem tighten_cases
    (other : Nat)
    (place : BoundEnd) :
    let after := (bounds.tighten sentinel epsilon row var coef left right).1
    let implied := place.implied sentinel coef left right
    after.valueAt other place = bounds.valueAt other place ∧
        after.sourceAt other place = bounds.sourceAt other place ∨
      other = var ∧
        after.valueAt other place = implied ∧
        after.sourceAt other place = .row row (place.side coef) ∧
        place.Improves epsilon (bounds.valueAt other place) implied := by
  intro after implied
  have source :=
    sourceAt_tighten sized inside sentinel epsilon row coef left right
      other place
  by_cases isVar : other = var
  · subst other
    have value :=
      valueAt_tighten sized inside sentinel epsilon row coef left right place
    by_cases improves :
        place.Improves epsilon (bounds.valueAt var place) implied
    · rw [if_pos improves] at value
      rw [if_pos ⟨rfl, improves⟩] at source
      exact .inr ⟨rfl, value, source, improves⟩
    · rw [if_neg improves] at value
      rw [if_neg fun both => improves both.2] at source
      exact .inl ⟨value, source⟩
  · rw [if_neg fun both => isVar both.1] at source
    have same :=
      bounds.tighten_sameExcept sentinel epsilon row var coef left right
    refine .inl ⟨?_, source⟩
    cases place with
    | lower => exact same.lower other isVar
    | upper => exact same.upper other isVar

end Tighten

end Bounds

namespace RowPass

section Visits

variable
  {α : Type}
  [Scalar α]
  {sentinel : α}
  {settings : Settings α}
  {bounds : Bounds α}
  {row : LinearRow α}
  {var : Nat}
  {coef : α}

/-- The significant terms of a row on variables other than a given one. -/
def otherTerms
    (settings : Settings α)
    (row : LinearRow α)
    (var : Nat) :
    List (Nat × α) :=
  (significantTerms settings.epsilon row).filter fun term =>
    !decide (term.1 = var)

/--
A variable stands once in a row, as far as significant terms go, and the variables of
the other ones are fixed.
-/
structure OnlyFree
    (settings : Settings α)
    (bounds : Bounds α)
    (row : LinearRow α)
    (var : Nat)
    (coef : α) : Prop where
  once :
    ((significantTerms settings.epsilon row).filter fun term =>
      decide (term.1 = var)) = [(var, coef)]
  others :
    ∀ term ∈ otherTerms settings row var,
      bounds.Fixed settings.epsilon term.1

/-- A side of a row without the terms on variables other than a given one. -/
def sideFor
    (sentinel : α)
    (settings : Settings α)
    (bounds : Bounds α)
    (row : LinearRow α)
    (var : Nat)
    (side : Side) :
    α :=
  shiftSide sentinel (side.unbounded sentinel) (row.side side)
    (contribution bounds (otherTerms settings row var))

theorem contribution_congr
    {other : Bounds α}
    {terms : List (Nat × α)}
    (agree : ∀ term ∈ terms, other.lowerAt term.1 = bounds.lowerAt term.1) :
    contribution other terms = contribution bounds terms := by
  refine List.foldl_ext _ _ _ ?_
  intro total term member
  simp only [agree term member]

namespace OnlyFree

/-- The term on the variable is a significant one of the row. -/
theorem mem_significantTerms
    (onlyFree : OnlyFree settings bounds row var coef) :
    (var, coef) ∈ significantTerms settings.epsilon row := by
  have member :
      (var, coef) ∈
        (significantTerms settings.epsilon row).filter fun term =>
          decide (term.1 = var) := by
    simp [onlyFree.once]
  exact (List.mem_filter.mp member).1

/-- A free variable of the row can only be that one. -/
theorem eq_of_mem_openTerms
    {term : Nat × α}
    (onlyFree : OnlyFree settings bounds row var coef)
    (member : term ∈ openTerms settings bounds row) :
    term.1 = var := by
  by_contra isOther
  simp only [openTerms, freeTerms, List.mem_filter] at member
  obtain ⟨significant, isFree⟩ := member
  have isFixed :=
    onlyFree.others term
      (List.mem_filter.mpr ⟨significant, by simpa using isOther⟩)
  simp [isFixed] at isFree

/-- So the row has at most one free term. -/
theorem length_openTerms_le
    (onlyFree : OnlyFree settings bounds row var coef) :
    (openTerms settings bounds row).length ≤ 1 := by
  have onThat :
      openTerms settings bounds row =
        (openTerms settings bounds row).filter fun term =>
          decide (term.1 = var) := by
    rw [eq_comm, List.filter_eq_self]
    intro term member
    simpa using onlyFree.eq_of_mem_openTerms member
  have atMost :
      ((openTerms settings bounds row).filter fun term =>
          decide (term.1 = var)).length ≤
        ((significantTerms settings.epsilon row).filter fun term =>
          decide (term.1 = var)).length :=
    (List.filter_sublist.filter _).length_le
  rw [onThat]
  rwa [onlyFree.once, List.length_singleton] at atMost

/-- The only free variable of a visit is the only one that may be free. -/
theorem of_openTerms
    (oneTerm : openTerms settings bounds row = [(var, coef)]) :
    OnlyFree settings bounds row var coef ∧
      fixedTerms bounds settings.epsilon
          (significantTerms settings.epsilon row) =
        otherTerms settings row var := by
  have isOpen : (var, coef) ∈ openTerms settings bounds row := by
    simp [oneTerm]
  have wasFree := (mem_openTerms isOpen).2.2
  have fixed_iff :
      ∀ term ∈ significantTerms settings.epsilon row,
        (bounds.Fixed settings.epsilon term.1 ↔ ¬ term.1 = var) := by
    intro term significant
    constructor
    · intro isFixed isVar
      exact wasFree (isVar ▸ isFixed)
    · intro isOther
      by_contra isFree
      have inOpen : term ∈ openTerms settings bounds row :=
        List.mem_filter.mpr ⟨significant, by simpa using isFree⟩
      rw [oneTerm, List.mem_singleton] at inOpen
      exact isOther (congrArg Prod.fst inOpen)
  refine ⟨⟨?_, ?_⟩, ?_⟩
  · rw [← oneTerm, openTerms, freeTerms]
    refine List.filter_congr ?_
    intro term significant
    simp [fixed_iff term significant]
  · intro term member
    obtain ⟨significant, isOther⟩ := List.mem_filter.mp member
    exact (fixed_iff term significant).mpr (by simpa using isOther)
  · refine List.filter_congr ?_
    intro term significant
    simp [fixed_iff term significant]

/-- Fixing more variables changes nothing about it. -/
theorem mono
    {after : Bounds α}
    (onlyFree : OnlyFree settings bounds row var coef)
    (keeps : Bounds.KeepsFixed settings.epsilon bounds after) :
    OnlyFree settings after row var coef where
  once := onlyFree.once
  others term member := keeps.fixed (onlyFree.others term member)

theorem sideFor_eq
    {after : Bounds α}
    (onlyFree : OnlyFree settings bounds row var coef)
    (keeps : Bounds.KeepsFixed settings.epsilon bounds after)
    (sentinel : α)
    (side : Side) :
    sideFor sentinel settings after row var side =
      sideFor sentinel settings bounds row var side := by
  unfold sideFor
  rw [contribution_congr fun term member =>
    keeps.lower term.1 (onlyFree.others term member)]

end OnlyFree

/-- At a visit with one free variable, the sides without the fixed terms are those for it. -/
theorem openSides_of_single
    (oneTerm : openTerms settings bounds row = [(var, coef)])
    (sentinel : α) :
    openLeft sentinel settings bounds row =
        sideFor sentinel settings bounds row var .left ∧
      openRight sentinel settings bounds row =
        sideFor sentinel settings bounds row var .right := by
  have sameTerms := (OnlyFree.of_openTerms oneTerm).2
  unfold openLeft openRight settledPart sideFor
  rw [sameTerms]
  exact ⟨rfl, rfl⟩

/-- A bound is the one that a side of a row implies on its only free variable. -/
structure ImpliedBy
    (sentinel : α)
    (settings : Settings α)
    (bounds : Bounds α)
    (row : LinearRow α)
    (var : Nat)
    (place : BoundEnd)
    (side : Side)
    (coef : α) : Prop where
  onlyFree : OnlyFree settings bounds row var coef
  side_eq : side = place.side coef
  value :
    bounds.valueAt var place =
      place.implied sentinel coef
        (sideFor sentinel settings bounds row var .left)
        (sideFor sentinel settings bounds row var .right)

/-- An implied bound stays implied while nothing happens to it and to what is fixed. -/
theorem ImpliedBy.mono
    {after : Bounds α}
    {place : BoundEnd}
    {side : Side}
    (implied : ImpliedBy sentinel settings bounds row var place side coef)
    (keeps : Bounds.KeepsFixed settings.epsilon bounds after)
    (sameValue : after.valueAt var place = bounds.valueAt var place) :
    ImpliedBy sentinel settings after row var place side coef where
  onlyFree := implied.onlyFree.mono keeps
  side_eq := implied.side_eq
  value := by
    rw [implied.onlyFree.sideFor_eq keeps, implied.onlyFree.sideFor_eq keeps,
      sameValue]
    exact implied.value

/-- The bounds after a visit: the same ones, or those tightened by a row with one free term. -/
theorem visitRow_bounds
    (pass : RowPass α)
    (sentinel : α)
    (settings : Settings α)
    (integral : List Bool)
    (index : Nat)
    (row : LinearRow α) :
    (pass.visitRow sentinel settings integral index row).bounds =
        pass.bounds ∨
      ∃ var coef,
        openTerms settings pass.bounds row = [(var, coef)] ∧
          (pass.visitRow sentinel settings integral index row).bounds =
            (pass.bounds.tighten sentinel settings.epsilon index var coef
              (sideFor sentinel settings pass.bounds row var .left)
              (sideFor sentinel settings pass.bounds row var .right)).1 := by
  rcases openTerms_cases settings pass.bounds row with
    noTerm | ⟨var, coef, oneTerm⟩ | severalTerms
  · exact .inl (by rw [visitRow_of_none sentinel integral index noTerm]; rfl)
  · obtain ⟨sameLeft, sameRight⟩ := openSides_of_single oneTerm sentinel
    refine .inr ⟨var, coef, oneTerm, ?_⟩
    rw [visitRow_of_single sentinel integral index oneTerm, sameLeft,
      sameRight]
    rfl
  · exact
      .inl
        (by rw [visitRow_of_several sentinel integral index severalTerms]; rfl)

end Visits

end RowPass

namespace Bounds

open RowPass

variable {α : Type} [Scalar α]

/--
What the sources of bounds say about them, and about the bounds to start from.  An
untouched bound is the one at the start, a noted bound is the one that the row
implies, and no two variables name the same row.
-/
structure Traced
    (rows : List (LinearRow α))
    (sentinel : α)
    (settings : Settings α)
    (bounds start : Bounds α) : Prop where
  untouched :
    ∀ var place, bounds.sourceAt var place = .stored →
      bounds.valueAt var place = start.valueAt var place
  noted :
    ∀ var place index side,
      bounds.sourceAt var place = .row index side →
      ∃ row coef,
        rows[index]? = some row ∧
          ImpliedBy sentinel settings bounds row var place side coef
  owned :
    ∀ first second firstPlace secondPlace index firstSide secondSide,
      bounds.sourceAt first firstPlace = .row index firstSide →
      bounds.sourceAt second secondPlace = .row index secondSide →
      first = second

variable
  {rows : List (LinearRow α)}
  {sentinel : α}
  {settings : Settings α}
  {start bounds : Bounds α}

/-- Bounds without notes are traced to themselves. -/
theorem Traced.ofStored
    (rows : List (LinearRow α))
    (sentinel : α)
    (settings : Settings α)
    (lower upper : List α) :
    (ofStored lower upper).Traced rows sentinel settings
      (ofStored lower upper) where
  untouched _ _ _ := rfl
  noted var place index side isNoted := by
    rw [sourceAt_ofStored] at isNoted
    cases isNoted
  owned first _ firstPlace _ index firstSide _ isNoted := by
    rw [sourceAt_ofStored] at isNoted
    cases isNoted

/-- A row with one free variable keeps the bounds traced. -/
theorem Traced.tighten
    {size index var : Nat}
    {row : LinearRow α}
    {coef : α}
    (traced : bounds.Traced rows sentinel settings start)
    (sized : bounds.Sized size)
    (inside : var < size)
    (stored : rows[index]? = some row)
    (oneTerm : openTerms settings bounds row = [(var, coef)]) :
    (bounds.tighten sentinel settings.epsilon index var coef
        (sideFor sentinel settings bounds row var .left)
        (sideFor sentinel settings bounds row var .right)).1.Traced
      rows sentinel settings start := by
  have isOpen : (var, coef) ∈ openTerms settings bounds row := by
    simp [oneTerm]
  have keeps :=
    (bounds.tighten_sameExcept sentinel settings.epsilon index var coef
      (sideFor sentinel settings bounds row var .left)
      (sideFor sentinel settings bounds row var .right)).keepsFixed
      (mem_openTerms isOpen).2.2
  have cases :=
    tighten_cases sized inside sentinel settings.epsilon index coef
      (sideFor sentinel settings bounds row var .left)
      (sideFor sentinel settings bounds row var .right)
  have onlyFree := (OnlyFree.of_openTerms oneTerm).1
  -- who named the visited row before has it as the only free variable
  have namedBefore
      (other : Nat)
      (place : BoundEnd)
      (side : Side)
      (isNoted : bounds.sourceAt other place = .row index side) :
      other = var := by
    obtain ⟨sameRow, _, storedAt, implied⟩ :=
      traced.noted other place index side isNoted
    rw [stored, Option.some.injEq] at storedAt
    subst sameRow
    exact (implied.onlyFree.eq_of_mem_openTerms isOpen).symm
  refine ⟨?_, ?_, ?_⟩
  · intro other place isStored
    rcases cases other place with ⟨sameValue, sameSource⟩ | ⟨_, _, source, _⟩
    · rw [sameSource] at isStored
      exact sameValue.trans (traced.untouched other place isStored)
    · rw [source] at isStored
      cases isStored
  · intro other place named side isNoted
    rcases cases other place with
      ⟨sameValue, sameSource⟩ | ⟨rfl, value, source, _⟩
    · rw [sameSource] at isNoted
      obtain ⟨earlier, earlierCoef, storedAt, implied⟩ :=
        traced.noted other place named side isNoted
      exact ⟨earlier, earlierCoef, storedAt, implied.mono keeps sameValue⟩
    · rw [source, BoundSource.row.injEq] at isNoted
      obtain ⟨rfl, rfl⟩ := isNoted
      refine ⟨row, coef, stored, onlyFree.mono keeps, rfl, ?_⟩
      rw [onlyFree.sideFor_eq keeps, onlyFree.sideFor_eq keeps]
      exact value
  · intro first second firstPlace secondPlace named firstSide secondSide
      isFirst isSecond
    rcases cases first firstPlace with
      ⟨_, firstSame⟩ | ⟨rfl, _, firstSource, _⟩
    · rw [firstSame] at isFirst
      rcases cases second secondPlace with
        ⟨_, secondSame⟩ | ⟨rfl, _, secondSource, _⟩
      · rw [secondSame] at isSecond
        exact
          traced.owned first second firstPlace secondPlace named firstSide
            secondSide isFirst isSecond
      · rw [secondSource, BoundSource.row.injEq] at isSecond
        obtain ⟨rfl, _⟩ := isSecond
        exact namedBefore first firstPlace firstSide isFirst
    · rcases cases second secondPlace with
        ⟨_, secondSame⟩ | ⟨rfl, _, _, _⟩
      · rw [firstSource, BoundSource.row.injEq] at isFirst
        obtain ⟨rfl, _⟩ := isFirst
        rw [secondSame] at isSecond
        exact (namedBefore second secondPlace secondSide isSecond).symm
      · rfl

end Bounds

namespace RowPass

variable {α : Type} [Scalar α]

variable
  {rows : List (LinearRow α)}
  {store : Store α}
  {sentinel : α}
  {settings : Settings α}
  {size : Nat}
  {start : Bounds α}

/--
A visit keeps the bounds traced.  A name that is new is that of the visited row, which
then has one free term.
-/
theorem visitRow_traced
    {pass : RowPass α}
    {row : LinearRow α}
    (integral : List Bool)
    {index : Nat}
    (sized : pass.bounds.Sized size)
    (traced : pass.bounds.Traced rows sentinel settings start)
    (stored : rows[index]? = some row)
    (inRange : ∀ var ∈ row.vars, var < size) :
    let next := pass.visitRow sentinel settings integral index row
    next.bounds.Sized size ∧
      next.bounds.Traced rows sentinel settings start ∧
      ∀ var place named side,
        next.bounds.sourceAt var place = .row named side →
        pass.bounds.sourceAt var place = .row named side ∨
          named = index ∧ (openTerms settings pass.bounds row).length = 1 := by
  intro next
  rcases visitRow_bounds pass sentinel settings integral index row with
    same | ⟨var, coef, oneTerm, tightened⟩
  · rw [show next.bounds = pass.bounds from same]
    exact ⟨sized, traced, fun _ _ _ _ isNoted => .inl isNoted⟩
  · have isOpen : (var, coef) ∈ openTerms settings pass.bounds row := by
      simp [oneTerm]
    have inside :=
      inRange var (List.of_mem_zip (mem_openTerms isOpen).1).1
    rw [show next.bounds = _ from tightened]
    refine
      ⟨(Checked.tightenBounds_eq sized inside _ _ _ _ _ _).2,
        traced.tighten sized inside stored oneTerm, ?_⟩
    intro other place named side isNoted
    rcases
        Bounds.tighten_cases sized inside sentinel settings.epsilon index coef
          (sideFor sentinel settings pass.bounds row var .left)
          (sideFor sentinel settings pass.bounds row var .right)
          other place with
      ⟨_, sameSource⟩ | ⟨_, _, source, _⟩
    · exact .inl (sameSource.symm.trans isNoted)
    · rw [source, BoundSource.row.injEq] at isNoted
      exact .inr ⟨isNoted.1.symm, by rw [oneTerm]; rfl⟩

/--
What is known in the middle of a pass, after some of the stored rows have been seen:
the bounds are traced, and no row that a bound names is kept.
-/
structure TracedPass
    (rows : List (LinearRow α))
    (sentinel : α)
    (settings : Settings α)
    (size : Nat)
    (start : Bounds α)
    (seen : Nat)
    (pass : RowPass α) : Prop where
  sized : pass.bounds.Sized size
  traced : pass.bounds.Traced rows sentinel settings start
  count : pass.kept.positions.length = seen
  unkept :
    ∀ var place index side,
      pass.bounds.sourceAt var place = .row index side →
      ∀ position, pass.kept.positions[index]? ≠ some (some position)

/-- A row that a visit keeps has several free terms, so no bound names it. -/
theorem TracedPass.visitRow
    {seen : Nat}
    {pass : RowPass α}
    {row : LinearRow α}
    (tracedPass : TracedPass rows sentinel settings size start seen pass)
    (integral : List Bool)
    (stored : rows[seen]? = some row)
    (inRange : ∀ var ∈ row.vars, var < size) :
    TracedPass rows sentinel settings size start (seen + 1)
      (pass.visitRow sentinel settings integral seen row) := by
  obtain ⟨sized, traced, names⟩ :=
    visitRow_traced integral tracedPass.sized tracedPass.traced stored inRange
  have positions :
      (pass.visitRow sentinel settings integral seen row).kept.positions =
        pass.kept.positions ++
          [(keptRow? sentinel settings integral pass.bounds row).map fun _ =>
            pass.kept.table.rowCount] := by
    rw [visitRow_kept]
    cases keptRow? sentinel settings integral pass.bounds row <;> rfl
  have count := tracedPass.count
  refine ⟨sized, traced, by simp [positions, count], ?_⟩
  intro var place index side isNoted position
  rw [positions]
  rcases Nat.lt_trichotomy index seen with earlier | rfl | later
  · rw [List.getElem?_append_left (by omega)]
    rcases names var place index side isNoted with namedBefore | ⟨isSeen, _⟩
    · exact tracedPass.unkept var place index side namedBefore position
    · omega
  · have fewOpen : (openTerms settings pass.bounds row).length ≤ 1 := by
      rcases names var place index side isNoted with
        namedBefore | ⟨_, oneOpen⟩
      · obtain ⟨sameRow, _, storedAt, implied⟩ :=
          tracedPass.traced.noted var place index side namedBefore
        rw [stored, Option.some.injEq] at storedAt
        subst sameRow
        exact implied.onlyFree.length_openTerms_le
      · exact oneOpen.le
    rw [List.getElem?_append_right count.le, count, Nat.sub_self]
    cases isKept : keptRow? sentinel settings integral pass.bounds row with
    | none => simp
    | some kept =>
        have several := (free_of_keptRow? isKept).1
        omega
  · rw [List.getElem?_eq_none (by simp; omega)]
    simp

/-- A pass over traced bounds, complete or not, leaves traced bounds and keeps no named row. -/
theorem run_traced
    {bounds : Bounds α}
    (sized : bounds.Sized size)
    (traced : bounds.Traced store.rows.toRows sentinel settings start)
    (inRange :
      ∀ row ∈ store.rows.toRows, ∀ var ∈ row.vars, var < size) :
    ∃ seen,
      TracedPass store.rows.toRows sentinel settings size start seen
        (run store sentinel settings bounds) := by
  obtain ⟨visited, isPrefix, reached, _⟩ :=
    run_induction
      (motive := fun seen pass =>
        seen <+: store.rows.toRows →
          TracedPass store.rows.toRows sentinel settings size start
            seen.length pass)
      (fun _ _ => True)
      (fun seen pass row member _ earlier isPrefix => by
        obtain ⟨rest, shape⟩ := isPrefix
        have stored : store.rows.toRows[seen.length]? = some row := by
          simp [← shape]
        rw [List.length_append]
        exact
          (earlier ⟨row :: rest, by simpa using shape⟩).visitRow
            store.integral stored (inRange row member))
      (fun _ _ => trivial)
      (fun _ =>
        {
          sized := sized
          traced := traced
          count := rfl
          unkept := by simp [atStart, KeptRows.empty]
        })
  exact ⟨visited.length, reached isPrefix⟩

/--
A run from traced bounds, with or without a contradiction, leaves traced bounds and
keeps no named row.
-/
theorem propagate_traced
    {bounds : Bounds α}
    (sized : bounds.Sized size)
    (traced : bounds.Traced store.rows.toRows sentinel settings start)
    (inRange :
      ∀ row ∈ store.rows.toRows, ∀ var ∈ row.vars, var < size) :
    ∃ seen,
      TracedPass store.rows.toRows sentinel settings size start seen
        (propagate store sentinel settings bounds) := by
  obtain ⟨last, ⟨lastSized, lastTraced⟩, _, _, _, isLast⟩ :=
    repeated_run
      (motive := fun bounds : Bounds α =>
        bounds.Sized size ∧
          bounds.Traced store.rows.toRows sentinel settings start)
      (fun _ _ => True)
      (atStart bounds)
      (by
        rw [show (atStart bounds).bounds = bounds from rfl, sized.lower]
        exact inRange)
      (fun _ ⟨sized, traced⟩ _ _ => by
        obtain ⟨_, tracedPass⟩ := run_traced sized traced inRange
        exact ⟨tracedPass.sized, tracedPass.traced⟩)
      (fun _ _ => trivial)
      (Nat.lt_succ_of_le (bounds.freeCount_le settings.epsilon))
      ⟨sized, traced⟩
  obtain ⟨seen, tracedPass⟩ := run_traced lastSized lastTraced inRange
  change LastPass _ _ _ _ (propagate store sentinel settings bounds) at isLast
  refine ⟨seen, ?_⟩
  constructor
  · rw [isLast.bounds]
    exact tracedPass.sized
  · rw [isLast.bounds]
    exact tracedPass.traced
  · rw [isLast.kept]
    exact tracedPass.count
  · rw [isLast.bounds, isLast.kept]
    exact tracedPass.unkept

end RowPass

end SdpRelay
