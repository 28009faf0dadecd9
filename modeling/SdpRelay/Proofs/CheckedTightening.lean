import Mathlib
import SdpRelay.Presolve.Coefficients
import SdpRelay.Proofs.CheckedAccess

namespace SdpRelay

/-!
# Coefficient tightening with checked access

A row lies in two lists, one of variables and one of coefficients.  Its terms are
visited from the first place on, and a term that is dropped is overwritten by the
last one, which ends the row one place earlier.  With checked access, every place
is inside the row, every variable inside the box, and the row never ends before
its first place; what is left of the row are the terms that `RowBox.tighten`
leaves.
-/

variable {α : Type}

/-- The lists of a box have one item for each of a number of variables. -/
structure RowBox.Sized
    (box : RowBox α)
    (size : Nat) : Prop where
  lower : box.lower.length = size
  upper : box.upper.length = size
  integral : box.integral.length = size

/-- A box of one variable. -/
def RowBox.ofOne
    (box : RowBox α)
    (lower upper : α)
    (integral : Bool) :
    RowBox α :=
  { box with lower := [lower], upper := [upper], integral := [integral] }

namespace Checked

variable [Scalar α]

/-- What the first look at the terms of a row gathers. -/
structure RowScan (α : Type) where
  lowest : Activity α
  highest : Activity α
  /-- The largest magnitude of a coefficient of an integral variable. -/
  largest : α
  someIntegral : Bool

/-- Look at one term. -/
def scanTerm
    (box : RowBox α)
    (scan : RowScan α)
    (term : Nat × α) :
    Checked (RowScan α) := do
  let integral ← item box.integral term.1
  let lower ← item box.lower term.1
  let upper ← item box.upper term.1
  return {
    lowest :=
      scan.lowest.add box.sentinel term.2 (if 0 < term.2 then lower else upper)
    highest :=
      scan.highest.add box.sentinel term.2 (if 0 < term.2 then upper else lower)
    largest :=
      if integral then
        Scalar.larger scan.largest (Scalar.abs term.2)
      else
        scan.largest
    someIntegral := scan.someIntegral || integral
  }

/-- A row in two lists, of which the places from `place` up to `stop` are still to be visited. -/
structure RowLists (α : Type) where
  vars : List Nat
  coefs : List α
  place : Nat
  stop : Nat
  progress : RowProgress α

omit [Scalar α] in
/-- Overwrite the term at the place of a row by the last one, before which the row then ends. -/
def dropPlace
    (row : RowLists α)
    (next : RowProgress α) :
    Checked (RowLists α) := do
  let stop ← minus row.stop 1
  let coefs ← replace row.coefs row.place (← item row.coefs stop)
  let vars ← replace row.vars row.place (← item row.vars stop)
  return {
    vars := vars
    coefs := coefs
    place := row.place
    stop := stop
    progress := next
  }

/-- Visit the term at the place of a row. -/
def visitPlace
    (box : RowBox α)
    (leftIsFinite rightIsFinite : Bool)
    (row : RowLists α) :
    Checked (RowLists α) := do
  let var ← item row.vars row.place
  let coef ← item row.coefs row.place
  let integral ← item box.integral var
  let lower ← item box.lower var
  let upper ← item box.upper var
  match row.progress.visit (box.ofOne lower upper integral)
      leftIsFinite rightIsFinite 0 coef with
  | .keep =>
      return { row with place := row.place + 1 }
  | .replace next reduced =>
      let coefs ← replace row.coefs row.place reduced
      return { row with coefs := coefs, place := row.place + 1, progress := next }
  | .drop next => dropPlace row next

/-- Visit terms until none is left, at most a given number. -/
def visitPlaces
    (box : RowBox α)
    (leftIsFinite rightIsFinite : Bool) :
    Nat → RowLists α → Checked (RowLists α)
  | 0, row => return row
  | remaining + 1, row => do
      if row.place < row.stop then
        visitPlaces box leftIsFinite rightIsFinite remaining
          (← visitPlace box leftIsFinite rightIsFinite row)
      else
        return row

/-- A tightened row in two lists, of which only the places before `stop` count. -/
structure TightenedLists (α : Type) where
  vars : List Nat
  coefs : List α
  stop : Nat
  left : α
  right : α
  leftRedundant : Bool
  rightRedundant : Bool
  changes : Nat

/-- Tighten the coefficients of a row in two lists. -/
def tighten
    (box : RowBox α)
    (vars : List Nat)
    (coefs : List α)
    (left right : α) :
    Checked (TightenedLists α) := do
  let unchanged : TightenedLists α :=
    {
      vars := vars
      coefs := coefs
      stop := coefs.length
      left := left
      right := right
      leftRedundant := false
      rightRedundant := false
      changes := 0
    }
  if Scalar.abs (left - right) < box.epsilon then
    return unchanged
  else
    let scan ←
      (vars.zip coefs).foldlM (scanTerm box)
        {
          lowest := Activity.zero
          highest := Activity.zero
          largest := 0
          someIntegral := false
        }
    if !scan.someIntegral || (scan.lowest.infinite && scan.highest.infinite) then
      return unchanged
    else
      let start : RowProgress α :=
        {
          left := left
          right := right
          lowest := scan.lowest
          highest := scan.highest
          changes := 0
        }
      let lowestValue := start.lowestValue box.sentinel
      let highestValue := start.highestValue box.sentinel
      let leftIsFinite := RowProgress.leftFinite box.sentinel left
      let rightIsFinite := RowProgress.rightFinite box.sentinel right
      let leftRedundant :=
        !leftIsFinite || decide (left - box.epsilon ≤ lowestValue)
      let rightRedundant :=
        !rightIsFinite || decide (highestValue ≤ right + box.epsilon)
      let flagged :=
        {
          unchanged with
          leftRedundant := leftRedundant
          rightRedundant := rightRedundant
        }
      if leftRedundant && rightRedundant then
        return flagged
      else if lowestValue + scan.largest < left - box.epsilon ∨
          right + box.epsilon < highestValue - scan.largest then
        return flagged
      else
        let final ←
          visitPlaces box leftIsFinite rightIsFinite coefs.length
            {
              vars := vars
              coefs := coefs
              place := 0
              stop := coefs.length
              progress := start
            }
        return {
          flagged with
          vars := final.vars
          coefs := final.coefs
          stop := final.stop
          left := final.progress.left
          right := final.progress.right
          changes := final.progress.changes
        }

/-!
## The first look
-/

section Scan

variable
  {box : RowBox α}
  {size : Nat}

/-- What is known about a variable of a box is read in range. -/
theorem scanTerm_eq
    {term : Nat × α}
    (sized : box.Sized size)
    (inside : term.1 < size)
    (scan : RowScan α) :
    scanTerm box scan term =
      .ok
        {
          lowest :=
            scan.lowest.add box.sentinel term.2
              (if 0 < term.2 then box.lowerAt term.1 else box.upperAt term.1)
          highest :=
            scan.highest.add box.sentinel term.2
              (if 0 < term.2 then box.upperAt term.1 else box.lowerAt term.1)
          largest :=
            if box.isIntegral term.1 then
              Scalar.larger scan.largest (Scalar.abs term.2)
            else
              scan.largest
          someIntegral := scan.someIntegral || box.isIntegral term.1
        } :=
  bind_eq (item_eq (by rw [sized.integral]; exact inside) false) <|
    bind_eq (item_eq (by rw [sized.lower]; exact inside) 0) <|
      bind_eq (item_eq (by rw [sized.upper]; exact inside) 0) rfl

/-- The first look at a row gathers its activities and its integral coefficients. -/
theorem foldlM_scanTerm
    {terms : List (Nat × α)}
    (sized : box.Sized size)
    (inside : ∀ term ∈ terms, term.1 < size)
    (scan : RowScan α) :
    terms.foldlM (scanTerm box) scan =
      .ok
        {
          lowest :=
            terms.foldl
              (fun activity (var, coef) =>
                activity.add box.sentinel coef
                  (if 0 < coef then box.lowerAt var else box.upperAt var))
              scan.lowest
          highest :=
            terms.foldl
              (fun activity (var, coef) =>
                activity.add box.sentinel coef
                  (if 0 < coef then box.upperAt var else box.lowerAt var))
              scan.highest
          largest :=
            terms.foldl
              (fun largest (var, coef) =>
                if box.isIntegral var then
                  Scalar.larger largest (Scalar.abs coef)
                else
                  largest)
              scan.largest
          someIntegral :=
            scan.someIntegral || terms.any fun (var, _) => box.isIntegral var
        } := by
  induction terms generalizing scan with
  | nil =>
      simp
  | cons term rest inductionHypothesis =>
      obtain ⟨here, later⟩ := List.forall_mem_cons.mp inside
      rw [List.foldlM_cons, scanTerm_eq sized here, ok_bind,
        inductionHypothesis later]
      simp only [List.foldl_cons, List.any_cons, Bool.or_assoc]

end Scan

/-!
## Visiting places
-/

section Places

variable
  {box : RowBox α}
  {size : Nat}

/-- A row in two lists: terms that were visited, terms to visit, and what is left behind them. -/
def rowLists
    (before terms after : List (Nat × α))
    (progress : RowProgress α) :
    RowLists α :=
  {
    vars := (before ++ terms ++ after).map Prod.fst
    coefs := (before ++ terms ++ after).map Prod.snd
    place := before.length
    stop := before.length + terms.length
    progress := progress
  }

theorem item_at
    {β : Type}
    (before after : List β)
    (here : β) :
    item (before ++ here :: after) before.length = .ok here := by
  simp [item]

theorem replace_at
    {β : Type}
    (before after : List β)
    (here value : β) :
    replace (before ++ here :: after) before.length value =
      .ok (before ++ value :: after) := by
  rw [replace_eq (by simp)]
  simp

/-- One part of the terms of a row, with the term at its place in front. -/
theorem map_place
    {β γ : Type}
    (view : β → γ)
    (before rest after : List β)
    (term : β) :
    (before ++ term :: rest ++ after).map view =
      before.map view ++ view term :: (rest.map view ++ after.map view) := by
  simp

theorem item_map_at
    {β γ : Type}
    (view : β → γ)
    (before rest after : List β)
    (term : β) :
    item ((before ++ term :: rest ++ after).map view) before.length =
      .ok (view term) := by
  rw [map_place, ← List.length_map view, item_at]

theorem replace_map_at
    {β γ : Type}
    (view : β → γ)
    (before rest after : List β)
    (term : β)
    (value : γ) :
    replace ((before ++ term :: rest ++ after).map view) before.length value =
      .ok (before.map view ++ value :: (rest.map view ++ after.map view)) := by
  rw [map_place, ← List.length_map view, replace_at]

theorem visit_ofOne
    (progress : RowProgress α)
    (box : RowBox α)
    (leftIsFinite rightIsFinite : Bool)
    (var : Nat)
    (coef : α) :
    progress.visit
        (box.ofOne (box.lowerAt var) (box.upperAt var) (box.isIntegral var))
        leftIsFinite rightIsFinite 0 coef =
      progress.visit box leftIsFinite rightIsFinite var coef :=
  rfl

theorem lastToFront_concat
    {β : Type}
    (init : List β)
    (last : β) :
    lastToFront (init ++ [last]) = last :: init := by
  cases init with
  | nil =>
      rfl
  | cons first rest =>
      rw [List.cons_append, lastToFront]
      congr 1
      · simp
      · rw [← List.cons_append, List.dropLast_concat]

theorem lastToFront_perm
    {β : Type}
    (items : List β) :
    (lastToFront items).Perm items := by
  rcases List.eq_nil_or_concat items with rfl | ⟨init, last, rfl⟩
  · exact .nil
  · rw [List.concat_eq_append, lastToFront_concat]
    exact (List.perm_append_singleton last init).symm

/-- The last item is read and put in an earlier place, where it stands in front of the others. -/
theorem overwrite_at
    {β : Type}
    (before rest after : List β)
    (here : β) :
    ∃ last,
      last = (here :: rest).getLast (List.cons_ne_nil here rest) ∧
      item (before ++ here :: (rest ++ after)) (before.length + rest.length) =
        .ok last ∧
      replace (before ++ here :: (rest ++ after)) before.length last =
        .ok (before ++ lastToFront rest ++ last :: after) := by
  refine ⟨_, rfl, ?_, ?_⟩
  · rcases List.eq_nil_or_concat rest with rfl | ⟨init, last, rfl⟩
    · simp [item]
    · simp [item, Nat.add_assoc]
  · rw [replace_at]
    rcases List.eq_nil_or_concat rest with rfl | ⟨init, last, rfl⟩
    · simp [lastToFront]
    · simp [lastToFront_concat]

omit [Scalar α] in
theorem map_lastToFront
    {β γ : Type}
    (view : β → γ)
    (items : List β) :
    (lastToFront items).map view = lastToFront (items.map view) := by
  rcases List.eq_nil_or_concat items with rfl | ⟨init, last, rfl⟩
  · rfl
  · simp [lastToFront_concat]

omit [Scalar α] in
/-- A dropped term leaves the others, the last one of them in front. -/
theorem dropPlace_eq
    (before rest after : List (Nat × α))
    (term : Nat × α)
    (progress next : RowProgress α) :
    dropPlace (rowLists before (term :: rest) after progress) next =
      .ok
        (rowLists before (lastToFront rest)
          ((term :: rest).getLast (List.cons_ne_nil term rest) :: after)
          next) := by
  obtain ⟨lastCoef, isLastCoef, readCoef, wroteCoef⟩ :=
    overwrite_at (before.map Prod.snd) (rest.map Prod.snd)
      (after.map Prod.snd) term.2
  obtain ⟨lastVar, isLastVar, readVar, wroteVar⟩ :=
    overwrite_at (before.map Prod.fst) (rest.map Prod.fst)
      (after.map Prod.fst) term.1
  simp only [List.length_map] at readCoef wroteCoef readVar wroteVar
  have isLast {γ : Type} (view : Nat × α → γ) :
      (view term :: rest.map view).getLast (List.cons_ne_nil _ _) =
        view ((term :: rest).getLast (List.cons_ne_nil term rest)) :=
    List.getLast_map (f := view) (l := term :: rest) (by simp)
  rw [isLast] at isLastCoef isLastVar
  have stop :
      minus (before.length + (term :: rest).length) 1 =
        .ok (before.length + rest.length) :=
    minus_eq (by simp only [List.length_cons]; omega)
  refine bind_eq stop ?_
  simp only [rowLists, map_place]
  refine bind_eq readCoef (bind_eq wroteCoef (bind_eq readVar (bind_eq wroteVar ?_)))
  rw [pure_eq_ok, isLastCoef, isLastVar]
  simp [map_lastToFront, length_lastToFront]

/-- A visit of the first term leaves the lists of a row with one term less to visit. -/
theorem visitPlace_eq
    {term : Nat × α}
    (sized : box.Sized size)
    (inside : term.1 < size)
    (leftIsFinite rightIsFinite : Bool)
    (before rest after : List (Nat × α))
    (progress : RowProgress α) :
    visitPlace box leftIsFinite rightIsFinite
        (rowLists before (term :: rest) after progress) =
      .ok
        (match progress.visit box leftIsFinite rightIsFinite term.1 term.2 with
        | .keep => rowLists (before ++ [term]) rest after progress
        | .replace next reduced =>
            rowLists (before ++ [(term.1, reduced)]) rest after next
        | .drop next =>
            rowLists before (lastToFront rest)
              ((term :: rest).getLast (List.cons_ne_nil term rest) :: after)
              next) := by
  have readVar := item_map_at Prod.fst before rest after term
  have readCoef := item_map_at Prod.snd before rest after term
  refine bind_eq readVar (bind_eq readCoef ?_)
  refine bind_eq (item_eq (by rw [sized.integral]; exact inside) false) ?_
  refine bind_eq (item_eq (by rw [sized.lower]; exact inside) 0) ?_
  refine bind_eq (item_eq (by rw [sized.upper]; exact inside) 0) ?_
  change
    (match progress.visit
        (box.ofOne (box.lowerAt term.1) (box.upperAt term.1)
          (box.isIntegral term.1))
        leftIsFinite rightIsFinite 0 term.2 with
      | .keep => _
      | .replace next reduced => _
      | .drop next => _) = _
  rw [visit_ofOne]
  cases progress.visit box leftIsFinite rightIsFinite term.1 term.2 with
  | keep =>
      simp [rowLists, Nat.add_comm, Nat.add_left_comm]
  | replace next reduced =>
      refine bind_eq (replace_map_at Prod.snd before rest after term reduced) ?_
      simp [rowLists, Nat.add_comm, Nat.add_left_comm]
  | drop next =>
      exact dropPlace_eq before rest after term progress next

/--
Visiting all places leaves the terms that visits of the whole row leave, and behind
them places that do not count any more.
-/
theorem visitPlaces_eq
    {terms : List (Nat × α)}
    {remaining : Nat}
    (sized : box.Sized size)
    (leftIsFinite rightIsFinite : Bool)
    (inside : ∀ term ∈ terms, term.1 < size)
    (enough : terms.length ≤ remaining)
    (before after : List (Nat × α))
    (progress : RowProgress α) :
    ∃ behind,
      visitPlaces box leftIsFinite rightIsFinite remaining
          (rowLists before terms after progress) =
        .ok
          (rowLists
            (before ++
              (RowProgress.visitAll box leftIsFinite rightIsFinite progress
                terms).2)
            [] behind
            (RowProgress.visitAll box leftIsFinite rightIsFinite progress
              terms).1) := by
  induction remaining generalizing before terms after progress with
  | zero =>
      have none : terms = [] := List.length_eq_zero_iff.mp (Nat.le_zero.mp enough)
      subst none
      refine ⟨after, ?_⟩
      simp [visitPlaces, RowProgress.visitAll]
  | succ remaining inductionHypothesis =>
      cases terms with
      | nil =>
          refine ⟨after, ?_⟩
          simp [visitPlaces, RowProgress.visitAll, rowLists]
      | cons term rest =>
          obtain ⟨here, later⟩ := List.forall_mem_cons.mp inside
          have notDone :
              (rowLists before (term :: rest) after progress).place <
                (rowLists before (term :: rest) after progress).stop := by
            simp [rowLists]
          have fewer : rest.length ≤ remaining := Nat.le_of_succ_le_succ enough
          have visited :=
            visitPlace_eq sized here leftIsFinite rightIsFinite before rest after
              progress
          rw [visitPlaces, if_pos notDone, visited, ok_bind,
            RowProgress.visitAll]
          cases progress.visit box leftIsFinite rightIsFinite term.1 term.2 with
          | keep =>
              have next :=
                inductionHypothesis later fewer (before ++ [term]) after progress
              simpa using next
          | replace next reduced =>
              have next :=
                inductionHypothesis later fewer
                  (before ++ [(term.1, reduced)]) after next
              simpa using next
          | drop next =>
              have moved : ∀ term ∈ lastToFront rest, term.1 < size :=
                fun other member =>
                  later other ((lastToFront_perm rest).mem_iff.mp member)
              exact
                inductionHypothesis moved
                  (by rw [length_lastToFront]; exact fewer) before _ next

end Places

/-!
## The tightened row
-/

/-- Two lists hold a tightened row up to their stop. -/
structure TightenedLists.Hold
    (lists : TightenedLists α)
    (row : TightenedRow α) : Prop where
  vars : lists.vars.take lists.stop = row.terms.map Prod.fst
  coefs : lists.coefs.take lists.stop = row.terms.map Prod.snd
  left : lists.left = row.left
  right : lists.right = row.right
  leftRedundant : lists.leftRedundant = row.leftRedundant
  rightRedundant : lists.rightRedundant = row.rightRedundant
  changes : lists.changes = row.changes

/-- Tightening a row over a box of its variables stays in range. -/
theorem tighten_eq
    {box : RowBox α}
    {size : Nat}
    {terms : List (Nat × α)}
    (sized : box.Sized size)
    (inside : ∀ term ∈ terms, term.1 < size)
    (left right : α) :
    ∃ lists,
      tighten box (terms.map Prod.fst) (terms.map Prod.snd) left right =
        .ok lists ∧
      lists.Hold (box.tighten terms left right) := by
  have zipped : (terms.map Prod.fst).zip (terms.map Prod.snd) = terms := by
    rw [List.zip_map', List.map_id']
  have scanned :
      terms.foldlM (scanTerm box)
          {
            lowest := Activity.zero
            highest := Activity.zero
            largest := 0
            someIntegral := false
          } =
        .ok
          {
            lowest := box.lowest terms
            highest := box.highest terms
            largest := box.largestIntegral terms
            someIntegral := terms.any fun (var, _) => box.isIntegral var
          } :=
    foldlM_scanTerm sized inside _
  obtain ⟨behind, visited⟩ :=
    visitPlaces_eq sized
      (RowProgress.leftFinite box.sentinel left)
      (RowProgress.rightFinite box.sentinel right) inside (Nat.le_refl _) [] []
      {
        left := left
        right := right
        lowest := box.lowest terms
        highest := box.highest terms
        changes := 0
      }
  have untouched (leftRedundant rightRedundant : Bool) :
      TightenedLists.Hold
        {
          vars := terms.map Prod.fst
          coefs := terms.map Prod.snd
          stop := (terms.map Prod.snd).length
          left := left
          right := right
          leftRedundant := leftRedundant
          rightRedundant := rightRedundant
          changes := 0
        }
        {
          terms := terms
          left := left
          right := right
          leftRedundant := leftRedundant
          rightRedundant := rightRedundant
          changes := 0
        } := by
    refine ⟨?_, ?_, rfl, rfl, rfl, rfl, rfl⟩
    · simp
    · simp
  simp only [tighten, RowBox.tighten, zipped, scanned, ok_bind, pure_eq_ok,
    List.not_any_eq_all_not]
  split_ifs with equation nothingToTighten bothRedundant noneLarge
  · exact ⟨_, rfl, untouched false false⟩
  · exact ⟨_, rfl, untouched false false⟩
  · exact ⟨_, rfl, untouched _ _⟩
  · exact ⟨_, rfl, untouched _ _⟩
  · refine ⟨_, bind_eq (Eq.trans ?_ visited) rfl, ?_⟩
    · simp [rowLists]
    · refine ⟨?_, ?_, rfl, rfl, rfl, rfl, rfl⟩
      · simp [rowLists]
      · simp [rowLists]

end Checked

end SdpRelay
