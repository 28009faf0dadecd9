import Mathlib

namespace SdpRelay

/-!
# Checked access

The library reads a list with a default for positions that the list does not have,
and writes beyond the end change nothing.  The functions below have no default:
they stop with a fault at a position or a range that does not exist, and at a
difference below zero.  A part of the library that can be written with them, and
then never stops, does not depend on any default.

Positions are natural numbers: the words of the machine are assumed to hold the
length of every list that is made.  Whether such a list fits into its memory is not
a question of access.
-/

/-- An access that leaves the range of what it accesses. -/
inductive AccessFault where
  | item (position length : Nat)
  | range (first stop length : Nat)
  | entry (row col size : Nat)
  | difference (first second : Nat)
  deriving Repr, DecidableEq

/-- A computation that stops at the first access out of range. -/
abbrev Checked (β : Type) :=
  Except AccessFault β

namespace Checked

variable {β γ σ : Type}

/-- The item at a position. -/
def item
    (items : List β)
    (position : Nat) :
    Checked β :=
  match items[position]? with
  | some found => .ok found
  | none => .error (.item position items.length)

/-- Replace the item at a position. -/
def replace
    (items : List β)
    (position : Nat)
    (value : β) :
    Checked (List β) :=
  if position < items.length then
    .ok (items.set position value)
  else
    .error (.item position items.length)

/-- The items from position `first` up to, not including, position `stop`. -/
def range
    (items : List β)
    (first stop : Nat) :
    Checked (List β) :=
  if first ≤ stop ∧ stop ≤ items.length then
    .ok ((items.take stop).drop first)
  else
    .error (.range first stop items.length)

/-- The difference of two numbers, the first one being at least the second. -/
def minus
    (first second : Nat) :
    Checked Nat :=
  if second ≤ first then
    .ok (first - second)
  else
    .error (.difference first second)

/-- The items of a list that pass a test, collected one by one. -/
def select
    (test : β → Checked Bool)
    (items : List β) :
    Checked (List β) :=
  items.foldlM
    (fun found item => do
      if ← test item then
        return found ++ [item]
      else
        return found)
    []

@[simp] theorem ok_bind
    (value : β)
    (next : β → Checked γ) :
    ((Except.ok value : Checked β) >>= next) = next value :=
  rfl

@[simp] theorem pure_eq_ok (value : β) :
    (pure value : Checked β) = .ok value :=
  rfl

/-- Two steps in range, one after the other. -/
theorem bind_eq
    {first : Checked β}
    {next : β → Checked γ}
    {value : β}
    {result : γ}
    (isFirst : first = .ok value)
    (isNext : next value = .ok result) :
    (first >>= next) = .ok result := by
  rw [isFirst, ok_bind, isNext]

theorem item_getElem
    {items : List β}
    {position : Nat}
    (inside : position < items.length) :
    item items position = .ok items[position] := by
  rw [item, List.getElem?_eq_getElem inside]

theorem item_eq
    {items : List β}
    {position : Nat}
    (inside : position < items.length)
    (default : β) :
    item items position = .ok (items.getD position default) := by
  rw [item_getElem inside, List.getD_eq_getElem items default inside]

theorem replace_eq
    {items : List β}
    {position : Nat}
    (inside : position < items.length)
    (value : β) :
    replace items position value = .ok (items.set position value) :=
  if_pos inside

theorem range_eq
    {items : List β}
    {first stop : Nat}
    (ordered : first ≤ stop)
    (inside : stop ≤ items.length) :
    range items first stop = .ok ((items.take stop).drop first) :=
  if_pos ⟨ordered, inside⟩

theorem minus_eq
    {first second : Nat}
    (ordered : second ≤ first) :
    minus first second = .ok (first - second) :=
  if_pos ordered

/--
A loop stays in range if every step does from a state with some property and
reaches a state with that property.
-/
theorem foldlM_eq
    {items : List β}
    {step : σ → β → Checked σ}
    {plain : σ → β → σ}
    (Keeps : σ → Prop)
    {start : σ}
    (isStart : Keeps start)
    (steps :
      ∀ state, ∀ item ∈ items, Keeps state →
        step state item = .ok (plain state item) ∧ Keeps (plain state item)) :
    items.foldlM step start = .ok (items.foldl plain start) ∧
      Keeps (items.foldl plain start) := by
  induction items generalizing start with
  | nil =>
      exact ⟨rfl, isStart⟩
  | cons first rest inductionHypothesis =>
      obtain ⟨stepped, kept⟩ := steps start first List.mem_cons_self isStart
      rw [List.foldlM_cons, stepped, ok_bind, List.foldl_cons]
      exact
        inductionHypothesis kept fun state item member =>
          steps state item (List.mem_cons_of_mem first member)

/-- Items are computed one by one in range if each of them is. -/
theorem mapM_eq
    {items : List β}
    {compute : β → Checked γ}
    {plain : β → γ}
    (computes : ∀ item ∈ items, compute item = .ok (plain item)) :
    items.mapM compute = .ok (items.map plain) := by
  induction items with
  | nil =>
      rfl
  | cons first rest inductionHypothesis =>
      rw [List.mapM_cons, computes first List.mem_cons_self, ok_bind,
        inductionHypothesis fun item member =>
          computes item (List.mem_cons_of_mem first member),
        ok_bind, List.map_cons]
      rfl

/-- Items are selected in range if each of them is tested in range. -/
theorem select_eq
    {items : List β}
    {test : β → Checked Bool}
    {keep : β → Bool}
    (tests : ∀ item ∈ items, test item = .ok (keep item)) :
    select test items = .ok (items.filter keep) := by
  have collected :
      ∀ (rest found : List β),
        rest.foldl
            (fun found item => if keep item then found ++ [item] else found)
            found =
          found ++ rest.filter keep := by
    intro rest
    induction rest with
    | nil =>
        simp
    | cons first rest inductionHypothesis =>
        intro found
        rw [List.foldl_cons, inductionHypothesis, List.filter_cons]
        split <;> simp
  refine
    (foldlM_eq (fun _ => True) trivial fun found item member _ =>
      ⟨?_, trivial⟩).1.trans
      (congrArg Except.ok (collected items []))
  rw [tests item member, ok_bind]
  split <;> rfl

/-- Items are computed one by one in range if the item of each place is. -/
theorem mapM_getElem_eq
    {items : List β}
    {results : List γ}
    {compute : β → Checked γ}
    (sameLength : items.length = results.length)
    (computes :
      ∀ place (inItems : place < items.length) (inResults : place < results.length),
        compute items[place] = .ok results[place]) :
    items.mapM compute = .ok results := by
  induction items generalizing results with
  | nil =>
      rw [List.eq_nil_of_length_eq_zero sameLength.symm]
      rfl
  | cons first rest inductionHypothesis =>
      cases results with
      | nil =>
          simp at sameLength
      | cons result others =>
          have firstComputed : compute first = .ok result :=
            computes 0 (by simp) (by simp)
          have restComputed : rest.mapM compute = .ok others :=
            inductionHypothesis (by simpa using sameLength)
              fun place inRest inOthers =>
                computes (place + 1) (by simpa using inRest)
                  (by simpa using inOthers)
          rw [List.mapM_cons, firstComputed, ok_bind, restComputed, ok_bind]
          rfl

/-- The first items of a list are replaced one by one in range if each of them is. -/
theorem foldlM_replace_eq
    {items results : List β}
    {step : List β → Nat → Checked (List β)}
    (fits : results.length ≤ items.length)
    (steps :
      ∀ state place (inside : place < results.length),
        state.length = items.length →
          step state place = .ok (state.set place results[place])) :
    (List.range results.length).foldlM step items =
      .ok (results ++ items.drop results.length) := by
  have upTo :
      ∀ count ≤ results.length,
        (List.range count).foldlM step items =
          .ok (results.take count ++ items.drop count) := by
    intro count below
    induction count with
    | zero =>
        rfl
    | succ count inductionHypothesis =>
        have inResults : count < results.length := below
        have inItems : count < items.length := below.trans fits
        have count_length : (results.take count).length = count :=
          List.length_take_of_le inResults.le
        have replaced :=
          steps (results.take count ++ items.drop count) count inResults
            (by rw [List.length_append, count_length, List.length_drop]; omega)
        have next : items.drop count = items[count] :: items.drop (count + 1) :=
          List.drop_eq_getElem_cons inItems
        rw [List.range_succ, List.foldlM_append,
          inductionHypothesis inResults.le, ok_bind, List.foldlM_cons, replaced,
          ok_bind, List.foldlM_nil, pure_eq_ok, next,
          List.set_append_right _ _ (Nat.le_of_eq count_length), count_length,
          Nat.sub_self, List.set_cons_zero, List.take_succ_eq_append_getElem inResults,
          List.append_assoc]
        rfl
  rw [upTo results.length (Nat.le_refl _), List.take_length]

section Capacity

/-!
## Room for more items

A list has room for a number of items, which is at least its length.  To have room
for more, the room grows in steps that do not depend on the number requested.
-/

/-- Grow step by step until there is enough room or a step does not grow. -/
def grownFrom
    (step : Nat → Nat)
    (requested previous current : Nat) :
    Nat :=
  if _ : current < requested ∧ previous < current then
    grownFrom step requested current (step current)
  else if current ≤ previous then
    requested
  else
    current
termination_by requested - previous

/-- The smallest room that is ever made. -/
def leastRoom : Nat := 4

/-- The room made for a number of items, from the room that there is. -/
def grown
    (step : Nat → Nat)
    (room requested : Nat) :
    Nat :=
  let first := max room leastRoom
  grownFrom step requested (first - 1) first

/-- By how much the room of a list exceeds its length once there is room for a number of items. -/
def reserve
    (step : Nat → Nat)
    (length room requested : Nat) :
    Checked Nat :=
  if requested ≤ room then
    .ok (room - length)
  else
    minus (grown step room requested) length

theorem requested_le_grownFrom
    (step : Nat → Nat)
    (requested previous current : Nat) :
    requested ≤ grownFrom step requested previous current := by
  fun_induction grownFrom step requested previous current with
  | case1 previous current grows inductionHypothesis =>
      exact inductionHypothesis
  | case2 previous current stops stuck =>
      exact Nat.le_refl requested
  | case3 previous current stops moved =>
      omega

/-- Room is reserved without a difference below zero, whatever the steps of growth are. -/
theorem reserve_eq
    (step : Nat → Nat)
    {length room : Nat}
    (fits : length ≤ room)
    (requested : Nat) :
    ∃ spare, reserve step length room requested = .ok spare := by
  unfold reserve
  split
  · exact ⟨room - length, rfl⟩
  · rename_i tooSmall
    have enough : requested ≤ grown step room requested :=
      requested_le_grownFrom step requested _ _
    exact ⟨grown step room requested - length, minus_eq (by omega)⟩

end Capacity

end Checked

end SdpRelay
