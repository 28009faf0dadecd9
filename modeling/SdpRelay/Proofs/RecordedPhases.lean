import Mathlib
import SdpRelay.Proofs.NestedPhases

namespace SdpRelay

/-!
# Recorded phases

Calls enter phases, leave them and reset everything.  They say by themselves which paths were
entered: the path of the active phases grows by a name, loses its last one, or is empty
again.  The tree of the phases keeps no list of these paths, but it records them: it has a
phase at exactly the paths that were entered since the last reset, and counts how often.
Each name stands once among its neighbours, in increasing order, so that a report lists the
paths in lexicographic order: a phase in front of its parts, and its parts in front of the
phases behind it.
-/

namespace PhaseTree

/-- Neighbours stand in strictly increasing order of their names, at every depth. -/
def Sorted : PhaseTree → Prop
  | leaf => True
  | node name _ parts others =>
      (∀ root ∈ others.roots, name < root.1) ∧ parts.Sorted ∧ others.Sorted

/-- The paths of all phases with their counts, a phase in front of its parts. -/
def paths : PhaseTree → List (List String × Nat)
  | leaf => []
  | node name calls parts others =>
      ([name], calls) ::
        (parts.paths.map (fun found => (name :: found.1, found.2)) ++
          others.paths)

/-- The line of a report about the phase at a path. -/
def pathLine
    (durationMark : String)
    (depth : Nat)
    (path : List String)
    (calls : Nat) :
    String :=
  let name := path.getLastD ""
  String.ofList (List.replicate (4 * (depth + path.length - 1)) ' ') ++
    s!"{name} : {durationMark} ({calls} calls)"

variable
  {name : String}
  {path : List String}
  {tree parts next : PhaseTree}

section Paths

/-- A path of a tree begins with the name of an outermost phase. -/
theorem exists_root_of_mem_paths
    {calls : Nat}
    (member : (path, calls) ∈ tree.paths) :
    ∃ root ∈ tree.roots, ∃ rest, path = root.1 :: rest := by
  induction tree with
  | leaf =>
      cases member
  | node name count parts others _ inductionHypothesis =>
      simp only [paths, List.mem_cons, List.mem_append, List.mem_map,
        Prod.mk.injEq] at member
      rcases member with ⟨rfl, -⟩ | ⟨found, -, rfl, -⟩ | inOthers
      · exact ⟨(name, count), List.mem_cons_self, [], rfl⟩
      · exact ⟨(name, count), List.mem_cons_self, found.1, rfl⟩
      · obtain ⟨root, isRoot, rest, isPath⟩ := inductionHypothesis inOthers
        exact ⟨root, List.mem_cons_of_mem _ isRoot, rest, isPath⟩

/-- A report has one line for each path. -/
theorem lines_eq
    (durationMark : String)
    (depth : Nat)
    (tree : PhaseTree) :
    tree.lines durationMark depth =
      tree.paths.map fun found =>
        pathLine durationMark depth found.1 found.2 := by
  induction tree generalizing depth with
  | leaf =>
      rfl
  | node name calls parts others partsHypothesis othersHypothesis =>
      have deeper
          (found : List String × Nat)
          (member : found ∈ parts.paths) :
          pathLine durationMark (depth + 1) found.1 found.2 =
            pathLine durationMark depth (name :: found.1) found.2 := by
        obtain ⟨root, -, rest, isPath⟩ := exists_root_of_mem_paths member
        rw [isPath]
        simp only [pathLine, List.length_cons, List.getLastD_cons]
        congr 4
        omega
      rw [lines, paths, partsHypothesis, othersHypothesis,
        List.map_cons, List.map_append, List.map_map,
        List.map_congr_left deeper]
      rfl

/-- The paths of a sorted tree stand in lexicographic order. -/
theorem Sorted.paths_increasing
    (sorted : tree.Sorted) :
    tree.paths.Pairwise fun first second => first.1 < second.1 := by
  induction tree with
  | leaf =>
      exact List.Pairwise.nil
  | node name calls parts others partsHypothesis othersHypothesis =>
      obtain ⟨isFirst, partsSorted, othersSorted⟩ := sorted
      -- the paths of other roots begin with a greater name
      have behind
          (rest : List String)
          (other : List String × Nat)
          (member : other ∈ others.paths) :
          name :: rest < other.1 := by
        obtain ⟨root, isRoot, inner, isPath⟩ := exists_root_of_mem_paths member
        rw [isPath]
        exact List.cons_lt_cons_iff.mpr (.inl (isFirst root isRoot))
      rw [paths, List.pairwise_cons, List.pairwise_append, List.pairwise_map]
      refine ⟨?_, ?_, othersHypothesis othersSorted, ?_⟩
      · intro other member
        rcases List.mem_append.mp member with inParts | inOthers
        · obtain ⟨found, isFound, rfl⟩ := List.mem_map.mp inParts
          obtain ⟨root, -, rest, isPath⟩ := exists_root_of_mem_paths isFound
          rw [isPath]
          exact List.cons_lt_cons_iff.mpr (.inr ⟨rfl, List.nil_lt_cons _ _⟩)
        · exact behind [] other inOthers
      · exact
          (partsHypothesis partsSorted).imp fun before =>
            List.cons_lt_cons_iff.mpr (.inr ⟨rfl, before⟩)
      · intro part isPart other isOther
        obtain ⟨found, -, rfl⟩ := List.mem_map.mp isPart
        exact behind found.1 other isOther

end Paths

section Counts

variable
  {other : String}
  {calls : Nat}
  {rest : List String}
  {others : PhaseTree}

@[simp] theorem calls?_nil (tree : PhaseTree) :
    tree.calls? [] = none := by
  cases tree <;> rfl

theorem calls?_here :
    (node name calls parts others).calls? [name] = some calls := by
  simp [calls?]

theorem calls?_inside (inside : rest ≠ []) :
    (node name calls parts others).calls? (name :: rest) =
      parts.calls? rest := by
  cases rest with
  | nil => exact absurd rfl inside
  | cons => simp [calls?]

theorem calls?_behind (different : name ≠ other) :
    (node other calls parts others).calls? (name :: rest) =
      others.calls? (name :: rest) := by
  conv_lhs => unfold calls?
  exact if_neg different

/-- The phases behind the first one do not matter for its own paths. -/
theorem calls?_sameFirst
    {later : PhaseTree} :
    (node name calls parts others).calls? (name :: rest) =
      (node name calls parts later).calls? (name :: rest) := by
  cases rest with
  | nil => rw [calls?_here, calls?_here]
  | cons second inner =>
      rw [calls?_inside (List.cons_ne_nil second inner),
        calls?_inside (List.cons_ne_nil second inner)]

/-- A phase is looked up among the parts of the one before it on its path. -/
theorem calls?_of_parts
    (found : tree.parts? name = some parts)
    (inside : rest ≠ []) :
    tree.calls? (name :: rest) = parts.calls? rest := by
  induction tree with
  | leaf =>
      cases found
  | node other calls inner others _ inductionHypothesis =>
      by_cases same : name = other
      · cases (if_pos same).symm.trans found
        rw [same, calls?_inside inside]
      · rw [calls?_behind same]
        exact inductionHypothesis ((if_neg same).symm.trans found)

/-- There is nothing at a path whose first name is not an outermost phase. -/
theorem calls?_of_absent
    (absent : ∀ root ∈ tree.roots, root.1 ≠ name)
    (rest : List String) :
    tree.calls? (name :: rest) = none := by
  induction tree with
  | leaf =>
      rfl
  | node other calls parts others _ inductionHypothesis =>
      obtain ⟨isOther, absentBehind⟩ := List.forall_mem_cons.mp absent
      rw [calls?_behind isOther.symm]
      exact inductionHypothesis absentBehind

/-- A sorted tree has a phase at exactly its paths, with the counts beside them. -/
theorem Sorted.mem_paths_iff
    (sorted : tree.Sorted) :
    (path, calls) ∈ tree.paths ↔ tree.calls? path = some calls := by
  induction tree generalizing path with
  | leaf =>
      simp [paths, calls?]
  | node name count parts others partsHypothesis othersHypothesis =>
      obtain ⟨isFirst, partsSorted, othersSorted⟩ := sorted
      have member :
          (path, calls) ∈ (node name count parts others).paths ↔
            (path = [name] ∧ calls = count) ∨
              (∃ rest, parts.calls? rest = some calls ∧ name :: rest = path) ∨
                others.calls? path = some calls := by
        rw [paths, List.mem_cons, List.mem_append, List.mem_map,
          othersHypothesis othersSorted, Prod.mk.injEq]
        simp [← partsHypothesis partsSorted]
      rw [member]
      cases path with
      | nil =>
          simp
      | cons first rest =>
          by_cases same : first = name
          · have apart : ∀ root ∈ others.roots, root.1 ≠ first := by
              rw [same]
              exact fun root isRoot => (isFirst root isRoot).ne'
            rw [calls?_of_absent apart, same]
            cases rest with
            | nil =>
                rw [calls?_here]
                simp [eq_comm]
            | cons second inner =>
                rw [calls?_inside (List.cons_ne_nil second inner)]
                simp
          · rw [calls?_behind same]
            simp [same, Ne.symm same]

end Counts

section Entering

/-- Entering adds the name of a phase to the outermost ones, if it is not among them. -/
theorem exists_root_of_enter
    {root : String × Nat}
    (isRoot : root ∈ (tree.enter name).roots) :
    root.1 = name ∨ ∃ old ∈ tree.roots, old.1 = root.1 := by
  induction tree with
  | leaf =>
      rw [List.mem_singleton.mp isRoot]
      exact .inl rfl
  | node other calls parts others _ inductionHypothesis =>
      unfold enter at isRoot
      split at isRoot
      · rename_i same
        rcases List.mem_cons.mp isRoot with isHead | isBehind
        · rw [isHead]
          exact .inl same.symm
        · exact .inr ⟨root, List.mem_cons_of_mem _ isBehind, rfl⟩
      · split at isRoot
        · rcases List.mem_cons.mp isRoot with isHead | isBehind
          · rw [isHead]
            exact .inl rfl
          · exact .inr ⟨root, isBehind, rfl⟩
        · rcases List.mem_cons.mp isRoot with isHead | isBehind
          · rw [isHead]
            exact .inr ⟨(other, calls), List.mem_cons_self, rfl⟩
          · refine (inductionHypothesis isBehind).imp_right ?_
            rintro ⟨old, isOld, sameName⟩
            exact ⟨old, List.mem_cons_of_mem _ isOld, sameName⟩

/-- A phase is created in its place. -/
theorem Sorted.enter
    (sorted : tree.Sorted)
    (name : String) :
    (tree.enter name).Sorted := by
  induction tree with
  | leaf =>
      exact ⟨fun _ none => absurd none List.not_mem_nil, trivial, trivial⟩
  | node other calls parts others _ inductionHypothesis =>
      obtain ⟨isFirst, partsSorted, othersSorted⟩ := sorted
      unfold PhaseTree.enter
      split
      · exact ⟨isFirst, partsSorted, othersSorted⟩
      · rename_i different
        split
        · rename_i before
          refine ⟨?_, trivial, isFirst, partsSorted, othersSorted⟩
          rw [roots, List.forall_mem_cons]
          exact ⟨before, fun root isRoot => before.trans (isFirst root isRoot)⟩
        · rename_i notBefore
          refine ⟨fun root isRoot => ?_, partsSorted, inductionHypothesis othersSorted⟩
          rcases exists_root_of_enter isRoot with isNew | ⟨old, isOld, sameName⟩
          · rw [isNew]
            exact lt_of_le_of_ne (not_lt.mp notBefore) (Ne.symm different)
          · rw [← sameName]
            exact isFirst old isOld

/-- A phase that is created in front of others is counted once at its path. -/
theorem calls?_created
    {others : PhaseTree}
    (absent : ∀ root ∈ others.roots, root.1 ≠ name)
    (path : List String) :
    (node name 1 leaf others).calls? path =
      if path = [name] then some ((others.calls? path).getD 0 + 1)
      else others.calls? path := by
  cases path with
  | nil =>
      simp
  | cons first rest =>
      by_cases same : first = name
      · subst first
        cases rest with
        | nil =>
            rw [calls?_here, if_pos rfl, calls?_of_absent absent]
            rfl
        | cons second inner =>
            rw [calls?_inside (List.cons_ne_nil second inner),
              calls?_of_absent absent]
            simp [calls?]
      · rw [calls?_behind same, if_neg (by simp [same])]

/-- Entering an outermost phase counts at its path, and nowhere else. -/
theorem Sorted.calls?_enter
    (sorted : tree.Sorted)
    (name : String)
    (path : List String) :
    (tree.enter name).calls? path =
      if path = [name] then some ((tree.calls? path).getD 0 + 1)
      else tree.calls? path := by
  induction tree with
  | leaf =>
      exact calls?_created (fun _ none => absurd none List.not_mem_nil) path
  | node other calls parts others _ inductionHypothesis =>
      obtain ⟨isFirst, -, othersSorted⟩ := sorted
      unfold PhaseTree.enter
      split
      · rename_i same
        subst other
        cases path with
        | nil =>
            simp
        | cons first rest =>
            by_cases isHere : first = name
            · subst first
              cases rest with
              | nil =>
                  rw [calls?_here, calls?_here, if_pos rfl]
                  rfl
              | cons second inner =>
                  rw [calls?_inside (List.cons_ne_nil second inner),
                    calls?_inside (List.cons_ne_nil second inner)]
                  simp
            · rw [calls?_behind isHere, calls?_behind isHere]
              simp [isHere]
      · rename_i different
        split
        · rename_i before
          refine calls?_created ?_ path
          rw [roots, List.forall_mem_cons]
          exact
            ⟨before.ne',
              fun root isRoot => (before.trans (isFirst root isRoot)).ne'⟩
        · have later := inductionHypothesis othersSorted
          cases path with
          | nil =>
              simp
          | cons first rest =>
              by_cases isHere : first = other
              · -- the phase that is entered stands behind this one
                subst first
                have elsewhere : other :: rest ≠ [name] := by
                  rintro ⟨⟩
                  exact different rfl
                rw [if_neg elsewhere, calls?_sameFirst]
              · rw [calls?_behind isHere, calls?_behind isHere, later]

/-- Changing the parts of one phase keeps the order, if the changed parts have it. -/
theorem Sorted.updateParts
    {change : PhaseTree → Option PhaseTree}
    {changed : PhaseTree}
    (sorted : tree.Sorted)
    (found : tree.parts? name = some parts)
    (changes : change parts = some changed)
    (changedSorted : changed.Sorted)
    (updated : tree.updateParts name change = some next) :
    next.Sorted := by
  induction tree generalizing next with
  | leaf =>
      cases found
  | node other calls inner others _ inductionHypothesis =>
      obtain ⟨isFirst, innerSorted, othersSorted⟩ := sorted
      unfold PhaseTree.updateParts at updated
      by_cases same : name = other
      · cases (if_pos same).symm.trans found
        rw [if_pos same, changes] at updated
        cases updated
        exact ⟨isFirst, changedSorted, othersSorted⟩
      · have inOthers : others.parts? name = some parts :=
          (if_neg same).symm.trans found
        rw [if_neg same] at updated
        obtain ⟨last, isLast, -, sameRoots⟩ :=
          updateParts_of_parts inOthers changes
        rw [isLast] at updated
        cases updated
        refine ⟨?_, innerSorted, inductionHypothesis othersSorted inOthers isLast⟩
        rw [sameRoots]
        exact isFirst

theorem Sorted.of_parts
    (sorted : tree.Sorted)
    (found : tree.parts? name = some parts) :
    parts.Sorted := by
  induction tree with
  | leaf =>
      cases found
  | node other calls inner others _ inductionHypothesis =>
      obtain ⟨-, innerSorted, othersSorted⟩ := sorted
      by_cases same : name = other
      · cases (if_pos same).symm.trans found
        exact innerSorted
      · exact
          inductionHypothesis othersSorted ((if_neg same).symm.trans found)

/-- Changing the parts of one phase changes no count outside of them. -/
theorem calls?_updateParts
    {change : PhaseTree → Option PhaseTree}
    (updated : tree.updateParts name change = some next)
    (outside : ∀ rest, rest ≠ [] → path ≠ name :: rest) :
    next.calls? path = tree.calls? path := by
  induction tree generalizing next with
  | leaf =>
      cases updated
  | node other calls inner others _ inductionHypothesis =>
      unfold PhaseTree.updateParts at updated
      cases path with
      | nil =>
          simp
      | cons first rest =>
          split at updated
          · rename_i same
            obtain ⟨changed, -, rfl⟩ := Option.map_eq_some_iff.mp updated
            by_cases isHere : first = other
            · have isEnd : rest = [] := by
                by_contra inside
                exact outside rest inside (by rw [isHere, same])
              rw [isEnd, isHere, calls?_here, calls?_here]
            · rw [calls?_behind isHere, calls?_behind isHere]
          · obtain ⟨last, isLast, rfl⟩ := Option.map_eq_some_iff.mp updated
            by_cases isHere : first = other
            · rw [isHere, calls?_sameFirst]
            · rw [calls?_behind isHere, calls?_behind isHere]
              exact inductionHypothesis isLast

/-- Entering a phase below a path counts at the longer path, and nowhere else. -/
theorem Sorted.enterBelow
    (sorted : tree.Sorted)
    (hasPath : tree.HasPath path)
    (name : String) :
    ∃ next,
      tree.enterBelow name path = some next ∧
        next.Sorted ∧
          ∀ place,
            next.calls? place =
              if place = path ++ [name] then
                some ((tree.calls? place).getD 0 + 1)
              else
                tree.calls? place := by
  induction path generalizing tree with
  | nil =>
      exact ⟨_, rfl, sorted.enter name, sorted.calls?_enter name⟩
  | cons first rest inductionHypothesis =>
      obtain ⟨parts, found, restOfPath⟩ := hasPath
      obtain ⟨changed, entered, changedSorted, counted⟩ :=
        inductionHypothesis (sorted.of_parts found) restOfPath
      obtain ⟨next, updated, hasChanged, -⟩ :=
        updateParts_of_parts found entered
      refine
        ⟨next, updated,
          sorted.updateParts found entered changedSorted updated,
          fun place => ?_⟩
      by_cases isInside : ∃ inner, inner ≠ [] ∧ place = first :: inner
      · obtain ⟨inner, inside, rfl⟩ := isInside
        rw [calls?_of_parts hasChanged inside, calls?_of_parts found inside,
          counted inner]
        simp
      · have outside : ∀ inner, inner ≠ [] → place ≠ first :: inner :=
          fun inner inside isPlace => isInside ⟨inner, inside, isPlace⟩
        have elsewhere : place ≠ first :: rest ++ [name] := by
          rw [List.cons_append]
          exact outside _ (List.append_ne_nil_of_right_ne_nil rest (List.cons_ne_nil name []))
        rw [if_neg elsewhere, calls?_updateParts updated outside]

theorem isSome_calls?_of_parts
    (found : tree.parts? name = some parts) :
    (tree.calls? [name]).isSome := by
  induction tree with
  | leaf =>
      cases found
  | node other calls inner others _ inductionHypothesis =>
      by_cases same : name = other
      · rw [same, calls?_here]
        rfl
      · rw [calls?_behind same]
        exact inductionHypothesis ((if_neg same).symm.trans found)

/-- A path of a tree leads to a phase, unless it is empty. -/
theorem HasPath.isSome_calls?
    (hasPath : tree.HasPath path)
    (nonempty : path ≠ []) :
    (tree.calls? path).isSome := by
  induction path generalizing tree with
  | nil =>
      exact absurd rfl nonempty
  | cons first rest inductionHypothesis =>
      obtain ⟨parts, found, restOfPath⟩ := hasPath
      by_cases inside : rest = []
      · rw [inside]
        exact isSome_calls?_of_parts found
      · rw [calls?_of_parts found inside]
        exact inductionHypothesis restOfPath inside

end Entering

end PhaseTree

/-- A call that changes the active phases. -/
inductive PhaseCall where
  | enter (name : String)
  | leave
  | reset
  deriving Repr, DecidableEq

/-- What calls say about the paths of phases, without a tree. -/
structure PathRecord where
  /-- The path of the active phases. -/
  active : List String
  /-- The paths that were active when a phase had been entered, since the last reset. -/
  entered : List (List String)
  deriving Repr, DecidableEq

namespace PathRecord

/-- Nothing has been entered. -/
def empty : PathRecord :=
  { active := [], entered := [] }

/-- What one more call says. -/
def note (record : PathRecord) : PhaseCall → PathRecord
  | .enter name =>
      {
        active := record.active ++ [name]
        entered := record.entered ++ [record.active ++ [name]]
      }
  | .leave => { record with active := record.active.dropLast }
  | .reset => empty

/-- What calls say, from the first to the last. -/
def ofCalls (calls : List PhaseCall) : PathRecord :=
  calls.foldl note empty

/-- How often a path was entered, if it ever was. -/
def calls?
    (record : PathRecord)
    (path : List String) :
    Option Nat :=
  if path ∈ record.entered then
    some (record.entered.count path)
  else
    none

theorem calls?_eq_some_iff
    {record : PathRecord}
    {path : List String}
    {count : Nat} :
    record.calls? path = some count ↔
      path ∈ record.entered ∧ count = record.entered.count path := by
  rw [calls?]
  split
  · rename_i isEntered
    rw [Option.some.injEq, eq_comm]
    exact (and_iff_right isEntered).symm
  · rename_i notEntered
    simp [notEntered]

theorem calls?_enter
    (record : PathRecord)
    (name : String)
    (path : List String) :
    (record.note (.enter name)).calls? path =
      if path = record.active ++ [name] then
        some ((record.calls? path).getD 0 + 1)
      else
        record.calls? path := by
  by_cases isHere : path = record.active ++ [name]
  · by_cases before : path ∈ record.entered
    · simp [calls?, note, ← isHere, before]
    · simp [calls?, note, ← isHere, before, List.count_eq_zero_of_not_mem before]
  · simp [calls?, note, isHere, Ne.symm isHere]

end PathRecord

namespace Phases

/-- What a call does. -/
def perform (phases : Phases) : PhaseCall → Phases
  | .enter name => phases.enter name
  | .leave => phases.leave
  | .reset => idle

/-- The phases after calls, from the first to the last. -/
def afterCalls (calls : List PhaseCall) : Phases :=
  calls.foldl perform idle

/-- The tree has a phase at the paths of a record, as often as they were entered. -/
structure Records
    (phases : Phases)
    (record : PathRecord) : Prop where
  active : phases.active = record.active
  sorted : phases.tree.Sorted
  stands : phases.Stands
  counts : ∀ path, phases.tree.calls? path = record.calls? path

namespace Records

variable
  {phases : Phases}
  {record : PathRecord}

theorem idle : Records idle .empty where
  active := rfl
  sorted := trivial
  stands := trivial
  counts _ := rfl

/-- A phase stands at a path with a count if the path was entered as often. -/
theorem calls?_eq_some_iff
    (records : Records phases record)
    {path : List String}
    {count : Nat} :
    phases.tree.calls? path = some count ↔
      path ∈ record.entered ∧ count = record.entered.count path := by
  rw [records.counts, PathRecord.calls?_eq_some_iff]

/-- The paths of the tree are the ones that were entered, with how often they were. -/
theorem mem_paths_iff
    (records : Records phases record)
    {path : List String}
    {count : Nat} :
    (path, count) ∈ phases.tree.paths ↔
      path ∈ record.entered ∧ count = record.entered.count path := by
  rw [records.sorted.mem_paths_iff, records.calls?_eq_some_iff]

/-- One call keeps the tree and the record together. -/
theorem perform
    (records : Records phases record)
    (call : PhaseCall) :
    Records (phases.perform call) (record.note call) := by
  cases call with
  | enter name =>
      obtain ⟨next, entered, nextSorted, counted⟩ :=
        records.sorted.enterBelow records.stands name
      have isNext : (phases.enter name).tree = next := by
        rw [Phases.enter, entered]
        rfl
      exact
        {
          active := congrArg (· ++ [name]) records.active
          sorted := by
            rw [Phases.perform, isNext]
            exact nextSorted
          stands := (records.stands.enter name).1
          counts := fun path => by
            rw [Phases.perform, isNext, counted, PathRecord.calls?_enter,
              records.active, records.counts]
        }
  | leave =>
      exact
        {
          active := congrArg List.dropLast records.active
          sorted := records.sorted
          stands := records.stands.leave
          counts := records.counts
        }
  | reset =>
      exact .idle

/-- A run of calls keeps the tree and the record together. -/
theorem afterCalls (calls : List PhaseCall) :
    Records (afterCalls calls) (PathRecord.ofCalls calls) := by
  have run
      {phases : Phases}
      {record : PathRecord}
      (records : Records phases record) :
      Records (calls.foldl Phases.perform phases)
        (calls.foldl PathRecord.note record) := by
    induction calls generalizing phases record with
    | nil =>
        exact records
    | cons call rest inductionHypothesis =>
        exact inductionHypothesis (records.perform call)
  exact run .idle

end Records

/--
The tree of phases records exactly the paths that calls enter.  A phase is entered
below the active ones, and these are found in the tree unless there are none.  There
is a phase at a path exactly if the path was entered since the last reset, and its
count says how often.  A report lists these paths in lexicographic order: with sorted
names, and each phase in front of its parts.
-/
theorem tree_records_entered_paths (calls : List PhaseCall) :
    (afterCalls calls).active = (PathRecord.ofCalls calls).active ∧
      (((afterCalls calls).tree.calls? (afterCalls calls).active).isSome ↔
        (afterCalls calls).active ≠ []) ∧
      (∀ name,
        ((afterCalls calls).tree.enterBelow name
          (afterCalls calls).active).isSome) ∧
      (∀ path,
        (((afterCalls calls).tree.calls? path).isSome ↔
          path ∈ (PathRecord.ofCalls calls).entered) ∧
        ∀ count,
          (afterCalls calls).tree.calls? path = some count →
            count = (PathRecord.ofCalls calls).entered.count path) ∧
      ∃ listed : List (List String),
        listed.Pairwise (· < ·) ∧
          (∀ path,
            path ∈ listed ↔ path ∈ (PathRecord.ofCalls calls).entered) ∧
          ∀ durationMark,
            (afterCalls calls).lines durationMark =
              listed.map fun path =>
                PhaseTree.pathLine durationMark 0 path
                  ((PathRecord.ofCalls calls).entered.count path) := by
  have records := Records.afterCalls calls
  generalize afterCalls calls = phases at records ⊢
  generalize PathRecord.ofCalls calls = record at records ⊢
  refine ⟨records.active, ⟨?_, records.stands.isSome_calls?⟩, ?_, ?_, ?_⟩
  · rintro isSome isEmpty
    rw [isEmpty, PhaseTree.calls?_nil] at isSome
    cases isSome
  · intro name
    obtain ⟨next, entered, -⟩ :=
      records.sorted.enterBelow records.stands name
    rw [entered]
    rfl
  · intro path
    refine
      ⟨?_, fun count counted => (records.calls?_eq_some_iff.mp counted).2⟩
    rw [Option.isSome_iff_exists]
    constructor
    · rintro ⟨count, counted⟩
      exact (records.calls?_eq_some_iff.mp counted).1
    · intro isEntered
      exact ⟨_, records.calls?_eq_some_iff.mpr ⟨isEntered, rfl⟩⟩
  · refine ⟨phases.tree.paths.map Prod.fst, ?_, fun path => ?_, fun mark => ?_⟩
    · exact List.pairwise_map.mpr records.sorted.paths_increasing
    · rw [List.mem_map]
      constructor
      · rintro ⟨⟨found, count⟩, member, rfl⟩
        exact (records.mem_paths_iff.mp member).1
      · intro isEntered
        exact ⟨(path, _), records.mem_paths_iff.mpr ⟨isEntered, rfl⟩, rfl⟩
    · rw [Phases.lines, PhaseTree.lines_eq, List.map_map]
      refine List.map_congr_left fun found member => ?_
      rw [(records.mem_paths_iff.mp member).2]
      rfl

/-- A name that is entered at several depths, after a reset and a call that leaves nothing. -/
example :
    (afterCalls
      [.enter "old", .reset, .leave, .enter "solve", .enter "solve", .leave,
        .enter "backend", .leave, .leave, .enter "solve"]).lines "T" =
      ["solve : T (2 calls)", "    backend : T (1 calls)",
        "    solve : T (1 calls)"] := by
  decide

end Phases

end SdpRelay
