namespace SdpRelay

/-!
# Phase timings

Nested phases of a solve and how often each was entered. A phase that is
entered while another is active becomes a part of it. Durations are not kept;
where a report shows them it is given a mark to print in their place.
-/

/-- The parts of a phase, sorted by name: a name, a call count, its own parts, and the other parts. -/
inductive PhaseTree where
  | leaf
  | node (name : String) (calls : Nat) (parts others : PhaseTree)
  deriving Repr, DecidableEq

namespace PhaseTree

/-- Count one more call of a part, which is created in its place if it is new. -/
def enter (name : String) : PhaseTree → PhaseTree
  | leaf => node name 1 leaf leaf
  | node other calls parts others =>
      if name = other then
        node other (calls + 1) parts others
      else if name < other then
        node name 1 leaf (node other calls parts others)
      else
        node other calls parts (enter name others)

/-- Change the parts of a part, if there is one of that name. -/
def updateParts
    (name : String)
    (change : PhaseTree → Option PhaseTree) :
    PhaseTree → Option PhaseTree
  | leaf => none
  | node other calls parts others =>
      if name = other then
        (change parts).map fun changed => node other calls changed others
      else
        (updateParts name change others).map fun changed =>
          node other calls parts changed

/-- Enter a phase below a path of phases, if the path exists. -/
def enterBelow
    (name : String) :
    List String → PhaseTree → Option PhaseTree
  | [], tree => some (tree.enter name)
  | first :: rest, tree => tree.updateParts first (enterBelow name rest)

/-- How often the phase at a path was entered, if it ever was. -/
def calls? : List String → PhaseTree → Option Nat
  | _, leaf => none
  | [], _ => none
  | name :: rest, node other calls parts others =>
      if name = other then
        match rest with
        | [] => some calls
        | _ => calls? rest parts
      else
        calls? (name :: rest) others

/-- One line for every phase, each level indented by four more blanks. -/
def lines
    (durationMark : String)
    (depth : Nat) :
    PhaseTree → List String
  | leaf => []
  | node name calls parts others =>
      (String.ofList (List.replicate (4 * depth) ' ') ++
          s!"{name} : {durationMark} ({calls} calls)") ::
        (lines durationMark (depth + 1) parts ++
          lines durationMark depth others)

end PhaseTree

/-- The phases entered so far and the path of the active ones, outermost first. -/
structure Phases where
  active : List String
  tree : PhaseTree
  deriving Repr, DecidableEq

namespace Phases

/-- Nothing has been entered. -/
def idle : Phases :=
  { active := [], tree := .leaf }

/-- Enter a phase inside the active one. -/
def enter
    (phases : Phases)
    (name : String) :
    Phases :=
  {
    active := phases.active ++ [name]
    tree :=
      (phases.tree.enterBelow name phases.active).getD
        (phases.tree.enter name)
  }

/-- Leave the innermost active phase. -/
def leave (phases : Phases) : Phases :=
  { phases with active := phases.active.dropLast }

/-- The lines of a report. -/
def lines
    (durationMark : String)
    (phases : Phases) :
    List String :=
  phases.tree.lines durationMark 0

end Phases

end SdpRelay
