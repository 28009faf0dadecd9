namespace SdpRelay

/-!
# Memory for a solve

A solve reuses the arrays of the solves before it, and reserves memory where they are
too small. Whether a reservation is granted depends on the machine and on how large
the arrays have become, neither of which is modelled: any reservation may be refused.
-/

/-- What the arrays of a solve need memory for. -/
inductive Reservation where
  /-- The bounds of the variables and where they come from. -/
  | bounds (count : Nat)
  /-- The kept rows, of which there are at most as many as rows and coefficients. -/
  | rows (count terms : Nat)
  /-- The list with a constant for each block. -/
  | constantList (count : Nat)
  /-- The constant of a block, given by its position, and all that is folded into it. -/
  | constant (b count : Nat)
  /-- The lists with one place for each block that a compaction makes. -/
  | blockList (count : Nat)
  /-- The map of the indices of a block, given by its position. -/
  | indexMap (b size : Nat)
  deriving Repr, DecidableEq

/-- The reservations that are granted. -/
structure Memory where
  grants : Reservation → Bool

/-- The memory of a common machine: a map of more than `2 ^ 32` indices is refused. -/
def Memory.common : Memory where
  grants
    | .indexMap _ size => decide (size ≤ UInt32.size)
    | _ => true

/-- Why the arrays of a solve cannot be prepared. -/
inductive MemoryFault where
  /-- A reservation is refused. -/
  | outOfMemory
  deriving Repr, DecidableEq

/-- The sentence that describes a fault. -/
def MemoryFault.message : MemoryFault → String
  | .outOfMemory => "out of memory"

end SdpRelay
