import SdpRelay.Proofs.FixedPoints
import SdpRelay.Proofs.PrimalCertificates

namespace SdpRelay

/-!
# Rays at fixed points

The check of a fixed point ends at the first block that is violated, and it keeps
an eigenvector of every block that it has seen.  The primal answer makes a matrix
`v v'` of each of them, those of the satisfied blocks included.  The inner products
of these matrices with the slacks at the point are the smallest eigenvalues of the
blocks, so they add up to a certificate of infeasibility only if the eigenvalues
before the violated block do not outweigh the negative one.
-/

open Matrix

variable {K : Type} [ExactField K] {size : Nat}

/-- The eigenpair of a dense matrix is its smallest eigenvalue with a unit eigenvector. -/
def SquareMatrix.EigenpairIsUnit
    (m : SquareMatrix K)
    (size : Nat) :
    Prop :=
  ∀ pair,
    smallestEigenpair m true = .ok pair →
      IsSmallestEigenvalue (m.toMatrix size) pair.eigenvalue ∧
        ∃ numbers,
          pair.eigenvector = some numbers ∧
            vectorOf size numbers ⬝ᵥ vectorOf size numbers = 1 ∧
            m.toMatrix size *ᵥ vectorOf size numbers =
              pair.eigenvalue • vectorOf size numbers

/-- That of a matrix with a single entry is. -/
theorem SquareMatrix.eigenpairIsUnit_of_single
    {m : SquareMatrix K}
    (isSingle : m.size = 1) :
    m.EigenpairIsUnit 1 := by
  intro pair found
  have isPair :
      pair = { eigenvalue := m.get 0 0, eigenvector := some [1] } := by
    simp only [smallestEigenpair, isSingle, EigenMethod.forSize,
      EigenMethod.smallest, if_true, Except.ok.injEq] at found
    exact found.symm
  subst isPair
  have product (vector : Fin 1 → K) :
      m.toMatrix 1 *ᵥ vector = m.get 0 0 • vector := by
    ext i
    simp [mulVec, dotProduct, toMatrix, Fin.eq_zero i]
  have unit : vectorOf 1 [(1 : K)] = fun _ => 1 := by
    ext i
    simp [vectorOf, Fin.eq_zero i]
  refine ⟨⟨⟨fun _ => 1, ?_, product _⟩, ?_⟩, [1], rfl, ?_, product _⟩
  · exact fun isZero => one_ne_zero (congrFun isZero 0)
  · intro vector
    rw [product, dotProduct_smul, smul_eq_mul]
  · simp [unit, dotProduct]

/-- The quadratic form of a matrix at a unit eigenvector is the eigenvalue. -/
theorem form_of_unit
    {matrix : Matrix (Fin size) (Fin size) K}
    {vector : Fin size → K}
    {value : K}
    (unit : vector ⬝ᵥ vector = 1)
    (isEigenvector : matrix *ᵥ vector = value • vector) :
    vector ⬝ᵥ matrix *ᵥ vector = value := by
  rw [isEigenvector, dotProduct_smul, unit, smul_eq_mul, mul_one]

/-- The matrix of a block for what the check of a fixed point has kept of it. -/
def Block.rayOf (block : Block K) : Option (List K) → SquareMatrix K
  | some vector => SquareMatrix.rankOne vector 1
  | none => SquareMatrix.zeros block.size

/-- The inner products of the slacks of blocks with matrices, added up. -/
def rayValue
    (epsilon : K)
    (point : Nat → K)
    (blocks : List (Block K))
    (rays : List (SquareMatrix K)) :
    K :=
  ((blocks.zip rays).map fun (block, ray) =>
    (block.slackAt epsilon point * ray.toMatrix block.size).trace).sum

/-- All matrices but the one at a position are zero. -/
def VanishElsewhere
    (position : Nat)
    (blocks : List (Block K))
    (rays : List (SquareMatrix K)) :
    Prop :=
  ∀ pair ∈ (blocks.zip rays).eraseIdx position,
    pair.2.toMatrix pair.1.size = 0

instance
    (position : Nat)
    (blocks : List (Block K))
    (rays : List (SquareMatrix K)) :
    Decidable (VanishElsewhere position blocks rays) :=
  inferInstanceAs
    (Decidable
      (∀ pair ∈ (blocks.zip rays).eraseIdx position,
        pair.2.toMatrix pair.1.size = 0))

/-- What was kept of the blocks up to the violated one makes up the rays of all blocks. -/
theorem map_zipIdx_rayOf
    {seen later : List (Block K)}
    {kept : List (Option (List K))}
    (violated : Block K)
    (vector : List K)
    (sameLength : kept.length = seen.length) :
    ((seen ++ violated :: later).zipIdx.map fun (block, b) =>
        block.rayOf ((kept ++ [some vector]).getD b none)) =
      List.zipWith Block.rayOf seen kept ++
        SquareMatrix.rankOne vector 1 ::
          later.map fun block => SquareMatrix.zeros block.size := by
  rw [List.zipIdx_append, List.map_append, List.zipIdx_cons, List.map_cons]
  congr 1
  · apply List.ext_getElem
    · simp [sameLength]
    · intro b inFirst inSecond
      have inKept : b < kept.length := by
        simp [sameLength] at inFirst ⊢
        exact inFirst
      simp [List.getElem?_append_left inKept, inKept]
  congr 1
  · simp [← sameLength, Block.rayOf]
  · apply List.ext_getElem
    · simp
    · intro b inFirst inSecond
      have beyond : (kept ++ [some vector]).length ≤ seen.length + 1 + b := by
        simp [sameLength]
      simp [List.getElem?_eq_none beyond, Block.rayOf]

section Values

variable {epsilon : K} {point : Nat → K}

theorem rayValue_cons
    (block : Block K)
    (ray : SquareMatrix K)
    (blocks : List (Block K))
    (rays : List (SquareMatrix K)) :
    rayValue epsilon point (block :: blocks) (ray :: rays) =
      (block.slackAt epsilon point * ray.toMatrix block.size).trace +
        rayValue epsilon point blocks rays := by
  rw [rayValue, List.zip_cons_cons, List.map_cons, List.sum_cons]
  rfl

theorem rayValue_append
    {seen later : List (Block K)}
    {first second : List (SquareMatrix K)}
    (sameLength : seen.length = first.length) :
    rayValue epsilon point (seen ++ later) (first ++ second) =
      rayValue epsilon point seen first +
        rayValue epsilon point later second := by
  rw [rayValue, List.zip_append sameLength, List.map_append, List.sum_append]
  rfl

/-- The matrices of blocks that the check has not come to vanish and do not contribute. -/
theorem rays_of_unseen
    (epsilon : K)
    (point : Nat → K)
    (later : List (Block K)) :
    let rays := later.map fun block => SquareMatrix.zeros block.size
    rayValue epsilon point later rays = 0 ∧
      ∀ pair ∈ later.zip rays, pair.2.toMatrix pair.1.size = 0 := by
  induction later with
  | nil =>
      exact ⟨rfl, by simp⟩
  | cons block rest inductionHypothesis =>
      obtain ⟨restValue, restVanish⟩ := inductionHypothesis
      simp only [List.map_cons, rayValue_cons, restValue, List.zip_cons_cons,
        List.forall_mem_cons, SquareMatrix.toMatrix_zeros, Matrix.mul_zero,
        trace_zero, add_zero]
      exact ⟨trivial, trivial, restVanish⟩

end Values

namespace Workspace

variable {work : Workspace K} {settings : Settings K}

/-- The smallest eigenvalue that the check finds for a block, zero for one without rows. -/
def eigenvalueOf
    (work : Workspace K)
    (settings : Settings K)
    (block : Block K) :
    K :=
  if block.size = 0 then
    0
  else
    match smallestEigenpair (work.fixedMatrix settings.epsilon block)
        settings.keepsFixedVectors with
    | .ok pair => pair.eigenvalue
    | .error _ => 0

/-- What is assumed of the eigenpairs of blocks. -/
structure FindsUnits
    (work : Workspace K)
    (settings : Settings K)
    (variableCount : Nat)
    (block : Block K) : Prop where
  acceptable : block.Acceptable variableCount
  isUnit :
    (work.fixedMatrix settings.epsilon block).EigenpairIsUnit block.size

/-- The ray of an eigenpair is not zero, and its inner product with the slack is the eigenvalue. -/
theorem FindsUnits.ray
    {variableCount : Nat}
    {block : Block K}
    {pair : Eigenpair K}
    (finds : work.FindsUnits settings variableCount block)
    (keepsVectors : settings.keepsFixedVectors = true)
    (nonempty : block.size ≠ 0)
    (found :
      smallestEigenpair (work.fixedMatrix settings.epsilon block)
          settings.keepsFixedVectors = .ok pair) :
    let slack := block.slackAt settings.epsilon work.bounds.lowerAt
    work.eigenvalueOf settings block = pair.eigenvalue ∧
      IsSmallestEigenvalue slack pair.eigenvalue ∧
      ∃ vector,
        pair.eigenvector = some vector ∧
          (SquareMatrix.rankOne vector 1).toMatrix block.size ≠ 0 ∧
          (slack * (SquareMatrix.rankOne vector 1).toMatrix
            block.size).trace = pair.eigenvalue := by
  intro slack
  have isEigenvalue : work.eigenvalueOf settings block = pair.eigenvalue := by
    rw [eigenvalueOf, if_neg nonempty, found]
  rw [keepsVectors] at found
  have isSlack :
      (work.fixedMatrix settings.epsilon block).toMatrix block.size = slack :=
    work.toMatrix_fixedMatrix settings.epsilon finds.acceptable
  obtain ⟨smallest, vector, isVector, unit, isEigenvector⟩ :=
    finds.isUnit pair found
  rw [isSlack] at smallest isEigenvector
  have length : vector.length = block.size :=
    (eigenvector_length found isVector).trans
      (work.fixedMatrix_size settings.epsilon block)
  refine ⟨isEigenvalue, smallest, vector, isVector, ?_, ?_⟩
  · intro isZero
    have noTrace :=
      SquareMatrix.trace_mul_rankOne
        (1 : Matrix (Fin block.size) (Fin block.size) K) length 1
    rw [isZero, Matrix.mul_zero, trace_zero, one_mulVec, unit, mul_one]
      at noTrace
    exact zero_ne_one noTrace
  · rw [SquareMatrix.trace_mul_rankOne _ length, one_mul,
      form_of_unit unit isEigenvector]

/--
The rays of blocks that pass the check add up to their smallest eigenvalues, and
they vanish only if no block has a row.
-/
theorem rays_of_passes
    {variableCount : Nat}
    {seen : List (Block K)}
    {kept : List (Option (List K))}
    (keepsVectors : settings.keepsFixedVectors = true)
    (finds : ∀ block ∈ seen, work.FindsUnits settings variableCount block)
    (passes : List.Forall₂ (work.Passes settings) seen kept) :
    let rays := List.zipWith Block.rayOf seen kept
    rayValue settings.epsilon work.bounds.lowerAt seen rays =
        (seen.map (work.eigenvalueOf settings)).sum ∧
      ((∀ pair ∈ seen.zip rays, pair.2.toMatrix pair.1.size = 0) ↔
        ∀ block ∈ seen, block.size = 0) ∧
      ∀ block ∈ seen,
        block.size = 0 ∧ work.eigenvalueOf settings block = 0 ∨
          IsSmallestEigenvalue
              (block.slackAt settings.epsilon work.bounds.lowerAt)
              (work.eigenvalueOf settings block) ∧
            -settings.feasTolerance ≤ work.eigenvalueOf settings block := by
  induction passes with
  | nil =>
      exact ⟨rfl, by simp, nofun⟩
  | @cons block vector rest others pass _ inductionHypothesis =>
      obtain ⟨restValue, restVanish, restHolds⟩ :=
        inductionHypothesis fun other inRest =>
          finds other (List.mem_cons_of_mem block inRest)
      simp only [List.zipWith_cons_cons, rayValue_cons, restValue,
        List.map_cons, List.sum_cons, List.zip_cons_cons, List.forall_mem_cons,
        restVanish]
      cases pass with
      | empty isEmpty =>
          have noRow : IsEmpty (Fin block.size) := by
            rw [isEmpty]
            infer_instance
          have noValue : work.eigenvalueOf settings block = 0 :=
            if_pos isEmpty
          have vanishes :
              (block.rayOf none).toMatrix block.size = 0 :=
            SquareMatrix.toMatrix_zeros block.size
          rw [noValue, vanishes, Matrix.mul_zero, trace_zero]
          exact ⟨rfl, by simp [isEmpty], .inl ⟨isEmpty, rfl⟩, restHolds⟩
      | holds nonempty found above =>
          obtain
            ⟨isEigenvalue, smallest, numbers, isVector, nonzero, isTrace⟩ :=
            (finds block List.mem_cons_self).ray keepsVectors nonempty found
          rw [isVector, isEigenvalue]
          refine ⟨by rw [← isTrace]; rfl, ?_, .inr ⟨smallest, ?_⟩, restHolds⟩
          · exact
              ⟨fun both => absurd both.1 nonzero,
                fun both => absurd both.1 nonempty⟩
          · exact not_lt.mp above

/-- What a check that stops at a block makes the rays of all blocks come to. -/
theorem rays_of_stop
    {variableCount : Nat}
    {blocks seen later : List (Block K)}
    {violated : Block K}
    {kept : List (Option (List K))}
    {pair : Eigenpair K}
    (keepsVectors : settings.keepsFixedVectors = true)
    (finds : ∀ block ∈ blocks, work.FindsUnits settings variableCount block)
    (isBlocks : blocks = seen ++ violated :: later)
    (passes : List.Forall₂ (work.Passes settings) seen kept)
    (nonempty : violated.size ≠ 0)
    (found :
      smallestEigenpair (work.fixedMatrix settings.epsilon violated)
          settings.keepsFixedVectors = .ok pair)
    (below : pair.eigenvalue < -settings.feasTolerance) :
    let slack (block : Block K) :=
      block.slackAt settings.epsilon work.bounds.lowerAt
    let eigenvalue := work.eigenvalueOf settings
    ∃ vector,
      pair.eigenvector = some vector ∧
        let rays :=
          List.zipWith Block.rayOf seen kept ++
            SquareMatrix.rankOne vector 1 ::
              later.map fun block => SquareMatrix.zeros block.size
        let value := rayValue settings.epsilon work.bounds.lowerAt blocks rays
        rays.length = blocks.length ∧
          (∀ block ∈ seen, block.size = 0 ∧ eigenvalue block = 0 ∨
            IsSmallestEigenvalue (slack block) (eigenvalue block) ∧
              -settings.feasTolerance ≤ eigenvalue block) ∧
          IsSmallestEigenvalue (slack violated) (eigenvalue violated) ∧
          eigenvalue violated < -settings.feasTolerance ∧
          value = (seen.map eigenvalue).sum + eigenvalue violated ∧
          (VanishElsewhere seen.length blocks rays ∧
              value < -settings.feasTolerance ↔
            ∀ block ∈ seen, block.size = 0) := by
  intro slack eigenvalue
  obtain ⟨isEigenvalue, smallest, vector, isVector, _, isTrace⟩ :=
    (finds violated (by rw [isBlocks]; simp)).ray keepsVectors nonempty found
  obtain ⟨seenValue, seenVanish, seenHold⟩ :=
    rays_of_passes keepsVectors
      (fun block inSeen => finds block (by rw [isBlocks]; simp [inSeen]))
      passes
  obtain ⟨laterValue, laterVanish⟩ :=
    rays_of_unseen settings.epsilon work.bounds.lowerAt later
  have raysLength :
      seen.length = (List.zipWith Block.rayOf seen kept).length := by
    simp [passes.length_eq]
  refine ⟨vector, isVector, ?_⟩
  generalize List.zipWith Block.rayOf seen kept = first
    at raysLength seenValue seenVanish ⊢
  intro rays value
  have isValue :
      value = (seen.map eigenvalue).sum + eigenvalue violated := by
    simp only [value, rays]
    rw [isBlocks, rayValue_append raysLength, rayValue_cons, seenValue,
      laterValue, add_zero, isTrace, ← isEigenvalue]
  have vanish :
      VanishElsewhere seen.length blocks rays ↔
        ∀ block ∈ seen, block.size = 0 := by
    have zipLength : (seen.zip first).length = seen.length := by
      simp [← raysLength]
    rw [VanishElsewhere, isBlocks, List.zip_append raysLength,
      List.zip_cons_cons,
      List.eraseIdx_append_of_length_le zipLength.le, zipLength,
      Nat.sub_self, List.eraseIdx_cons_zero, List.forall_mem_append,
      seenVanish]
    exact and_iff_left laterVanish
  rw [← isEigenvalue] at smallest below
  refine
    ⟨by simp [rays, isBlocks, ← raysLength], seenHold, smallest, below,
      isValue, ?_⟩
  constructor
  · exact fun certifies => vanish.mp certifies.1
  · intro noRows
    refine ⟨vanish.mpr noRows, ?_⟩
    have noValue : (seen.map eigenvalue).sum = 0 := by
      refine List.sum_eq_zero fun number member => ?_
      obtain ⟨block, inSeen, rfl⟩ := List.mem_map.mp member
      exact if_pos (noRows block inSeen)
    rw [isValue, noValue, zero_add]
    exact below

end Workspace

namespace Session

variable {σ τ : Type}

/-- The matrices of a session whose check has kept vectors up to a violated block. -/
theorem fixedBlocks?_eq
    {session : Session σ τ K}
    {seen later : List (Block K)}
    {violated : Block K}
    {kept : List (Option (List K))}
    {vector : List K}
    (isBlocks : session.store.blocks = seen ++ violated :: later)
    (isKept : session.run.work.fixedVectors = kept ++ [some vector])
    (sameLength : kept.length = seen.length) :
    session.fixedBlocks? true =
      some
        (List.zipWith Block.rayOf seen kept ++
          SquareMatrix.rankOne vector 1 ::
            later.map fun block => SquareMatrix.zeros block.size) := by
  rw [← map_zipIdx_rayOf violated vector sameLength]
  unfold fixedBlocks?
  rw [isBlocks, isKept, if_pos (by simp)]
  congr 1

variable [Solver σ K] [OneVariableSolver τ K]

/--
What the primal answer certifies when all variables are fixed and a block is
violated.  The blocks before the violated one are satisfied at the point that is
given out.  The inner products of the slacks at that point with the matrices that
are given out add up to the smallest eigenvalues of all these blocks, and the
answer consists of a certificate for the violated block alone exactly if no block
before it has a row.
-/
theorem fixedRay_certifies_iff
    {session : Session σ τ K}
    {options : SolveOptions K}
    {watch : Nat → K}
    (reachable : session.Reachable)
    (keepsVectors : session.settings.keepsFixedVectors = true)
    (unitEigenpairs :
      ∀ block ∈ session.store.blocks,
        ((stateAfter (solve options watch session)).run.work.fixedMatrix
          session.settings.epsilon block).EigenpairIsUnit block.size)
    (isVerdict :
      (stateAfter (solve options watch session)).run.verdict =
        .infeasible .fixedPoint) :
    let next := stateAfter (solve options watch session)
    let tolerance := session.settings.feasTolerance
    let epsilon := session.settings.epsilon
    ∃ values seen violated later rays,
      ∃ eigenvalue : Block K → K,
      next.dualSolution = .ok (session.sentinel, values) ∧
        next.primalBlocks = .ok (some rays) ∧
        session.store.blocks = seen ++ violated :: later ∧
        rays.length = session.store.blocks.length ∧
        (∀ block ∈ seen, block.size = 0 ∧ eigenvalue block = 0 ∨
          IsSmallestEigenvalue (block.slackAt epsilon (values.getD · 0))
              (eigenvalue block) ∧
            -tolerance ≤ eigenvalue block) ∧
        IsSmallestEigenvalue (violated.slackAt epsilon (values.getD · 0))
          (eigenvalue violated) ∧
        eigenvalue violated < -tolerance ∧
        rayValue epsilon (values.getD · 0) session.store.blocks rays =
          (seen.map eigenvalue).sum + eigenvalue violated ∧
        (VanishElsewhere seen.length session.store.blocks rays ∧
            rayValue epsilon (values.getD · 0) session.store.blocks rays <
              -tolerance ↔
          ∀ block ∈ seen, block.size = 0) := by
  intro next tolerance epsilon
  have isNext : next.run.verdict = .infeasible .fixedPoint := isVerdict
  have notUnsolved : next.run.verdict ≠ .unsolved := by
    rw [isNext]
    nofun
  have kept := solve_keepsAssignment options watch session
  have sameSentinel : next.sentinel = session.sentinel :=
    congrArg Prod.fst kept
  have sameStore : next.store = session.store :=
    congrArg (fun assignment => assignment.2.1) kept
  obtain ⟨_, presolved⟩ :=
    (solve_exits_of_verdict notUnsolved).of_fixedPoint
      (show _ = if false then _ else _ from isVerdict)
  obtain ⟨seen, violated, later, kept, pair, isBlocks, isKept, passes, nonempty, found, below⟩ :=
    Workspace.checkBlocks_stops (Workspace.presolve_checks presolved)
  change session.store.blocks = _ at isBlocks
  obtain ⟨program, represents, indexed⟩ := reachable.atRest.held
  have finds
      (block : Block K)
      (stored : block ∈ session.store.blocks) :
      next.run.work.FindsUnits session.settings session.store.variableCount
        block :=
    ⟨(represents.inRange indexed).2 block stored, unitEigenpairs block stored⟩
  obtain ⟨vector, isVector, isLength, rest⟩ :=
    Workspace.rays_of_stop keepsVectors finds isBlocks passes nonempty found
      below
  rw [isVector] at isKept
  have isRays :=
    fixedBlocks?_eq (sameStore ▸ isBlocks) isKept passes.length_eq.symm
  refine
    ⟨next.run.work.bounds.lower, seen, violated, later, _,
      next.run.work.eigenvalueOf session.settings, ?_, ?_, isBlocks, isLength,
      rest⟩
  · simp only [dualSolution, Session.objectiveValue, isNext, sameSentinel]
    rfl
  · simp only [primalBlocks, isNext]
    exact congrArg Except.ok isRays

/-- A session with a variable fixed at one and a block for each of some slopes. -/
def rayedSession
    (slopes : List ℚ) :
    Session (ScriptedSolver ℚ) NewtonMethod ℚ :=
  loaded { Settings.standard with keepsFixedVectors := true }
    {
      objective := [1]
      lower := [1]
      upper := [1]
      integral := none
      blocks := slopes.map (slopedBlock · 0)
      rows := []
    }

/-- The answer for a single block that is violated is a certificate. -/
theorem rayedSession_certifies :
    ∃ values rays,
      (solved (rayedSession [-1])).dualSolution =
          .ok (standardSentinel, values) ∧
        (solved (rayedSession [-1])).primalBlocks = .ok (some rays) ∧
        VanishElsewhere 0 (rayedSession [-1]).store.blocks rays ∧
        rayValue (rayedSession [-1]).settings.epsilon (values.getD · 0)
            (rayedSession [-1]).store.blocks rays <
          -(rayedSession [-1]).settings.feasTolerance := by
  have reachable : (rayedSession [-1]).Reachable := loaded_reachable _ _
  have oneBlock :
      (rayedSession [-1]).store.blocks = [slopedBlock (-1) 0] := by
    decide +kernel
  have sentinel : (rayedSession [-1]).sentinel = standardSentinel := by
    decide +kernel
  have slack :
      ((solved (rayedSession [-1])).run.work.fixedMatrix
        (rayedSession [-1]).settings.epsilon (slopedBlock (-1) 0)).size = 1 := by
    decide +kernel
  obtain ⟨values, seen, violated, later, rays, _, dual, primal, isBlocks, _, _, _, _, _, certifies⟩ :=
    fixedRay_certifies_iff reachable (by decide +kernel)
      (fun block stored => by
        rw [oneBlock, List.mem_singleton] at stored
        subst stored
        exact SquareMatrix.eigenpairIsUnit_of_single slack)
      (show (solved (rayedSession [-1])).run.verdict = _ by decide +kernel)
  have noneSeen : seen = [] := by
    rw [oneBlock] at isBlocks
    cases seen with
    | nil => rfl
    | cons first others => simp at isBlocks
  subst noneSeen
  rw [sentinel] at dual
  exact ⟨values, rays, dual, primal, certifies.mpr (by simp)⟩

/--
With a satisfied block before the violated one, the answer has a matrix for both, and
the inner products add up to four.
-/
theorem rayedSession_does_not_certify :
    let blocks := (rayedSession [5, -1]).store.blocks
    blocks = [slopedBlock 5 0, slopedBlock (-1) 0] ∧
      (solved (rayedSession [5, -1])).run.verdict =
        .infeasible .fixedPoint ∧
      (solved (rayedSession [5, -1])).dualSolution =
        .ok (standardSentinel, [1]) ∧
      (solved (rayedSession [5, -1])).primalBlocks =
        .ok (some [unitEntry, unitEntry]) ∧
      ¬ VanishElsewhere 1 blocks [unitEntry, unitEntry] ∧
      rayValue (rayedSession [5, -1]).settings.epsilon ([1].getD · 0) blocks
          [unitEntry, unitEntry] =
        4 := by
  refine ⟨?_, ?_, ?_, ?_, ?_, ?_⟩
  all_goals decide +kernel

end Session

end SdpRelay
