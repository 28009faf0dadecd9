import Mathlib
import SdpRelay.PenaltySchedule
import SdpRelay.Proofs.ExactField

namespace SdpRelay

/-!
# The length of a penalty schedule

A schedule goes on as long as neither quantity has passed its limit, whatever is
observed.  In exact arithmetic both quantities are geometric sequences, so that the
longest schedule makes every rise and every cut but one before the limits are
passed.  How many rises and cuts there are depends on how far a single one of them
leads beyond its limit, and not on the number of steps that was asked for alone:
near a limit the factors are close to one, and the last stretch takes many steps.
-/

/-- In an exact field with roots, the powers that a schedule takes are roots. -/
class HasRoots (K : Type) [ExactField K] : Prop where
  power_pos {base : K} (positive : 0 < base) (count : Nat) :
    0 < Scalar.power base (1 / (count : K))
  power_pow {base : K} (positive : 0 < base) {count : Nat} (some : 0 < count) :
    Scalar.power base (1 / (count : K)) ^ count = base

/-- The real numbers, with their own roots and powers. -/
noncomputable instance : ExactField ℝ where
  sqrt := Real.sqrt
  hypot a b := Real.sqrt (a * a + b * b)
  power base exponent := base ^ exponent
  invSqrtTwo := Real.sqrt (1 / 2)

instance : HasRoots ℝ where
  power_pos positive count := Real.rpow_pos_of_pos positive _
  power_pow {base} positive {count} some := by
    change (base ^ (1 / (count : ℝ))) ^ count = base
    rw [one_div]
    exact Real.rpow_inv_natCast_pow positive.le some.ne'

namespace PenaltySchedule

section Loop

variable {α : Type} [Scalar α]

/-- The schedule after a number of moves, if every observation is followed. -/
def moved
    (schedule : PenaltySchedule α)
    (seen : Nat → PenaltyObservation) :
    Nat → PenaltySchedule α
  | 0 => schedule
  | count + 1 => (schedule.moved seen count).move (seen count).step

/-- Going on while that is possible takes at least a number of steps, none of which is the end. -/
def Takes
    (schedule : PenaltySchedule α)
    (seen : Nat → PenaltyObservation)
    (count : Nat) :
    Prop :=
  ∀ index < count,
    (schedule.moved seen index).canContinue = true ∧
      (seen index).step ≠ .done

end Loop

variable {K : Type} [ExactField K]

/-- A schedule after a number of rises of the penalty and of cuts of the gap tolerance. -/
def progressed
    (schedule : PenaltySchedule K)
    (rises cuts : Nat) :
    PenaltySchedule K :=
  {
    schedule with
    penalty := schedule.penalty * schedule.penaltyFactor ^ rises
    gap := schedule.gap * schedule.gapFactor ^ cuts
  }

theorem move_increase
    (schedule : PenaltySchedule K)
    (rises cuts : Nat) :
    (schedule.progressed rises cuts).move .increasePenalty =
      schedule.progressed (rises + 1) cuts := by
  simp only [progressed, move, pow_succ, mul_assoc]

theorem move_tighten
    (schedule : PenaltySchedule K)
    (rises cuts : Nat) :
    (schedule.progressed rises cuts).move .tightenGap =
      schedule.progressed rises (cuts + 1) := by
  simp only [progressed, move, pow_succ, mul_assoc]

/-- How many of the first observations of a stream ask for a certain move. -/
def movesIn
    (seen : Nat → PenaltyObservation)
    (step : PenaltyStep)
    (count : Nat) :
    Nat :=
  Nat.count (fun index => (seen index).step = step) count

theorem movesIn_succ
    (seen : Nat → PenaltyObservation)
    (step : PenaltyStep)
    (count : Nat) :
    movesIn seen step (count + 1) =
      movesIn seen step count + if (seen count).step = step then 1 else 0 :=
  Nat.count_succ _ _

theorem movesIn_mono
    (seen : Nat → PenaltyObservation)
    (step : PenaltyStep)
    {count later : Nat}
    (fewer : count ≤ later) :
    movesIn seen step count ≤ movesIn seen step later :=
  Nat.count_monotone _ fewer

/-- The moves of a stream are its rises and its cuts. -/
theorem moved_eq
    (schedule : PenaltySchedule K)
    (seen : Nat → PenaltyObservation)
    (count : Nat) :
    schedule.moved seen count =
      schedule.progressed (movesIn seen .increasePenalty count)
        (movesIn seen .tightenGap count) := by
  induction count with
  | zero =>
      simp [moved, progressed, movesIn]
  | succ count inductionHypothesis =>
      rw [moved, inductionHypothesis, movesIn_succ, movesIn_succ]
      cases (seen count).step with
      | done => rfl
      | increasePenalty => exact schedule.move_increase _ _
      | tightenGap => exact schedule.move_tighten _ _

/-- Until the end, every observation asks for a rise or a cut. -/
theorem movesIn_add
    {seen : Nat → PenaltyObservation}
    {count : Nat}
    (notDone : ∀ index < count, (seen index).step ≠ .done) :
    movesIn seen .increasePenalty count + movesIn seen .tightenGap count =
      count := by
  induction count with
  | zero =>
      simp [movesIn]
  | succ count inductionHypothesis =>
      have before :=
        inductionHypothesis fun index below => notDone index (by omega)
      have last := notDone count (by omega)
      rw [movesIn_succ, movesIn_succ]
      cases isStep : (seen count).step with
      | done => exact absurd isStep last
      | increasePenalty => simp; omega
      | tightenGap => simp; omega

/-- A schedule that moves each quantity towards its limit. -/
structure Moving (schedule : PenaltySchedule K) : Prop where
  penalty : 0 < schedule.penalty
  gap : 0 < schedule.gap
  penaltyFactor : 1 < schedule.penaltyFactor
  gapFactor_pos : 0 < schedule.gapFactor
  gapFactor_lt_one : schedule.gapFactor < 1

theorem canContinue_progressed
    (schedule : PenaltySchedule K)
    (rises cuts : Nat) :
    (schedule.progressed rises cuts).canContinue = true ↔
      schedule.penalty * schedule.penaltyFactor ^ rises <
          schedule.maxPenalty + schedule.epsilon ∧
        0.99 * minimalGap < schedule.gap * schedule.gapFactor ^ cuts := by
  unfold canContinue
  rw [Bool.and_eq_true]
  exact and_congr decide_eq_true_iff decide_eq_true_iff

/-- What can go on after some moves could go on after fewer. -/
theorem Moving.canContinue_of_le
    {schedule : PenaltySchedule K}
    (moving : schedule.Moving)
    {rises laterRises cuts laterCuts : Nat}
    (fewerRises : rises ≤ laterRises)
    (fewerCuts : cuts ≤ laterCuts)
    (later : (schedule.progressed laterRises laterCuts).canContinue = true) :
    (schedule.progressed rises cuts).canContinue = true := by
  rw [canContinue_progressed] at later ⊢
  constructor
  · refine lt_of_le_of_lt ?_ later.1
    exact
      mul_le_mul_of_nonneg_left
        (pow_le_pow_right₀ moving.penaltyFactor.le fewerRises)
        moving.penalty.le
  · refine later.2.trans_le ?_
    exact
      mul_le_mul_of_nonneg_left
        (pow_le_pow_of_le_one moving.gapFactor_pos.le
          moving.gapFactor_lt_one.le fewerCuts)
        moving.gap.le

/-- First some rises and then cuts. -/
def risesThenCuts (rises index : Nat) : PenaltyObservation :=
  {
    acceptable := decide (rises ≤ index)
    feasible := false
    atBound := false
  }

theorem step_risesThenCuts (rises index : Nat) :
    (risesThenCuts rises index).step =
      if index < rises then .increasePenalty else .tightenGap := by
  by_cases below : index < rises
  · simp [risesThenCuts, PenaltyObservation.step, below]
  · simp [risesThenCuts, PenaltyObservation.step, below, not_lt.mp below]

/-- Some stream of observations leads to any number of rises and cuts. -/
theorem moved_risesThenCuts
    (schedule : PenaltySchedule K)
    (rises cuts : Nat) :
    schedule.moved (risesThenCuts rises) (rises + cuts) =
      schedule.progressed rises cuts := by
  have rising {count : Nat} (within : count ≤ rises) :
      schedule.moved (risesThenCuts rises) count =
        schedule.progressed count 0 := by
    induction count with
    | zero =>
        simp [moved, progressed]
    | succ count inductionHypothesis =>
        rw [moved, inductionHypothesis (by omega), step_risesThenCuts,
          if_pos (by omega), move_increase]
  induction cuts with
  | zero =>
      exact rising le_rfl
  | succ cuts inductionHypothesis =>
      rw [← Nat.add_assoc, moved, inductionHypothesis, step_risesThenCuts,
        if_neg (by omega), move_tighten]

/-- A schedule can take one more step exactly if it can go on after some rises and cuts. -/
theorem Moving.exists_takes_succ_iff
    {schedule : PenaltySchedule K}
    (moving : schedule.Moving)
    (count : Nat) :
    (∃ seen, schedule.Takes seen (count + 1)) ↔
      ∃ rises cuts,
        rises + cuts = count ∧
          (schedule.progressed rises cuts).canContinue = true := by
  constructor
  · rintro ⟨seen, takes⟩
    refine
      ⟨movesIn seen .increasePenalty count, movesIn seen .tightenGap count,
        movesIn_add fun index below => (takes index (by omega)).2, ?_⟩
    rw [← schedule.moved_eq]
    exact (takes count (by omega)).1
  · rintro ⟨rises, cuts, rfl, goesOn⟩
    refine ⟨risesThenCuts rises, fun index below => ⟨?_, ?_⟩⟩
    · have within : index ≤ rises + cuts := by omega
      rw [← schedule.moved_risesThenCuts, schedule.moved_eq] at goesOn
      rw [schedule.moved_eq]
      exact
        moving.canContinue_of_le (movesIn_mono _ _ within)
          (movesIn_mono _ _ within) goesOn
    · rw [step_risesThenCuts]
      split
      · exact nofun
      · exact nofun

/-- After this many rises, and not before, the penalty has passed its limit. -/
def PassesAfterRises
    (schedule : PenaltySchedule K)
    (rises : Nat) :
    Prop :=
  IsLeast
    {count |
      schedule.maxPenalty + schedule.epsilon ≤
        schedule.penalty * schedule.penaltyFactor ^ count}
    rises

/-- After this many cuts, and not before, the gap tolerance has passed its limit. -/
def PassesAfterCuts
    (schedule : PenaltySchedule K)
    (cuts : Nat) :
    Prop :=
  IsLeast
    {count | schedule.gap * schedule.gapFactor ^ count ≤ 0.99 * minimalGap}
    cuts

theorem minimalGap_pos : 0 < (minimalGap : K) := by
  norm_num [minimalGap]

/-- Both quantities pass their limits in a field without infinite numbers. -/
theorem Moving.passes
    [Archimedean K]
    {schedule : PenaltySchedule K}
    (moving : schedule.Moving) :
    (∃ rises, schedule.PassesAfterRises rises) ∧
      ∃ cuts, schedule.PassesAfterCuts cuts := by
  constructor
  · obtain ⟨rises, above⟩ :=
      pow_unbounded_of_one_lt
        ((schedule.maxPenalty + schedule.epsilon) / schedule.penalty)
        moving.penaltyFactor
    rw [div_lt_iff₀' moving.penalty] at above
    exact ⟨_, Nat.sInf_mem ⟨rises, above.le⟩, fun _ => Nat.sInf_le⟩
  · have floor : 0 < 0.99 * minimalGap / schedule.gap :=
      div_pos (mul_pos (by norm_num) minimalGap_pos) moving.gap
    obtain ⟨cuts, below⟩ :=
      exists_pow_lt_of_lt_one floor moving.gapFactor_lt_one
    rw [lt_div_iff₀' moving.gap] at below
    exact ⟨_, Nat.sInf_mem ⟨cuts, below.le⟩, fun _ => Nat.sInf_le⟩

/-- A schedule can go on as long as neither the rises nor the cuts are used up. -/
theorem Moving.canContinue_iff
    {schedule : PenaltySchedule K}
    (moving : schedule.Moving)
    {allRises allCuts : Nat}
    (lastRise : schedule.PassesAfterRises allRises)
    (lastCut : schedule.PassesAfterCuts allCuts)
    (rises cuts : Nat) :
    (schedule.progressed rises cuts).canContinue = true ↔
      rises < allRises ∧ cuts < allCuts := by
  constructor
  · intro goesOn
    constructor
    · by_contra used
      have early :=
        moving.canContinue_of_le (not_lt.mp used) cuts.zero_le goesOn
      rw [canContinue_progressed] at early
      exact early.1.not_ge lastRise.1
    · by_contra used
      have early :=
        moving.canContinue_of_le rises.zero_le (not_lt.mp used) goesOn
      rw [canContinue_progressed] at early
      exact early.2.not_ge lastCut.1
  · rintro ⟨riseLeft, cutLeft⟩
    rw [canContinue_progressed]
    constructor
    · exact not_le.mp fun passed => (lastRise.2 passed).not_gt riseLeft
    · exact not_le.mp fun passed => (lastCut.2 passed).not_gt cutLeft

/-- The longest schedule makes all rises and cuts but one before its last step. -/
theorem Moving.exists_takes_iff
    {schedule : PenaltySchedule K}
    (moving : schedule.Moving)
    {rises cuts : Nat}
    (lastRise : schedule.PassesAfterRises rises)
    (lastCut : schedule.PassesAfterCuts cuts)
    (count : Nat) :
    (∃ seen, schedule.Takes seen count) ↔
      count = 0 ∨ 0 < rises ∧ 0 < cuts ∧ count < rises + cuts := by
  cases count with
  | zero =>
      refine iff_of_true ⟨fun _ => .none, ?_⟩ (.inl rfl)
      exact fun index below => absurd below index.not_lt_zero
  | succ count =>
      rw [moving.exists_takes_succ_iff]
      simp only [moving.canContinue_iff lastRise lastCut]
      constructor
      · rintro ⟨madeRises, madeCuts, rfl, riseLeft, cutLeft⟩
        exact .inr (by omega)
      · rintro (none | ⟨someRise, someCut, within⟩)
        · exact absurd none count.succ_ne_zero
        · exact
            ⟨min count (rises - 1), count - min count (rises - 1), by omega,
              by omega, by omega⟩

/-- The length has a bound exactly if there are not too many rises and cuts. -/
theorem Moving.takes_le_iff
    {schedule : PenaltySchedule K}
    (moving : schedule.Moving)
    {rises cuts : Nat}
    (lastRise : schedule.PassesAfterRises rises)
    (lastCut : schedule.PassesAfterCuts cuts)
    (someRise : 0 < rises)
    (bound : Nat) :
    (∀ seen count, schedule.Takes seen count → count ≤ bound) ↔
      cuts = 0 ∨ rises + cuts ≤ bound + 1 := by
  have takes := moving.exists_takes_iff lastRise lastCut
  constructor
  · intro bounded
    by_contra long
    obtain ⟨seen, taken⟩ := (takes (rises + cuts - 1)).mpr (by omega)
    have atMost := bounded seen _ taken
    omega
  · intro short seen count taken
    have within := (takes count).mp ⟨seen, taken⟩
    omega

/-- A schedule that comes to both limits with the steps that were asked for. -/
structure Reaches
    (schedule : PenaltySchedule K)
    (increases : Nat) :
    Prop
    extends schedule.Moving where
  epsilon : 0 < schedule.epsilon
  maximum :
    schedule.penalty * schedule.penaltyFactor ^ increases = schedule.maxPenalty
  minimum : schedule.gap * schedule.gapFactor ^ increases = minimalGap

namespace Reaches

variable {schedule : PenaltySchedule K} {increases : Nat}

/-- Beyond the steps that were asked for, the penalty rises from its maximum. -/
theorem penalty_after
    (reaches : schedule.Reaches increases)
    (more : Nat) :
    schedule.penalty * schedule.penaltyFactor ^ (increases + more) =
      schedule.maxPenalty * schedule.penaltyFactor ^ more := by
  rw [pow_add, ← mul_assoc, reaches.maximum]

/-- Beyond the steps that were asked for, the gap tolerance falls from its minimum. -/
theorem gap_after
    (reaches : schedule.Reaches increases)
    (more : Nat) :
    schedule.gap * schedule.gapFactor ^ (increases + more) =
      minimalGap * schedule.gapFactor ^ more := by
  rw [pow_add, ← mul_assoc, reaches.minimum]

/-- At its limits a schedule can still go on. -/
theorem canContinue (reaches : schedule.Reaches increases) :
    (schedule.progressed increases increases).canContinue = true := by
  rw [canContinue_progressed, reaches.maximum, reaches.minimum]
  refine ⟨lt_add_of_pos_right _ reaches.epsilon, ?_⟩
  exact mul_lt_of_lt_one_left minimalGap_pos (by norm_num)

/-- The length has a bound exactly if few moves lead from both limits beyond them. -/
theorem takes_le_iff
    (reaches : schedule.Reaches increases)
    {rises cuts : Nat}
    (lastRise : schedule.PassesAfterRises rises)
    (lastCut : schedule.PassesAfterCuts cuts)
    (spare : Nat) :
    (∀ seen count,
        schedule.Takes seen count → count ≤ 2 * increases + spare) ↔
      ∃ moreRises moreCuts,
        moreRises + moreCuts ≤ spare + 1 ∧
          schedule.maxPenalty + schedule.epsilon ≤
            schedule.maxPenalty * schedule.penaltyFactor ^ moreRises ∧
          schedule.gapFactor ^ moreCuts ≤ 0.99 := by
  obtain ⟨riseLeft, cutLeft⟩ :=
    (reaches.toMoving.canContinue_iff lastRise lastCut _ _).mp
      reaches.canContinue
  rw [reaches.toMoving.takes_le_iff lastRise lastCut (by omega)]
  constructor
  · intro short
    obtain ⟨moreRises, rfl⟩ := Nat.exists_eq_add_of_lt riseLeft
    obtain ⟨moreCuts, rfl⟩ := Nat.exists_eq_add_of_lt cutLeft
    have risen := lastRise.1
    have cut := lastCut.1
    rw [Set.mem_ofPred_eq, add_assoc, reaches.penalty_after] at risen
    rw [Set.mem_ofPred_eq, add_assoc, reaches.gap_after, mul_comm] at cut
    exact
      ⟨moreRises + 1, moreCuts + 1, by omega, risen,
        le_of_mul_le_mul_right cut minimalGap_pos⟩
  · rintro ⟨moreRises, moreCuts, few, risen, cut⟩
    have rises_le : rises ≤ increases + moreRises := by
      refine lastRise.2 ?_
      rw [Set.mem_ofPred_eq, reaches.penalty_after]
      exact risen
    have cuts_le : cuts ≤ increases + moreCuts := by
      refine lastCut.2 ?_
      rw [Set.mem_ofPred_eq, reaches.gap_after, mul_comm]
      exact mul_le_mul_of_nonneg_right cut minimalGap_pos.le
    exact .inr (by omega)

end Reaches

section Start

variable [HasRoots K] {penalty maxPenalty gap epsilon : K}

theorem gapRatio_pos
    (gapPositive : 0 < gap)
    (increases : Nat) :
    0 < gapRatio gap increases := by
  have ratio : 0 < minimalGap / gap := div_pos minimalGap_pos gapPositive
  unfold gapRatio
  split
  · exact div_pos (mul_pos (by norm_num) minimalGap_pos) gapPositive
  · exact HasRoots.power_pos ratio increases

/-- A schedule with positive quantities moves both of them. -/
theorem start_moving
    (penaltyPositive : 0 < penalty)
    (gapPositive : 0 < gap)
    (increases : Nat) :
    (start penalty maxPenalty gap increases epsilon).Moving where
  penalty := penaltyPositive
  gap := gapPositive
  penaltyFactor := by
    unfold start
    dsimp only
    split
    · assumption
    · norm_num
  gapFactor_pos := by
    unfold start
    dsimp only
    split
    · exact gapRatio_pos gapPositive increases
    · norm_num
  gapFactor_lt_one := by
    unfold start
    dsimp only
    split
    · assumption
    · norm_num

/-- Below its maximum, the penalty is taken to it by the steps that were asked for. -/
theorem start_penaltyFactor_pow
    (penaltyPositive : 0 < penalty)
    (below : penalty < maxPenalty)
    {increases : Nat}
    (some : 0 < increases) :
    (start penalty maxPenalty gap increases epsilon).penaltyFactor ^ increases =
      maxPenalty / penalty := by
  have ratio : 1 < maxPenalty / penalty :=
    (one_lt_div penaltyPositive).mpr below
  have ratioPositive : 0 < maxPenalty / penalty := one_pos.trans ratio
  have isRatio :
      penaltyRatio penalty maxPenalty increases =
        Scalar.power (maxPenalty / penalty) (1 / (increases : K)) :=
    if_neg some.ne'
  have root :
      penaltyRatio penalty maxPenalty increases ^ increases =
        maxPenalty / penalty := by
    rw [isRatio]
    exact HasRoots.power_pow ratioPositive some
  have nonneg : 0 ≤ penaltyRatio penalty maxPenalty increases := by
    rw [isRatio]
    exact (HasRoots.power_pos ratioPositive increases).le
  have grows : 1 < penaltyRatio penalty maxPenalty increases := by
    by_contra small
    have atMost := pow_le_one₀ nonneg (not_lt.mp small) (n := increases)
    rw [root] at atMost
    exact ratio.not_ge atMost
  unfold start
  dsimp only
  rw [if_pos grows]
  exact root

/-- Above its minimum, the gap tolerance is taken to it by the steps that were asked for. -/
theorem start_gapFactor_pow
    (above : minimalGap < gap)
    {increases : Nat}
    (some : 0 < increases) :
    (start penalty maxPenalty gap increases epsilon).gapFactor ^ increases =
      minimalGap / gap := by
  have gapPositive : 0 < gap := minimalGap_pos.trans above
  have ratioPositive : 0 < minimalGap / gap := div_pos minimalGap_pos gapPositive
  have ratio : minimalGap / gap < 1 := (div_lt_one gapPositive).mpr above
  have root : gapRatio gap increases ^ increases = minimalGap / gap := by
    rw [gapRatio, if_neg some.ne']
    exact HasRoots.power_pow ratioPositive some
  have shrinks : gapRatio gap increases < 1 := by
    by_contra large
    have atLeast := one_le_pow₀ (not_lt.mp large) (n := increases)
    rw [root] at atLeast
    exact ratio.not_ge atLeast
  unfold start
  dsimp only
  rw [if_pos shrinks]
  exact root

/-- A schedule that starts away from its limits comes to both with the steps that were asked for. -/
theorem start_reaches
    (penaltyPositive : 0 < penalty)
    (below : penalty < maxPenalty)
    (above : minimalGap < gap)
    (epsilonPositive : 0 < epsilon)
    {increases : Nat}
    (some : 0 < increases) :
    (start penalty maxPenalty gap increases epsilon).Reaches increases where
  toMoving :=
    start_moving penaltyPositive (minimalGap_pos.trans above) increases
  epsilon := epsilonPositive
  maximum := by
    rw [start_penaltyFactor_pow penaltyPositive below some]
    exact mul_div_cancel₀ maxPenalty penaltyPositive.ne'
  minimum := by
    rw [start_gapFactor_pow above some]
    exact mul_div_cancel₀ minimalGap (minimalGap_pos.trans above).ne'

/--
In exact arithmetic every schedule ends, whatever is observed, and the longest one
makes all rises and all cuts but one before its last step.  It has at most four
steps more than twice the number of increases exactly if the rises and cuts that
pass the limits are at most five more than that; and if the schedule starts away
from its limits, exactly if at most five moves lead from the limits beyond them.
-/
theorem schedule_length_le_iff
    [Archimedean K]
    (penaltyPositive : 0 < penalty)
    (ordered : penalty ≤ maxPenalty)
    (gapPositive : 0 < gap)
    (epsilonPositive : 0 < epsilon)
    (increases : Nat) :
    let schedule : PenaltySchedule K :=
      start penalty maxPenalty gap increases epsilon
    (∃ rises cuts,
      schedule.PassesAfterRises rises ∧
        schedule.PassesAfterCuts cuts ∧
        (∀ count,
          (∃ seen, schedule.Takes seen count) ↔
            count = 0 ∨ 0 < rises ∧ 0 < cuts ∧ count < rises + cuts) ∧
        ((∀ seen count,
            schedule.Takes seen count → count ≤ 2 * increases + 4) ↔
          cuts = 0 ∨ rises + cuts ≤ 2 * increases + 5)) ∧
      (0 < increases → penalty < maxPenalty → minimalGap < gap →
        ((∀ seen count,
            schedule.Takes seen count → count ≤ 2 * increases + 4) ↔
          ∃ moreRises moreCuts,
            moreRises + moreCuts ≤ 5 ∧
              maxPenalty + epsilon ≤
                maxPenalty * schedule.penaltyFactor ^ moreRises ∧
              schedule.gapFactor ^ moreCuts ≤ 0.99)) := by
  intro schedule
  have moving : schedule.Moving :=
    start_moving penaltyPositive gapPositive increases
  obtain ⟨⟨rises, lastRise⟩, cuts, lastCut⟩ := moving.passes
  have someRise : 0 < rises := by
    refine Nat.pos_of_ne_zero ?_
    rintro rfl
    have passed : maxPenalty + epsilon ≤ penalty * _ ^ 0 := lastRise.1
    rw [pow_zero, mul_one] at passed
    exact (passed.trans ordered).not_gt (lt_add_of_pos_right _ epsilonPositive)
  refine ⟨⟨rises, cuts, lastRise, lastCut, ?_, ?_⟩, ?_⟩
  · exact moving.exists_takes_iff lastRise lastCut
  · exact moving.takes_le_iff lastRise lastCut someRise _
  · intro some below above
    exact
      (start_reaches penaltyPositive below above epsilonPositive
        some).takes_le_iff lastRise lastCut 4

end Start

/-- With the standard settings one move leads beyond each limit, so the bound holds. -/
theorem standard_schedule_is_short :
    let schedule : PenaltySchedule ℝ := start 1e5 1e10 1e-4 8 1e-9
    ∀ seen count, schedule.Takes seen count → count ≤ 2 * 8 + 4 := by
  intro schedule
  have above : (minimalGap : ℝ) < 1e-4 := by norm_num [minimalGap]
  have moving : schedule.Moving :=
    start_moving (by norm_num) (by norm_num) 8
  have rise : schedule.penaltyFactor ^ 8 = 1e10 / 1e5 :=
    start_penaltyFactor_pow (by norm_num) (by norm_num) (by norm_num)
  have cut : schedule.gapFactor ^ 8 = minimalGap / 1e-4 :=
    start_gapFactor_pow above (by norm_num)
  have grows : 2 ≤ schedule.penaltyFactor := by
    by_contra small
    have below :=
      pow_lt_pow_left₀ (not_le.mp small) (zero_le_one.trans moving.penaltyFactor.le)
        (n := 8) (by norm_num)
    rw [rise] at below
    norm_num at below
  have shrinks : schedule.gapFactor ≤ 0.99 := by
    by_contra large
    have higher :=
      pow_lt_pow_left₀ (not_le.mp large) (by norm_num) (n := 8) (by norm_num)
    rw [cut] at higher
    norm_num [minimalGap] at higher
  refine
    ((schedule_length_le_iff (by norm_num) (by norm_num) (by norm_num)
      (by norm_num) 8).2 (by norm_num) (by norm_num) above).mpr ?_
  refine ⟨1, 1, by norm_num, ?_, ?_⟩
  · rw [pow_one]
    change (1e10 : ℝ) + 1e-9 ≤ 1e10 * schedule.penaltyFactor
    linarith
  · rw [pow_one]
    exact shrinks

/--
Just above the minimal gap tolerance a cut hardly changes it: twelve steps are made
where one increase was asked for.
-/
theorem schedule_near_minimalGap_is_longer :
    let schedule : PenaltySchedule ℝ := start 1e5 1e10 1.001e-10 1 1e-9
    (∃ seen, schedule.Takes seen 12) ∧
      ¬ ∀ seen count, schedule.Takes seen count → count ≤ 2 * 1 + 4 := by
  intro schedule
  have above : (minimalGap : ℝ) < 1.001e-10 := by norm_num [minimalGap]
  have moving : schedule.Moving :=
    start_moving (by norm_num) (by norm_num) 1
  have cut : schedule.gapFactor = minimalGap / 1.001e-10 := by
    have root : schedule.gapFactor ^ 1 = minimalGap / 1.001e-10 :=
      start_gapFactor_pow above one_pos
    rwa [pow_one] at root
  have longer : ∃ seen, schedule.Takes seen 12 := by
    refine (moving.exists_takes_succ_iff 11).mpr ⟨0, 11, rfl, ?_⟩
    rw [canContinue_progressed, cut]
    constructor
    · change (1e5 : ℝ) * _ ^ 0 < 1e10 + 1e-9
      norm_num
    · change 0.99 * minimalGap < (1.001e-10 : ℝ) * _
      norm_num [minimalGap]
  refine ⟨longer, fun bounded => ?_⟩
  obtain ⟨seen, taken⟩ := longer
  have short := bounded seen 12 taken
  omega

end PenaltySchedule

end SdpRelay
