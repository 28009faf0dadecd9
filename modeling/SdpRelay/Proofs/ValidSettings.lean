import SdpRelay.Proofs.DoubleOrder
import SdpRelay.Proofs.ExactField
import SdpRelay.Proofs.StoreChecks
import SdpRelay.Settings

namespace SdpRelay

/-!
# Valid settings

The check of settings accepts exactly those whose numbers are all positive and
finite and whose penalty does not exceed its maximum.  This needs a few laws of
the numbers, which hold of doubles as well as of exact fields.  The two ways of
taking over a suggested penalty parameter keep settings valid under conditions on
the suggestion, which are stated here as well.
-/

variable {α : Type}

/--
What the settings of a session rely on in their numbers.

Numbers that compare with nothing are not excluded: the laws are those that hold
of doubles as well as of exact fields.
-/
class SettingsArithmetic (α : Type) [Scalar α] : Prop where
  lt_asymm {a b : α} (below : a < b) : ¬ b < a
  not_lt_iff_le {a b : α}
      (aFinite : Scalar.isFinite a = true)
      (bFinite : Scalar.isFinite b = true) :
      ¬ b < a ↔ a ≤ b
  /-- Only a number below the second operand is chosen instead of it. -/
  smaller_eq {a b : α} (finite : Scalar.isFinite b = true) :
      Scalar.smaller a b = if a < b then a else b
  isFinite_of_lt {a b : α}
      (positive : 0 < a)
      (below : a < b)
      (finite : Scalar.isFinite b = true) :
      Scalar.isFinite a = true
  /-- Only zeros can be equal without being the same. -/
  eq_of_beq {a b : α} (positive : 0 < a) (equal : (a == b) = true) : a = b
  /-- The settings of a session that is given none pass their check. -/
  standard_validate : (Settings.standard : Settings α).validate = .ok ()

instance : SettingsArithmetic Float where
  lt_asymm := Double.lt_asymm
  not_lt_iff_le aFinite bFinite := by
    have cases :=
      Double.compare_cases (Double.isNaN_of_isFinite aFinite)
        (Double.isNaN_of_isFinite bFinite)
    constructor
    · intro notBelow
      rcases cases with ⟨_, atMost, _⟩ | ⟨_, atMost, _⟩ | ⟨_, _, below, _⟩
      · exact atMost
      · exact atMost
      · exact absurd below notBelow
    · intro atMost
      rcases cases with ⟨_, _, notBelow, _⟩ | ⟨_, _, notBelow, _⟩ | ⟨_, above, _⟩
      · exact notBelow
      · exact notBelow
      · exact absurd atMost above
  smaller_eq := Double.smallerDouble_eq
  isFinite_of_lt := Double.isFinite_of_lt
  eq_of_beq := Double.eq_of_beq
  standard_validate := rfl

namespace Settings

/-- Every number is positive and finite, and the penalty does not exceed its maximum. -/
structure Valid [Scalar α] (settings : Settings α) : Prop where
  positive : ∀ field, 0 < settings.get field
  finite : ∀ field, Scalar.isFinite (settings.get field) = true
  ordered : settings.penalty ≤ settings.maxPenalty

variable [Scalar α]

/-- Only the numbers of settings can make them invalid. -/
theorem Valid.ofNumbers
    {first second : Settings α}
    (valid : first.Valid)
    (same : second.get = first.get) :
    second.Valid where
  positive field := by rw [same]; exact valid.positive field
  finite field := by rw [same]; exact valid.finite field
  ordered := by
    have samePenalty : second.penalty = first.penalty := congrFun same .penalty
    have sameMaximum : second.maxPenalty = first.maxPenalty :=
      congrFun same .maxPenalty
    rw [samePenalty, sameMaximum]
    exact valid.ordered

/-- The check of complete settings looks at every number. -/
theorem validate_eq_ok_iff {settings : Settings α} :
    settings.validate = .ok () ↔
      (∀ field,
        0 < settings.get field ∧
          Scalar.isFinite (settings.get field) = true) ∧
        ¬ settings.maxPenalty < settings.penalty := by
  have all (field : SettingField) :
      field ∈
        [.epsilon, .gapTolerance, .feasTolerance, .penalty, .maxPenalty,
          .infeasibilityFactor] := by
    cases field <;> simp
  refine Check.then_eq_ok.trans (and_congr ?_ Check.ite_error_eq_ok)
  rw [Check.forM_eq_ok]
  constructor
  · intro passes field
    exact Check.ite_eq_ok.mp (passes field (all field))
  · intro inRange field _
    exact Check.ite_eq_ok.mpr (inRange field)

variable [SettingsArithmetic α]

/-- Settings pass their check exactly if they are valid. -/
theorem validate_iff_valid {settings : Settings α} :
    settings.validate = .ok () ↔ settings.Valid := by
  rw [validate_eq_ok_iff]
  constructor
  · rintro ⟨inRange, ordered⟩
    have penaltyFinite := (inRange .penalty).2
    have maximumFinite := (inRange .maxPenalty).2
    exact
      {
        positive := fun field => (inRange field).1
        finite := fun field => (inRange field).2
        ordered :=
          (SettingsArithmetic.not_lt_iff_le penaltyFinite maximumFinite).mp
            ordered
      }
  · intro valid
    refine ⟨fun field => ⟨valid.positive field, valid.finite field⟩, ?_⟩
    exact
      (SettingsArithmetic.not_lt_iff_le (valid.finite .penalty)
        (valid.finite .maxPenalty)).mpr valid.ordered

/-- Valid settings stay valid with other penalty parameters if these are in range and in order. -/
theorem Valid.withPenalties_iff
    {settings : Settings α}
    (valid : settings.Valid)
    (penalty maxPenalty : α) :
    ({ settings with penalty := penalty, maxPenalty := maxPenalty } :
        Settings α).Valid ↔
      (0 < penalty ∧ Scalar.isFinite penalty = true) ∧
        (0 < maxPenalty ∧ Scalar.isFinite maxPenalty = true) ∧
        ¬ maxPenalty < penalty := by
  rw [← validate_iff_valid, validate_eq_ok_iff]
  constructor
  · rintro ⟨inRange, ordered⟩
    exact ⟨inRange .penalty, inRange .maxPenalty, ordered⟩
  · rintro ⟨penaltyInRange, maximumInRange, ordered⟩
    refine ⟨fun field => ?_, ordered⟩
    have before := And.intro (valid.positive field) (valid.finite field)
    cases field with
    | penalty => exact penaltyInRange
    | maxPenalty => exact maximumInRange
    | _ => exact before

/-- A suggested penalty, cut off at the maximum, is valid unless it is not positive. -/
theorem Valid.cutPenalty_iff
    {settings : Settings α}
    (valid : settings.Valid)
    (suggested : α) :
    ({
        settings with
        penalty := Scalar.smaller suggested settings.maxPenalty
      } : Settings α).Valid ↔
      (suggested < settings.maxPenalty → 0 < suggested) := by
  have maximumPositive : 0 < settings.maxPenalty := valid.positive .maxPenalty
  have maximumFinite : Scalar.isFinite settings.maxPenalty = true :=
    valid.finite .maxPenalty
  refine (valid.withPenalties_iff _ settings.maxPenalty).trans ?_
  rw [SettingsArithmetic.smaller_eq maximumFinite]
  by_cases below : suggested < settings.maxPenalty
  · rw [if_pos below]
    constructor
    · exact fun inRange _ => inRange.1.1
    · intro sound
      have positive := sound below
      have finite :=
        SettingsArithmetic.isFinite_of_lt positive below maximumFinite
      exact
        ⟨⟨positive, finite⟩, ⟨maximumPositive, maximumFinite⟩,
          SettingsArithmetic.lt_asymm below⟩
  · rw [if_neg below]
    refine iff_of_true ?_ (fun above => absurd above below)
    exact
      ⟨⟨maximumPositive, maximumFinite⟩, ⟨maximumPositive, maximumFinite⟩,
        fun itself => SettingsArithmetic.lt_asymm itself itself⟩

/-- A suggested maximum, to which the penalty is lowered, is valid exactly if it is in range. -/
theorem Valid.loweredTo_iff
    {settings : Settings α}
    (valid : settings.Valid)
    (suggested : α) :
    (if suggested < settings.penalty then
        { settings with maxPenalty := suggested, penalty := suggested }
      else
        { settings with maxPenalty := suggested } : Settings α).Valid ↔
      0 < suggested ∧ Scalar.isFinite suggested = true := by
  have penaltyInRange :
      0 < settings.penalty ∧ Scalar.isFinite settings.penalty = true :=
    ⟨valid.positive .penalty, valid.finite .penalty⟩
  split
  · refine (valid.withPenalties_iff suggested suggested).trans ?_
    constructor
    · exact fun inRange => inRange.1
    · intro inRange
      exact
        ⟨inRange, inRange,
          fun itself => SettingsArithmetic.lt_asymm itself itself⟩
  · rename_i notBelow
    refine (valid.withPenalties_iff settings.penalty suggested).trans ?_
    constructor
    · exact fun inRange => inRange.2.1
    · exact fun inRange => ⟨penaltyInRange, inRange, notBelow⟩

end Settings

/-- An exact field has no exceptional values, so its order decides everything. -/
instance (priority := low) ExactField.settingsArithmetic
    {K : Type}
    [ExactField K] :
    SettingsArithmetic K where
  lt_asymm below := lt_asymm below
  not_lt_iff_le _ _ := not_lt
  smaller_eq {a b} _ := by
    change min a b = _
    rcases lt_or_ge a b with below | above
    · rw [if_pos below, min_eq_left below.le]
    · rw [if_neg above.not_gt, min_eq_right above]
  isFinite_of_lt _ _ _ := rfl
  eq_of_beq _ equal := of_decide_eq_true equal
  standard_validate := by
    refine Settings.validate_eq_ok_iff.mpr ⟨fun field => ⟨?_, rfl⟩, ?_⟩
    · cases field <;> norm_num [Settings.get, Settings.standard]
    · norm_num [Settings.standard]

end SdpRelay
