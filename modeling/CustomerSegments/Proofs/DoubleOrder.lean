import CustomerSegments.Proofs.DoubleValues
import CustomerSegments.Proofs.EqualValues
import Mathlib.Order.Compare

namespace CustomerSegments

open Float.Model UnpackedFloat

/-- A finite double in the form that comparisons rely on: its mantissa has 53 bits, or it has fewer and the
exponent is the least one. -/
inductive CanonicalDouble : UnpackedFloat → Prop
  | zero (s : Sign) : CanonicalDouble (.zero s)
  | finite {s : Sign} {m : Nat} {e : Int} {pos : 0 < m} (short : m < 2 ^ 53) (full : 2 ^ 52 ≤ m ∨ e = -1074)
      (least : -1074 ≤ e) : CanonicalDouble (.finite s m e pos)

section

variable {m m' : Nat} {e e' : Int}

/-- A full mantissa under a greater exponent makes a greater number. -/
theorem magnitude_lt_of_lt (short : m < 2 ^ 53) (full : 2 ^ 52 ≤ m') (below : e < e') :
    (m : ℚ) * 2 ^ e < m' * 2 ^ e' :=
  calc
    (m : ℚ) * 2 ^ e < 2 ^ 53 * 2 ^ e := by gcongr; exact_mod_cast short
    _ = 2 ^ 52 * 2 ^ (e + 1) := by rw [zpow_add_one₀ two_ne_zero]; ring
    _ ≤ m' * 2 ^ e' := by
      gcongr
      · exact_mod_cast full
      · exact one_le_two
      · exact below

/-- Exponents decide before mantissas. -/
theorem compare_magnitudes (short : m < 2 ^ 53) (full : 2 ^ 52 ≤ m ∨ e = -1074) (least : -1074 ≤ e)
    (short' : m' < 2 ^ 53) (full' : 2 ^ 52 ≤ m' ∨ e' = -1074) (least' : -1074 ≤ e') :
    (Ord.compare e e').then (Ord.compare m m') = Ord.compare ((m : ℚ) * 2 ^ e) (m' * 2 ^ e') := by
  rcases lt_trichotomy e e' with below | rfl | above
  · have smaller := magnitude_lt_of_lt short (full'.resolve_right (by omega)) below
    rw [compare_lt_iff_lt.2 below, compare_lt_iff_lt.2 smaller]
    rfl
  · have scale : (0 : ℚ) < 2 ^ e := by positivity
    rw [compare_eq_iff_eq.2 rfl, Ordering.eq_then]
    rcases lt_trichotomy m m' with below | rfl | above
    · rw [compare_lt_iff_lt.2 below, compare_lt_iff_lt.2 (by gcongr)]
    · rw [compare_eq_iff_eq.2 rfl, compare_eq_iff_eq.2 rfl]
    · rw [compare_gt_iff_gt.2 above, compare_gt_iff_gt.2 (by gcongr)]
  · have greater := magnitude_lt_of_lt short' (full.resolve_right (by omega)) above
    rw [compare_gt_iff_gt.2 above, compare_gt_iff_gt.2 greater]
    rfl

end

theorem swap_compare (p q : ℚ) : (Ord.compare p q).swap = Ord.compare (-p) (-q) := by
  rcases lt_trichotomy p q with below | level | above
  · rw [compare_lt_iff_lt.2 below, compare_gt_iff_gt.2 (neg_lt_neg below)]
    rfl
  · rw [compare_eq_iff_eq.2 level, compare_eq_iff_eq.2 (congrArg Neg.neg level)]
    rfl
  · rw [compare_gt_iff_gt.2 above, compare_lt_iff_lt.2 (neg_lt_neg above)]
    rfl

/-- A finite double that is not zero is on the side of zero that its sign says. -/
theorem unpackedValue_pos {m : Nat} {e : Int} (pos : 0 < m) : 0 < unpackedValue (.finite .positive m e pos) := by
  unfold unpackedValue
  positivity

theorem unpackedValue_neg {m : Nat} {e : Int} (pos : 0 < m) : unpackedValue (.finite .negative m e pos) < 0 := by
  unfold unpackedValue
  have magnitude : (0 : ℚ) < m * 2 ^ e := by positivity
  linarith

/-- Finite doubles compare as the numbers that they stand for. -/
theorem CanonicalDouble.compare_eq {x y : UnpackedFloat} (canonical : CanonicalDouble x)
    (canonical' : CanonicalDouble y) :
    x.compare y = some (Ord.compare (unpackedValue x) (unpackedValue y)) := by
  cases canonical with
  | zero s =>
    cases canonical' with
    | zero s' => exact congrArg some (compare_eq_iff_eq.2 rfl).symm
    | @finite s' m e pos short full least =>
      cases s' with
      | positive => exact congrArg some (compare_lt_iff_lt.2 (unpackedValue_pos pos)).symm
      | negative => exact congrArg some (compare_gt_iff_gt.2 (unpackedValue_neg pos)).symm
  | @finite s m e pos short full least =>
    cases canonical' with
    | zero s' =>
      cases s with
      | positive => exact congrArg some (compare_gt_iff_gt.2 (unpackedValue_pos pos)).symm
      | negative => exact congrArg some (compare_lt_iff_lt.2 (unpackedValue_neg pos)).symm
    | @finite s' m' e' pos' short' full' least' =>
      have magnitudes := compare_magnitudes short full least short' full' least'
      cases s with
      | positive =>
        cases s' with
        | positive => exact congrArg some magnitudes
        | negative =>
          have apart := (unpackedValue_neg (e := e') pos').trans (unpackedValue_pos (e := e) pos)
          exact congrArg some (compare_gt_iff_gt.2 apart).symm
      | negative =>
        cases s' with
        | positive =>
          have apart := (unpackedValue_neg (e := e) pos).trans (unpackedValue_pos (e := e') pos')
          exact congrArg some (compare_lt_iff_lt.2 apart).symm
        | negative =>
          exact congrArg some ((congrArg Ordering.swap magnitudes).trans (swap_compare _ _))

/-- Floats whose values are known compare as these values. -/
theorem compareFloats_eq {x y : Float} (canonical : CanonicalDouble x.toModel.unpack)
    (canonical' : CanonicalDouble y.toModel.unpack) :
    compareFloats x y =
      some (Ord.compare (unpackedValue x.toModel.unpack) (unpackedValue y.toModel.unpack)) := by
  have below : x < y ↔ unpackedValue x.toModel.unpack < unpackedValue y.toModel.unpack := by
    rw [float_lt_iff, canonical.compare_eq canonical', Option.some.injEq, compare_lt_iff_lt]
  have level : (x == y) = true ↔ unpackedValue x.toModel.unpack = unpackedValue y.toModel.unpack := by
    rw [float_beq_iff, canonical.compare_eq canonical', Option.some.injEq, compare_eq_iff_eq]
  have above : y < x ↔ unpackedValue y.toModel.unpack < unpackedValue x.toModel.unpack := by
    rw [float_lt_iff, canonical'.compare_eq canonical, Option.some.injEq, compare_lt_iff_lt]
  simp only [compareFloats, below, level, above]
  rcases lt_trichotomy (unpackedValue x.toModel.unpack) (unpackedValue y.toModel.unpack) with less | same | greater
  · rw [if_pos less, compare_lt_iff_lt.2 less]
  · rw [if_neg same.not_lt, if_pos same, compare_eq_iff_eq.2 same]
  · rw [if_neg greater.not_gt, if_neg greater.ne', if_pos greater, compare_gt_iff_gt.2 greater]

end CustomerSegments
