import Mathlib
import StepFlow.Proofs.Binary64
import StepFlow.Proofs.Binary64.Exact
import StepFlow.Proofs.Binary64.Nearest

/-!
# Floats in the order of their numbers

Finite floats compare as the numbers that they stand for. An integer is converted to the float for
the rounded integer, so the floats of two integers compare as the rounded integers do.
-/

namespace StepFlow.Binary64

open Float.Model (Format UnpackedFloat)
open Float.Model.UnpackedFloat

/-! ## The number of a float -/

variable {low high exponent n : Int} {m : Nat} {x y : UnpackedFloat} {f g : Float}

/-- The number that an unpacked value stands for, if it is finite. -/
def number : UnpackedFloat → ℚ
  | .finite sign mantissa exponent _ => sign.apply mantissa * 2 ^ exponent
  | _ => 0

theorem value?_eq (h : f.isFinite = true) : value? f = some (number f.toModel.unpack) := by
  have hfinite : f.toModel.unpack.isFinite = true := h
  unfold value? decode?
  generalize f.toModel.unpack = u at hfinite ⊢
  cases u with
  | infinity | notANumber => cases hfinite
  | zero sign =>
    simp [Exact.value, Exact.signed, number]
  | finite sign m e positive =>
    cases sign <;> rfl

theorem apply_mul (sign : Sign) (a b : Nat) : sign.apply (a * b : Nat) = sign.apply a * b := by
  cases sign with
  | negative => exact (congrArg Neg.neg (Nat.cast_mul a b)).trans (neg_mul _ _).symm
  | positive => exact Nat.cast_mul a b

theorem number_neg (x : UnpackedFloat) : number x.neg = -number x := by
  cases x with
  | finite sign m e positive => cases sign <;> simp [UnpackedFloat.neg, number, Sign.apply]
  | _ => simp [UnpackedFloat.neg, number]

/-- Places put behind a number and taken off by the exponent. -/
theorem apply_mul_two_pow (sign : Sign) (m places : Nat) (exponent : Int) :
    (sign.apply (m * 2 ^ places : Nat) : ℚ) * 2 ^ (exponent - places) =
      sign.apply m * 2 ^ exponent := by
  rw [apply_mul, zpow_sub₀ two_ne_zero, zpow_natCast]
  push_cast
  rw [mul_assoc, mul_div_cancel₀ _ (pow_ne_zero _ two_ne_zero)]

theorem number_roundWithAccuracy (sign : Sign) (hm : 52 ≤ m.log2)
    (h : -1022 ≤ (m.log2 : Int) + exponent) :
    number (roundWithAccuracy .binary64 sign m exponent .exact) =
      sign.apply (rounded m) * 2 ^ exponent := by
  obtain ⟨q, places, positive, -, -, hquotient, heq⟩ := exists_roundWithAccuracy sign hm h
  rw [heq, rounded, hquotient, number, apply_mul, apply_mul, zpow_add₀ two_ne_zero,
    zpow_add₀ two_ne_zero, zpow_natCast, zpow_natCast]
  push_cast
  ring

theorem number_round (sign : Sign) (hm : m ≠ 0) (h : -1022 ≤ (m.log2 : Int) + exponent) :
    number (UnpackedFloat.round .binary64 sign m exponent) =
      sign.apply (rounded m) * 2 ^ exponent := by
  have places : (exponent - (m.log2 + exponent - 52)).toNat = 52 - m.log2 := by omega
  have hlog := log2_shiftLeft hm (52 - m.log2)
  have hrounded := @number_roundWithAccuracy (exponent - (52 - m.log2 : Nat)) _ sign
    (show 52 ≤ (m <<< (52 - m.log2)).log2 by omega) (by omega)
  simp only [UnpackedFloat.round, decreaseExponent, targetExponent_eq h, places]
  rw [hrounded, Nat.shiftLeft_eq, rounded_mul_two_pow hm, apply_mul_two_pow]

theorem number_mul_one (h : Normal low high x) (hlow : -1022 ≤ low) :
    number (x.mul .binary64 one) = number x := by
  cases h with
  | @intro sign q e positive full hl hh =>
    have hsign : sign * .positive = sign := by cases sign <;> rfl
    have hlog : (q * 2 ^ 52).log2 = q.log2 + 52 := by
      rw [← Nat.shiftLeft_eq, log2_shiftLeft positive.ne']
    have hproduct : UnpackedFloat.mul .binary64 (.finite sign q e positive) one =
        roundWithAccuracy .binary64 sign (q * 2 ^ 52) (e + -52) .exact := by
      rw [one, UnpackedFloat.mul, hsign]
    rw [hproduct, number_roundWithAccuracy sign (by omega) (by omega),
      rounded_mul_two_pow positive.ne', rounded_of_log2_le full.le]
    exact apply_mul_two_pow sign q 52 e

/-- The higher exponent makes the greater number, whatever the mantissas. -/
theorem magnitude_lt {q q' : Nat} {e e' : Int} (full : q.log2 = 52) (full' : q'.log2 = 52)
    (positive : 0 < q') (h : e < e') : (q : ℚ) * 2 ^ e < q' * 2 ^ e' := by
  have hq : (q : ℚ) < 2 ^ 53 := by
    have hlt : q < 2 ^ (q.log2 + 1) := Nat.lt_log2_self
    rw [full] at hlt
    exact_mod_cast hlt
  have hq' : (2 : ℚ) ^ 52 ≤ q' := by
    have hle : 2 ^ q'.log2 ≤ q' := Nat.log2_self_le positive.ne'
    rw [full'] at hle
    exact_mod_cast hle
  have hpower : (0 : ℚ) < 2 ^ e := zpow_pos two_pos e
  calc (q : ℚ) * 2 ^ e < 2 ^ 53 * 2 ^ e := mul_lt_mul_of_pos_right hq hpower
    _ = 2 ^ 52 * 2 ^ (e + 1) := by
      rw [zpow_add_one₀ two_ne_zero]
      ring
    _ ≤ 2 ^ 52 * 2 ^ e' :=
      mul_le_mul_of_nonneg_left (zpow_le_zpow_right₀ one_le_two h) (by positivity)
    _ ≤ q' * 2 ^ e' := mul_le_mul_of_nonneg_right hq' (zpow_nonneg zero_le_two e')

theorem compare_magnitude {q q' : Nat} (e e' : Int) (full : q.log2 = 52) (full' : q'.log2 = 52)
    (positive : 0 < q) (positive' : 0 < q') :
    (compare e e').then (compare q q') = compare ((q : ℚ) * 2 ^ e) (q' * 2 ^ e') := by
  rcases lt_trichotomy e e' with h | rfl | h
  · rw [Int.compare_eq_lt.2 h, compare_lt_iff_lt.2 (magnitude_lt full full' positive' h)]
    rfl
  · have hpower : (0 : ℚ) < 2 ^ e := zpow_pos two_pos e
    rw [Int.compare_eq_eq.2 rfl]
    show compare q q' = _
    rcases Nat.lt_trichotomy q q' with h | rfl | h
    · rw [Nat.compare_eq_lt.2 h,
        compare_lt_iff_lt.2 (mul_lt_mul_of_pos_right (by exact_mod_cast h) hpower)]
    · rw [Nat.compare_eq_eq.2 rfl, compare_eq_iff_eq.2 rfl]
    · rw [Nat.compare_eq_gt.2 h,
        compare_gt_iff_gt.2 (mul_lt_mul_of_pos_right (by exact_mod_cast h) hpower)]
  · rw [Int.compare_eq_gt.2 h, compare_gt_iff_gt.2 (magnitude_lt full' full positive h)]
    rfl

theorem compare_neg (a b : ℚ) : compare (-a) (-b) = (compare a b).swap := by
  rcases lt_trichotomy a b with h | rfl | h
  · rw [compare_lt_iff_lt.2 h, compare_gt_iff_gt.2 (neg_lt_neg h)]
    rfl
  · rw [compare_eq_iff_eq.2 rfl, compare_eq_iff_eq.2 rfl]
    rfl
  · rw [compare_gt_iff_gt.2 h, compare_lt_iff_lt.2 (neg_lt_neg h)]
    rfl

theorem number_positive (q : Nat) (e : Int) (positive : 0 < q) :
    number (.finite .positive q e positive) = q * 2 ^ e := rfl

theorem number_negative (q : Nat) (e : Int) (positive : 0 < q) :
    number (.finite .negative q e positive) = -(q * 2 ^ e) := by
  rw [number, Sign.apply, Int.cast_neg, neg_mul]
  rfl

/-- Values of the format are ordered as the numbers that they stand for. -/
theorem compare_eq (hx : Moderate low high x) (hy : Moderate low high y) :
    x.compare y = some (compare (number x) (number y)) := by
  have magnitude {q : Nat} (e : Int) (positive : 0 < q) : (0 : ℚ) < q * 2 ^ e :=
    mul_pos (Nat.cast_pos.2 positive) (zpow_pos two_pos e)
  cases hx with
  | zero sign =>
    cases hy with
    | zero sign' => rfl
    | normal hy =>
      cases hy with
      | @intro sign' q' e' positive' =>
        cases sign' with
        | positive =>
          rw [number_positive]
          exact congrArg some (compare_lt_iff_lt.2 (magnitude e' positive')).symm
        | negative =>
          rw [number_negative]
          exact congrArg some (compare_gt_iff_gt.2 (neg_neg_of_pos (magnitude e' positive'))).symm
  | normal hx =>
    cases hx with
    | @intro sign q e positive full =>
      cases hy with
      | zero sign' =>
        cases sign with
        | positive =>
          rw [number_positive]
          exact congrArg some (compare_gt_iff_gt.2 (magnitude e positive)).symm
        | negative =>
          rw [number_negative]
          exact congrArg some (compare_lt_iff_lt.2 (neg_neg_of_pos (magnitude e positive))).symm
      | normal hy =>
        cases hy with
        | @intro sign' q' e' positive' full' =>
          have hmagnitude := compare_magnitude e e' full full' positive positive'
          have hless := (neg_neg_of_pos (magnitude e positive)).trans (magnitude e' positive')
          have hgreater := (neg_neg_of_pos (magnitude e' positive')).trans (magnitude e positive)
          cases sign <;> cases sign'
          case positive.positive =>
            exact congrArg some hmagnitude
          case negative.negative =>
            rw [number_negative, number_negative, compare_neg, ← hmagnitude]
            rfl
          case positive.negative =>
            rw [number_positive, number_negative, compare_gt_iff_gt.2 hgreater]
            rfl
          case negative.positive =>
            rw [number_positive, number_negative, compare_lt_iff_lt.2 hless]
            rfl

theorem lt_iff (hf : Moderate low high f.toModel.unpack) (hg : Moderate low high g.toModel.unpack) :
    f < g ↔ number f.toModel.unpack < number g.toModel.unpack := by
  show decide (f.toModel.unpack.lt g.toModel.unpack = true) = true ↔ _
  rw [decide_eq_true_iff, UnpackedFloat.lt, compare_eq hf hg, beq_iff_eq, Option.some_inj,
    compare_lt_iff_lt]

theorem beq_iff (hf : Moderate low high f.toModel.unpack)
    (hg : Moderate low high g.toModel.unpack) :
    (f == g) = true ↔ number f.toModel.unpack = number g.toModel.unpack := by
  show f.toModel.unpack.beq g.toModel.unpack = true ↔ _
  rw [UnpackedFloat.beq, compare_eq hf hg, beq_iff_eq, Option.some_inj, compare_eq_iff_eq]

/-! ## The number of the float of an integer -/

theorem number_ofNat (hm : m ≠ 0) (h : m < 2 ^ 64) :
    number (Float.ofNat m).toModel.unpack = rounded m := by
  have hlog := log2_lt_of_lt hm h
  rw [unpack_ofNat hm h]
  split
  · next hsmall =>
    rw [number_mul_one
      (normal_round .positive hm (show -1022 ≤ (m.log2 : Int) + 0 by omega)) (by omega),
      number_round .positive hm (by omega), zpow_zero, mul_one]
    rfl
  · have hshifted := log2_shiftLeft hm 53
    rw [number_roundWithAccuracy .positive (by omega) (by omega), Nat.shiftLeft_eq,
      rounded_mul_two_pow hm]
    have hzero := apply_mul_two_pow .positive (rounded m) 53 0
    rw [zpow_zero, mul_one] at hzero
    exact hzero

/-- The float of an integer stands for the rounded integer. -/
theorem number_floatOfInt (h : Number.FitsWord n) :
    number (Number.floatOfInt n).toModel.unpack = nearest n := by
  cases n with
  | ofNat m =>
    rcases Nat.eq_zero_or_pos m with rfl | hpos
    · rfl
    · rw [Int.ofNat_eq_natCast] at h ⊢
      have hsize : m < 2 ^ 64 := by
        have := h.2
        omega
      rw [nearest_natCast]
      exact number_ofNat hpos.ne' hsize
  | negSucc m =>
    have hsize : m + 1 < 2 ^ 64 := by omega
    have hlog := log2_lt_of_lt (Nat.succ_ne_zero m) hsize
    have negated := unpack_neg (normal_ofNat (Nat.succ_ne_zero m) hsize) (by omega) (by omega)
    show number (-(Float.ofNat (m + 1))).toModel.unpack = _
    rw [negated, number_neg, number_ofNat (Nat.succ_ne_zero m) hsize, Int.negSucc_eq, nearest_neg]
    have hcast : ((m : Int) + 1) = ((m + 1 : Nat) : Int) := rfl
    rw [hcast, nearest_natCast, Int.cast_neg, Int.cast_natCast]

theorem floatOfInt_lt_iff {k : Int} (hn : Number.FitsWord n) (hk : Number.FitsWord k) :
    Number.floatOfInt n < Number.floatOfInt k ↔ nearest n < nearest k := by
  rw [lt_iff (moderate_floatOfInt hn) (moderate_floatOfInt hk), number_floatOfInt hn,
    number_floatOfInt hk, Int.cast_lt]

theorem floatOfInt_beq_iff {k : Int} (hn : Number.FitsWord n) (hk : Number.FitsWord k) :
    (Number.floatOfInt n == Number.floatOfInt k) = true ↔ nearest n = nearest k := by
  rw [beq_iff (moderate_floatOfInt hn) (moderate_floatOfInt hk), number_floatOfInt hn,
    number_floatOfInt hk, Int.cast_inj]

theorem value?_floatOfInt (h : Number.FitsWord n) :
    value? (Number.floatOfInt n) = some (nearest n : ℚ) := by
  rw [value?_eq (isFinite_floatOfInt h), number_floatOfInt h]

end StepFlow.Binary64
