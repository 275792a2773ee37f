import Mathlib
import StepFlow.Binary64
import StepFlow.Proofs.Binary64.Rounding

/-!
# The number that a float stands for

A finite float stands for a rational number, a mantissa times a power of two. The
integer that is read off its parts is that number, and there is one to read off exactly
where the number is an integer.
-/

namespace StepFlow.Binary64

variable {n low high : Int} {f : Float}

namespace Exact

variable {x : Exact}

/-- The number that an exact value is. -/
def value (x : Exact) : ℚ :=
  x.signed x.mantissa * 2 ^ x.exponent

theorem signed_mul (x : Exact) (m k : Nat) : x.signed (m * k) = x.signed m * k := by
  unfold signed
  split
  · rw [Nat.cast_mul, neg_mul]
  · rw [Nat.cast_mul]

theorem natAbs_signed (x : Exact) (m : Nat) : (x.signed m).natAbs = m := by
  unfold signed
  split
  · rw [Int.natAbs_neg, Int.natAbs_natCast]
  · rw [Int.natAbs_natCast]

/-- An exponent below zero cuts off so many places of the mantissa. -/
theorem exists_places (h : ¬0 ≤ x.exponent) : ∃ places : Nat, x.exponent = -(places : Int) ∧
    (-x.exponent).toNat = places :=
  ⟨(-x.exponent).toNat, by omega, rfl⟩

theorem value_eq_div {places : Nat} (h : x.exponent = -(places : Int)) :
    x.value = x.signed x.mantissa / 2 ^ places := by
  rw [value, h, zpow_neg, zpow_natCast, div_eq_mul_inv]

theorem isInteger_iff_dvd (h : ¬0 ≤ x.exponent) :
    x.isInteger = true ↔ 2 ^ (-x.exponent).toNat ∣ x.mantissa := by
  simp only [isInteger, h, decide_false, Bool.false_or, decide_eq_true_eq, Nat.pow_eq,
    Nat.dvd_iff_mod_eq_zero]

theorem truncate_eq_value (h : x.isInteger = true) : (x.truncate : ℚ) = x.value := by
  rw [truncate, wholePart]
  split
  · next hwhole =>
    obtain ⟨places, hplaces⟩ := Int.eq_ofNat_of_zero_le hwhole
    rw [value, hplaces, Int.toNat_natCast, Nat.pow_eq, signed_mul, zpow_natCast]
    push_cast
    rfl
  · next hpoint =>
    obtain ⟨places, hexponent, hplaces⟩ := exists_places hpoint
    obtain ⟨whole, hwhole⟩ := (isInteger_iff_dvd hpoint).1 h
    rw [hplaces] at hwhole
    have hquotient : 2 ^ places * whole / 2 ^ places = whole :=
      Nat.mul_div_cancel_left _ (Nat.two_pow_pos places)
    rw [value_eq_div hexponent, hplaces, Nat.pow_eq, hwhole, hquotient,
      mul_comm (2 ^ places), signed_mul]
    push_cast
    rw [mul_div_cancel_right₀ _ (pow_ne_zero places two_ne_zero)]

theorem isInteger_of_value_eq (h : x.value = n) : x.isInteger = true := by
  by_cases hwhole : 0 ≤ x.exponent
  · simp only [isInteger, hwhole, decide_true, Bool.true_or]
  · obtain ⟨places, hexponent, hplaces⟩ := exists_places hwhole
    have hmultiple : x.signed x.mantissa = n * 2 ^ places := by
      rw [value_eq_div hexponent, div_eq_iff (pow_ne_zero places two_ne_zero)] at h
      exact_mod_cast h
    have hmantissa : x.mantissa = n.natAbs * 2 ^ places := by
      rw [← natAbs_signed x x.mantissa, hmultiple, Int.natAbs_mul, Int.natAbs_pow]
      rfl
    rw [isInteger_iff_dvd hwhole, hplaces, hmantissa]
    exact Nat.dvd_mul_left _ _

end Exact

/-- The number that a finite float stands for. -/
def value? (f : Float) : Option ℚ :=
  (decode? f).map Exact.value

theorem isSome_value? (h : f.isFinite = true) : (value? f).isSome = true := by
  have hfinite : f.toModel.unpack.isFinite = true := h
  unfold value? decode?
  generalize f.toModel.unpack = u at hfinite ⊢
  cases u with
  | infinity | notANumber => cases hfinite
  | zero | finite => rfl

/-- The integer of a float is the number that it stands for. -/
theorem integer?_eq_some_iff : integer? f = some n ↔ value? f = some (n : ℚ) := by
  unfold integer? value?
  cases decode? f with
  | none => exact ⟨nofun, nofun⟩
  | some x =>
    show (if x.isInteger = true then some x.truncate else none) = some n ↔
      some x.value = some (n : ℚ)
    rw [Option.some_inj]
    constructor
    · intro h
      split at h
      · next hinteger =>
        cases h
        exact (x.truncate_eq_value hinteger).symm
      · cases h
    · intro h
      have hinteger := Exact.isInteger_of_value_eq h
      have htruncate : x.truncate = n := by
        rw [← Exact.truncate_eq_value hinteger] at h
        exact_mod_cast h
      rw [if_pos hinteger, htruncate]

/-- The magnitude is told by the place of the leading digit. -/
theorem two_zpow_le_abs_value {q : ℚ} (h : Normal low high f.toModel.unpack)
    (hq : value? f = some q) :
    (2 : ℚ) ^ low ≤ |q| := by
  unfold value? decode? at hq
  generalize f.toModel.unpack = u at h hq
  cases h with
  | @intro sign m e positive full hl hh =>
    cases hq
    have hm : (2 : ℚ) ^ (52 : Int) ≤ m := by
      have hlog : 2 ^ m.log2 ≤ m := Nat.log2_self_le positive.ne'
      rw [full] at hlog
      exact_mod_cast hlog
    have hpower : (0 : ℚ) < 2 ^ e := zpow_pos two_pos e
    calc (2 : ℚ) ^ low ≤ 2 ^ (52 + e) := zpow_le_zpow_right₀ one_le_two hl
      _ = 2 ^ (52 : Int) * 2 ^ e := zpow_add₀ two_ne_zero 52 e
      _ ≤ m * 2 ^ e := mul_le_mul_of_nonneg_right hm hpower.le
      _ = |Exact.value ⟨sign == .negative, m, e⟩| := by
        rw [Exact.value, abs_mul, abs_of_pos hpower, ← Int.cast_abs, Int.abs_eq_natAbs,
          Exact.natAbs_signed, Int.cast_natCast]

end StepFlow.Binary64
