import Mathlib
import StepFlow.Number
import StepFlow.Proofs.Binary64.Rounding

/-!
# Integers as floats

Every integer that fits 64 bits has a nearest float that is finite. The leading digit of that float
stands no lower than the one of the integer, so an integer other than zero does not become zero and
a large integer stays large; and it stands little higher, so sums, differences and products of two
such floats are finite too. The upper bounds are generous, as only their distance to the greatest
place of the format matters.
-/

namespace StepFlow.Binary64

open Float.Model (Format UnpackedFloat)
open Float.Model.UnpackedFloat

variable {low high low' high' : Int} {x : UnpackedFloat} {f g : Float}

/-! ## Operations on floats -/

theorem moderate_pack (h : Moderate low high x) (hlow : -1022 ≤ low) (hhigh : high ≤ 1024) :
    Moderate low high (Float.ofModel (.pack x)).toModel.unpack := by
  show Moderate low high (unpack .binary64 (pack .binary64 x))
  rwa [h.unpack_pack hlow hhigh]

theorem unpack_neg (h : Normal low high f.toModel.unpack) (hlow : -1022 ≤ low)
    (hhigh : high ≤ 1024) :
    (-f).toModel.unpack = f.toModel.unpack.neg :=
  h.neg.unpack_pack hlow hhigh

theorem isFinite_add (hf : Moderate low high f.toModel.unpack)
    (hg : Moderate low high g.toModel.unpack)
    (hlow : -970 ≤ low) (hhigh : high ≤ 1022) : (f + g).isFinite = true :=
  (moderate_pack (hf.add hg hlow) (by omega) (by omega)).isFinite

theorem isFinite_sub (hf : Moderate low high f.toModel.unpack)
    (hg : Moderate low high g.toModel.unpack)
    (hlow : -970 ≤ low) (hhigh : high ≤ 1022) : (f - g).isFinite = true :=
  (moderate_pack (hf.sub hg hlow) (by omega) (by omega)).isFinite

theorem isFinite_mul (hf : Moderate low high f.toModel.unpack)
    (hg : Moderate low' high' g.toModel.unpack)
    (hlow : -1022 ≤ low + low') (hhigh : high + high' ≤ 1023) : (f * g).isFinite = true :=
  (moderate_pack (hf.mul hg hlow) hlow (by omega)).isFinite

theorem Normal.beq_zero (h : Normal low high x) (sign : Sign) : x.beq (.zero sign) = false := by
  cases h with
  | intro sign' => cases sign' <;> rfl

theorem beq_zero_eq_false (h : Normal low high f.toModel.unpack) : (f == 0.0) = false := by
  have hzero : (0.0 : Float).toModel.unpack = .zero .positive := rfl
  show f.toModel.unpack.beq (0.0 : Float).toModel.unpack = false
  rw [hzero]
  exact h.beq_zero .positive

/-! ## The float of an integer -/

def one : UnpackedFloat := .finite .positive (2 ^ 52) (-52) (Nat.two_pow_pos 52)

theorem unpack_one : (Float.ofBits 4607182418800017408).toModel.unpack = one := rfl

theorem normal_one : Normal 0 1 one := .intro .positive _ Nat.log2_two_pow (by decide) (by decide)

theorem log2_lt_of_lt {n : Nat} (hn : n ≠ 0) (h : n < 2 ^ 64) : n.log2 < 64 := (Nat.log2_lt hn).2 h

theorem unpack_toFloat {n : UInt64} (hn : n.toNat ≠ 0) :
    n.toFloat.toModel.unpack = UnpackedFloat.round .binary64 .positive n.toNat 0 := by
  have hlog := log2_lt_of_lt hn n.toNat_lt
  have hpositive : compare (n.toNat : Int) 0 = .gt := Int.compare_eq_gt.2 (by omega)
  have hrounded : UnpackedFloat.ofUInt64 .binary64 n =
      UnpackedFloat.round .binary64 .positive n.toNat 0 := by
    simp only [UnpackedFloat.ofUInt64, UnpackedFloat.ofNat, UnpackedFloat.ofInt,
      UnpackedFloat.normalize, hpositive]
    rfl
  have packed :=
    (normal_round .positive hn (show -1022 ≤ (n.toNat.log2 : Int) + 0 by omega)).unpack_pack
      (by omega)
    (by omega)
  rw [← hrounded] at packed ⊢
  exact packed

/-- The product with the power of ten is the integer itself, with room below the point. -/
theorem ofScientific_eq {n : Nat} (hn : n ≠ 0) :
    UnpackedFloat.ofScientific .binary64 n 0 =
      roundWithAccuracy .binary64 .positive (n <<< 53) (-53) .exact := by
  have hbits : Format.mantissaBits .binary64 = 53 := by decide
  have hleast : ¬(0 : Int) < -(2 ^ Format.binary64.exponentBits + (n.log2 : Int)) := by
    have : (2 : Int) ^ Format.binary64.exponentBits = 2048 := by decide
    omega
  have hone : n <<< 53 * 10 ^ (0 : Int).toNat = n <<< 53 := Nat.mul_one _
  simp only [UnpackedFloat.ofScientific, dif_neg hn]
  rw [if_neg (by decide), if_neg hleast, if_pos (Int.le_refl 0)]
  simp only [UnpackedFloat.mul, hbits, hone]
  rfl

theorem normal_ofScientific {n : Nat} (hn : n ≠ 0) (h : n < 2 ^ 64) :
    Normal n.log2 (n.log2 + 2) (roundWithAccuracy .binary64 .positive (n <<< 53) (-53) .exact) := by
  have hlog := log2_lt_of_lt hn h
  have hshifted := log2_shiftLeft hn 53
  exact (@normal_roundWithAccuracy (-53) (n <<< 53) .positive (by omega) (by omega)).mono
    (by omega) (by omega)

/-- Short integers are converted as machine words, long ones as decimal numbers. -/
theorem unpack_ofNat {n : Nat} (hn : n ≠ 0) (h : n < 2 ^ 64) :
    (Float.ofNat n).toModel.unpack =
      if n < 2 ^ 53 then (UnpackedFloat.round .binary64 .positive n 0).mul .binary64 one
      else roundWithAccuracy .binary64 .positive (n <<< 53) (-53) .exact := by
  have hlog := log2_lt_of_lt hn h
  show (Float.ofScientific n false 0).toModel.unpack = _
  unfold Float.ofScientific
  split
  · next hsmall =>
    have hword : n.toUInt64.toNat = n := Nat.mod_eq_of_lt h
    have converted := unpack_toFloat (hword.symm ▸ hn)
    rw [hword] at converted
    have hnormal := (normal_round .positive hn (show -1022 ≤ (n.log2 : Int) + 0 by omega)).mul
      normal_one (by omega)
    rw [if_pos hsmall.1, ← hnormal.unpack_pack (by omega) (by omega), ← converted, ← unpack_one]
    rfl
  · next hlarge =>
    rw [if_neg fun hsmall => hlarge ⟨hsmall, Nat.zero_le _⟩, ← ofScientific_eq hn]
    have packed := (normal_ofScientific hn h).unpack_pack (by omega) (by omega)
    rw [← ofScientific_eq hn] at packed
    exact packed

theorem normal_ofNat {n : Nat} (hn : n ≠ 0) (h : n < 2 ^ 64) :
    Normal n.log2 (n.log2 + 4) (Float.ofNat n).toModel.unpack := by
  have hlog := log2_lt_of_lt hn h
  rw [unpack_ofNat hn h]
  split
  · have hnormal := (normal_round .positive hn (show -1022 ≤ (n.log2 : Int) + 0 by omega)).mul
      normal_one (by omega)
    exact hnormal.mono (by omega) (by omega)
  · exact (normal_ofScientific hn h).mono le_rfl (by omega)

theorem normal_floatOfInt {n : Int} (hn : n ≠ 0) (h : Number.FitsWord n) :
    Normal n.natAbs.log2 (n.natAbs.log2 + 4) (Number.floatOfInt n).toModel.unpack := by
  cases n with
  | ofNat n => exact normal_ofNat (by omega) (by have := h.2; omega)
  | negSucc n =>
    have hword : n + 1 < 2 ^ 64 := by omega
    have hlog := log2_lt_of_lt (Nat.succ_ne_zero n) hword
    have place := normal_ofNat (Nat.succ_ne_zero n) hword
    show Normal (n + 1).log2 ((n + 1).log2 + 4) (-(Float.ofNat (n + 1))).toModel.unpack
    rw [unpack_neg place (by omega) (by omega)]
    exact place.neg

theorem moderate_floatOfInt {n : Int} (h : Number.FitsWord n) :
    Moderate 0 67 (Number.floatOfInt n).toModel.unpack := by
  rcases eq_or_ne n 0 with rfl | hn
  · exact .zero .positive
  · have hlog := log2_lt_of_lt (Int.natAbs_ne_zero.2 hn) (by omega)
    exact .normal ((normal_floatOfInt hn h).mono (by omega) (by omega))

/-- An integer of 64 bits, signed or unsigned, is near a finite float. -/
theorem isFinite_floatOfInt {n : Int} (h : Number.FitsWord n) :
    (Number.floatOfInt n).isFinite = true :=
  (moderate_floatOfInt h).isFinite

end StepFlow.Binary64
