import Mathlib

/-!
# The place of a rounded value

The size of a binary floating-point number is told by the place of its leading digit. Rounding keeps
the leading digit where it is, or moves it up by one place where all digits are ones. From this the
places of products and sums follow, and a value whose leading digit is neither too high nor too low
for the format is the same after it was packed.
-/

namespace StepFlow.Binary64

open Float.Model (Format UnpackedFloat totalExponent)
open Float.Model.UnpackedFloat

/-- A finite value with a mantissa of full length whose leading digit stands at a place from `low`
on and below `high`: its magnitude is from `2 ^ low` on and below `2 ^ high`. -/
inductive Normal (low high : Int) : UnpackedFloat → Prop
  | intro (sign : Sign) {mantissa : Nat} {exponent : Int} (positive : 0 < mantissa) :
      mantissa.log2 = 52 → low ≤ 52 + exponent → 52 + exponent < high →
        Normal low high (.finite sign mantissa exponent positive)

/-- Zero, or a value whose leading digit stands at such a place. -/
inductive Moderate (low high : Int) : UnpackedFloat → Prop
  | zero (sign : Sign) : Moderate low high (.zero sign)
  | normal {x : UnpackedFloat} : Normal low high x → Moderate low high x

variable {low high low' high' exponent : Int} {mantissa : Nat} {x y : UnpackedFloat}

theorem Normal.mono (h : Normal low high x) (hlow : low' ≤ low) (hhigh : high ≤ high') :
    Normal low' high' x := by
  cases h with
  | intro sign positive full hl hh =>
    exact .intro sign positive full (hlow.trans hl) (hh.trans_le hhigh)

theorem Normal.neg (h : Normal low high x) : Normal low high x.neg := by
  cases h with
  | intro sign positive full hl hh => exact .intro (-sign) positive full hl hh

theorem Moderate.mono (h : Moderate low high x) (hlow : low' ≤ low) (hhigh : high ≤ high') :
    Moderate low' high' x := by
  cases h with
  | zero sign => exact .zero sign
  | normal h => exact .normal (h.mono hlow hhigh)

theorem Moderate.neg (h : Moderate low high x) : Moderate low high x.neg := by
  cases h with
  | zero sign => exact .zero (-sign)
  | normal h => exact .normal h.neg

theorem Moderate.isFinite (h : Moderate low high x) : x.isFinite = true := by
  cases h with
  | zero sign => rfl
  | normal h =>
    cases h with
    | intro => rfl

/-! ## Rounding -/

/-- The quotient nearest to the exact one, ties going to the even neighbour. -/
def roundedQuotient (m d : Nat) : Nat :=
  match compare (2 * (m % d)) d with
  | .lt => m / d
  | .eq => m / d + m / d % 2
  | .gt => m / d + 1

theorem div_le_roundedQuotient (m d : Nat) :
    m / d ≤ roundedQuotient m d ∧ roundedQuotient m d ≤ m / d + 1 := by
  have := Nat.mod_lt (m / d) Nat.two_pos
  unfold roundedQuotient
  split <;> omega

/-- What division by `d` leaves of a mantissa: the whole part, and two digits that place the rest
below, at or above the half. -/
structure Shifted (m d : Nat) (em : ExtendedMantissa) : Prop where
  mantissa : em.mantissa = m / d
  roundBit : em.roundBit = decide (d ≤ 2 * (m % d))
  stickyBit : em.stickyBit = decide (m % d ≠ 0 ∧ 2 * (m % d) ≠ d)

namespace Shifted

variable {m d : Nat} {em : ExtendedMantissa}

theorem exact (m : Nat) : Shifted m 1 (ExtendedMantissa.ofMantissaAndAccuracy m .exact) := by
  constructor <;> simp [ExtendedMantissa.ofMantissaAndAccuracy, Nat.mod_one]

/-- One more place is cut off: the last digit of the whole part now leads the rest. -/
theorem shiftRightOne (h : Shifted m d em) (hd : 0 < d) : Shifted m (d * 2) em.shiftRightOne := by
  have hbelow : m % d < d := Nat.mod_lt m hd
  have hrest : m / d % 2 = 0 ∧ m % (d * 2) = m % d ∨ m / d % 2 = 1 ∧ m % (d * 2) = m % d + d := by
    rw [Nat.mod_mul]
    rcases Nat.mod_two_eq_zero_or_one (m / d) with hdigit | hdigit <;> simp [hdigit]
  constructor
  case mantissa =>
    rw [← Nat.div_div_eq_div_mul, ← h.mantissa]
    rfl
  case roundBit =>
    rw [Bool.eq_iff_iff]
    simp only [ExtendedMantissa.shiftRightOne, h.mantissa, bne_iff_ne, decide_eq_true_eq]
    omega
  case stickyBit =>
    rw [Bool.eq_iff_iff]
    simp only [ExtendedMantissa.shiftRightOne, h.roundBit, h.stickyBit, Bool.or_eq_true,
      decide_eq_true_eq]
    omega

theorem shiftRight (m places : Nat) :
    Shifted m (2 ^ places) (ExtendedMantissa.ofMantissaAndAccuracy m .exact >>> places) := by
  show Shifted m (2 ^ places)
    (places.repeat ExtendedMantissa.shiftRightOne (ExtendedMantissa.ofMantissaAndAccuracy m .exact))
  induction places with
  | zero => exact exact m
  | succ places ih =>
    rw [Nat.repeat, pow_succ]
    exact ih.shiftRightOne (Nat.two_pow_pos places)

/-- The two digits are enough to round by. -/
theorem roundedMantissa (h : Shifted m d em) (hd : 0 < d) :
    em.roundedMantissa = roundedQuotient m d := by
  obtain ⟨whole, half, rest⟩ := em
  obtain ⟨rfl, rfl, rfl⟩ := h
  unfold ExtendedMantissa.roundedMantissa roundedQuotient
  rcases Nat.lt_trichotomy (2 * (m % d)) d with hlt | heq | hgt
  · rw [Nat.compare_eq_lt.2 hlt]
    by_cases hzero : m % d = 0
    · simp [ExtendedMantissa.accuracy, hzero, hd.ne', Accuracy.roundToNearestEven]
    · simp [ExtendedMantissa.accuracy, hzero, hlt.ne, Nat.not_le.2 hlt, Accuracy.roundToNearestEven]
  · rw [Nat.compare_eq_eq.2 heq]
    simp [ExtendedMantissa.accuracy, heq, Accuracy.roundToNearestEven]
  · rw [Nat.compare_eq_gt.2 hgt]
    have hzero : m % d ≠ 0 := by omega
    simp [ExtendedMantissa.accuracy, hgt.le, hzero, hgt.ne', Accuracy.roundToNearestEven]

end Shifted

/-- Where a value of the leading digit is put that is not too small for a full mantissa. -/
theorem targetExponent_eq (h : -1022 ≤ (mantissa.log2 : Int) + exponent) :
    Format.binary64.targetExponent (totalExponent mantissa exponent) =
      mantissa.log2 + exponent - 52 := by
  have hbits : ((Format.mantissaBits .binary64 : Nat) : Int) = 53 := by decide
  have hleast : Format.minExponent .binary64 = -1074 := by decide
  simp only [Format.targetExponent, totalExponent, hbits, hleast]
  omega

theorem shiftToTargetExponent_eq (hm : 52 ≤ mantissa.log2)
    (h : -1022 ≤ (mantissa.log2 : Int) + exponent) :
    shiftToTargetExponent .binary64 mantissa exponent .exact =
      (ExtendedMantissa.ofMantissaAndAccuracy mantissa .exact >>> (mantissa.log2 - 52),
        exponent + (mantissa.log2 - 52 : Nat)) := by
  have places : (mantissa.log2 + exponent - 52 - exponent).toNat = mantissa.log2 - 52 := by omega
  rw [shiftToTargetExponent, targetExponent_eq h, shiftToExponent, places]

theorem div_pow_log2 (hm : mantissa ≠ 0) (hlog : 52 ≤ mantissa.log2) :
    2 ^ 52 ≤ mantissa / 2 ^ (mantissa.log2 - 52) ∧
    mantissa / 2 ^ (mantissa.log2 - 52) < 2 ^ 53 := by
  have split (places : Nat) (h : 52 ≤ places) : 2 ^ 52 * 2 ^ (places - 52) = 2 ^ places := by
    rw [← pow_add, Nat.add_sub_cancel' h]
  constructor
  · rw [Nat.le_div_iff_mul_le (Nat.two_pow_pos _), split _ hlog]
    exact Nat.log2_self_le hm
  · rw [Nat.div_lt_iff_lt_mul (Nat.two_pow_pos _), pow_succ, mul_right_comm,
      split _ hlog, ← pow_succ]
    exact Nat.lt_log2_self

theorem log2_eq {places : Nat} (hlow : 2 ^ places ≤ mantissa)
    (hhigh : mantissa < 2 ^ (places + 1)) :
    mantissa.log2 = places :=
  (Nat.log2_eq_iff ((Nat.two_pow_pos places).trans_le hlow).ne').2 ⟨hlow, hhigh⟩

theorem log2_shiftLeft (hm : mantissa ≠ 0) (places : Nat) :
    (mantissa <<< places).log2 = mantissa.log2 + places := by
  refine log2_eq ?_ ?_
  · rw [Nat.shiftLeft_eq, pow_add]
    exact Nat.mul_le_mul_right _ (Nat.log2_self_le hm)
  · rw [Nat.shiftLeft_eq, add_right_comm, pow_add]
    exact Nat.mul_lt_mul_of_pos_right Nat.lt_log2_self (Nat.two_pow_pos places)

/-- A quotient of full length is rounded to one of full length, or to the least that
is one digit longer. -/
theorem exists_roundedQuotient {d : Nat} (hlow : 2 ^ 52 ≤ mantissa / d)
    (hhigh : mantissa / d < 2 ^ 53) :
    ∃ m places : Nat, m.log2 = 52 ∧ places ≤ 1 ∧ roundedQuotient mantissa d = m * 2 ^ places := by
  obtain ⟨hdown, hup⟩ := div_le_roundedQuotient mantissa d
  rcases Nat.lt_or_ge (roundedQuotient mantissa d) (2 ^ 53) with hlt | hge
  · exact ⟨_, 0, log2_eq (hlow.trans hdown) hlt, by decide, (Nat.mul_one _).symm⟩
  · exact ⟨2 ^ 52, 1, Nat.log2_two_pow, le_rfl, by omega⟩

/-- A mantissa that is long enough is divided by a power of two so that its leading digit comes to
the place of a full one, and the quotient is rounded. -/
theorem exists_roundWithAccuracy (sign : Sign) (hm : 52 ≤ mantissa.log2)
    (h : -1022 ≤ (mantissa.log2 : Int) + exponent) :
    ∃ (m places : Nat) (positive : 0 < m), m.log2 = 52 ∧ places ≤ 1 ∧
      roundedQuotient mantissa (2 ^ (mantissa.log2 - 52)) = m * 2 ^ places ∧
      roundWithAccuracy .binary64 sign mantissa exponent .exact =
        .finite sign m (exponent + (mantissa.log2 - 52 : Nat) + places) positive := by
  have nonzero : mantissa ≠ 0 := by
    rintro rfl
    exact absurd hm (by decide)
  obtain ⟨hlow, hhigh⟩ := div_pow_log2 nonzero hm
  obtain ⟨m, places, hfull, hplaces, hquotient⟩ := exists_roundedQuotient hlow hhigh
  have positive : 0 < m := by
    rcases Nat.eq_zero_or_pos m with rfl | hpos
    · exact absurd hfull (by decide)
    · exact hpos
  refine ⟨m, places, positive, hfull, hplaces, hquotient, ?_⟩
  have first := shiftToTargetExponent_eq hm h
  have hrounded :=
    (Shifted.shiftRight mantissa (mantissa.log2 - 52)).roundedMantissa (Nat.two_pow_pos _)
  have hlog : (m * 2 ^ places).log2 = 52 + places := by
    rw [← Nat.shiftLeft_eq, log2_shiftLeft positive.ne', hfull]
  -- the second shift takes away the digit that rounding may have added
  have second := @shiftToTargetExponent_eq (exponent + (mantissa.log2 - 52 : Nat)) (m * 2 ^ places)
    (by omega) (by omega)
  have hleft : (m * 2 ^ places).log2 - 52 = places := by omega
  have hfinal :
      (ExtendedMantissa.ofMantissaAndAccuracy (m * 2 ^ places) .exact >>> places).mantissa = m := by
    rw [(Shifted.shiftRight _ places).mantissa, Nat.mul_div_cancel _ (Nat.two_pow_pos places)]
  rw [hleft] at second
  simp only [roundWithAccuracy, first, hrounded, hquotient, second, hfinal, dif_neg positive.ne']

/-- Rounding a mantissa that is long enough keeps the place of the leading digit, or
moves it up by one. -/
theorem normal_roundWithAccuracy (sign : Sign) (hm : 52 ≤ mantissa.log2)
    (h : -1022 ≤ (mantissa.log2 : Int) + exponent) :
    Normal (mantissa.log2 + exponent) (mantissa.log2 + exponent + 2)
      (roundWithAccuracy .binary64 sign mantissa exponent .exact) := by
  obtain ⟨m, places, positive, hfull, hplaces, -, heq⟩ := exists_roundWithAccuracy sign hm h
  rw [heq]
  exact .intro sign positive hfull (by omega) (by omega)

/-- A mantissa of any length is first made long enough. -/
theorem normal_round (sign : Sign) (hm : mantissa ≠ 0)
    (h : -1022 ≤ (mantissa.log2 : Int) + exponent) :
    Normal (mantissa.log2 + exponent) (mantissa.log2 + exponent + 2)
      (UnpackedFloat.round .binary64 sign mantissa exponent) := by
  have places : (exponent - (mantissa.log2 + exponent - 52)).toNat = 52 - mantissa.log2 := by omega
  simp only [UnpackedFloat.round, decreaseExponent, targetExponent_eq h, places]
  have hlog := log2_shiftLeft hm (52 - mantissa.log2)
  have same : ((mantissa <<< (52 - mantissa.log2)).log2 : Int) +
    (exponent - (52 - mantissa.log2 : Nat)) =
      mantissa.log2 + exponent := by omega
  have rounded := @normal_roundWithAccuracy (exponent - (52 - mantissa.log2 : Nat))
    (mantissa <<< (52 - mantissa.log2)) sign (by omega) (same ▸ h)
  rwa [same] at rounded

/-! ## Products and sums -/

theorem Normal.mul (hx : Normal low high x) (hy : Normal low' high' y) (h : -1022 ≤ low + low') :
    Normal (low + low') (high + high' + 1) (x.mul .binary64 y) := by
  cases hx with
  | @intro sign m e positive full hl hh =>
    cases hy with
    | @intro sign' m' e' positive' full' hl' hh' =>
      have hlow : 2 ^ 52 * 2 ^ 52 ≤ m * m' :=
        Nat.mul_le_mul (full ▸ Nat.log2_self_le positive.ne')
          (full' ▸ Nat.log2_self_le positive'.ne')
      have hhigh : m * m' < 2 ^ 53 * 2 ^ 53 := by
        have hm : m < 2 ^ (m.log2 + 1) := Nat.lt_log2_self
        have hm' : m' < 2 ^ (m'.log2 + 1) := Nat.lt_log2_self
        rw [full] at hm
        rw [full'] at hm'
        exact Nat.mul_lt_mul'' hm hm'
      have hnonzero : m * m' ≠ 0 := (Nat.mul_pos positive positive').ne'
      have hleast : 104 ≤ (m * m').log2 := (Nat.le_log2 hnonzero).2 hlow
      have hmost : (m * m').log2 < 106 := (Nat.log2_lt hnonzero).2 hhigh
      have rounded :=
        @normal_roundWithAccuracy (e + e') (m * m') (sign * sign') (by omega) (by omega)
      exact rounded.mono (by omega) (by omega)

theorem Moderate.mul (hx : Moderate low high x) (hy : Moderate low' high' y)
    (h : -1022 ≤ low + low') :
    Moderate (low + low') (high + high' + 1) (x.mul .binary64 y) := by
  cases hx with
  | zero sign =>
    cases hy with
    | zero sign' => exact .zero (sign * sign')
    | normal hy =>
      cases hy with
      | intro sign' => exact .zero (sign * sign')
  | normal hx =>
    cases hy with
    | zero sign' =>
      cases hx with
      | intro sign => exact .zero (sign * sign')
    | normal hy => exact .normal (hx.mul hy h)

theorem moderate_normalize {sum : Int} {bits : Nat} (zeroSign : Sign) (h : sum.natAbs < 2 ^ bits)
    (hleast : -1022 ≤ exponent) :
    Moderate exponent (exponent + bits + 1)
      (UnpackedFloat.normalize .binary64 sum exponent zeroSign) := by
  have rounded (sign : Sign) {n : Nat} (hn : n ≠ 0) (hbits : n < 2 ^ bits) :
      Moderate exponent (exponent + bits + 1) (UnpackedFloat.round .binary64 sign n exponent) := by
    have hlog : n.log2 < bits := (Nat.log2_lt hn).2 hbits
    exact .normal ((normal_round sign hn (by omega)).mono (by omega) (by omega))
  unfold UnpackedFloat.normalize
  split
  · next hneg =>
    have hneg : sum < 0 := Int.compare_eq_lt.1 hneg
    exact rounded .negative (by omega) (by omega)
  · exact .zero zeroSign
  · next hpos =>
    have hpos : 0 < sum := Int.compare_eq_gt.1 hpos
    exact rounded .positive (by omega) (by omega)

theorem natAbs_apply (sign : Sign) (n : Nat) : (sign.apply n).natAbs = n := by
  cases sign with
  | negative => exact (Int.natAbs_neg _).trans (Int.natAbs_natCast n)
  | positive => exact Int.natAbs_natCast n

/-- A mantissa moved to a lower exponent is as long as the leading digit stands above that. -/
theorem decreaseExponent_lt {least : Int} (full : mantissa.log2 = 52) (hh : 52 + exponent < high)
    (hleast : least ≤ exponent) :
    (decreaseExponent mantissa exponent least).1 < 2 ^ (high - least).toNat := by
  have hm : mantissa < 2 ^ (mantissa.log2 + 1) := Nat.lt_log2_self
  rw [full] at hm
  have hle : 53 + (exponent - least).toNat ≤ (high - least).toNat := by omega
  calc mantissa <<< (exponent - least).toNat = mantissa * 2 ^ (exponent - least).toNat :=
    Nat.shiftLeft_eq _ _
    _ < 2 ^ 53 * 2 ^ (exponent - least).toNat := Nat.mul_lt_mul_of_pos_right hm (Nat.two_pow_pos _)
    _ = 2 ^ (53 + (exponent - least).toNat) := (pow_add 2 53 _).symm
    _ ≤ 2 ^ (high - least).toNat := Nat.pow_le_pow_right Nat.two_pos hle

/-- The sum may have its leading digit anywhere from the last digit of the smaller exponent on. -/
theorem Moderate.add (hx : Moderate low high x) (hy : Moderate low high y) (hleast : -970 ≤ low) :
    Moderate (low - 52) (high + 2) (x.add .binary64 y) := by
  cases hx with
  | zero sign =>
    cases hy with
    | zero sign' =>
      simp only [UnpackedFloat.add]
      split
      · exact .zero sign
      · exact .zero .positive
    | normal hy =>
      cases hy with
      | intro sign' positive' full' hl' hh' =>
        exact .normal (.intro sign' positive' full' (by omega) (by omega))
  | normal hx =>
    cases hx with
    | @intro sign m e positive full hl hh =>
      cases hy with
      | zero sign' => exact .normal (.intro sign positive full (by omega) (by omega))
      | normal hy =>
        cases hy with
        | @intro sign' m' e' positive' full' hl' hh' =>
          have first : (decreaseExponent m e (min e e')).1 < 2 ^ (high - min e e').toNat :=
            decreaseExponent_lt full hh (by omega)
          have second : (decreaseExponent m' e' (min e e')).1 < 2 ^ (high - min e e').toNat :=
            decreaseExponent_lt full' hh' (by omega)
          have hsign := natAbs_apply sign (decreaseExponent m e (min e e')).1
          have hsign' := natAbs_apply sign' (decreaseExponent m' e' (min e e')).1
          have bounded : (sign.apply (decreaseExponent m e (min e e')).1 +
              sign'.apply (decreaseExponent m' e' (min e e')).1).natAbs <
                2 ^ ((high - min e e').toNat + 1) := by
            rw [pow_succ]
            omega
          have sum := moderate_normalize .positive bounded (show -1022 ≤ min e e' by omega)
          exact sum.mono (by omega) (by omega)

theorem sub_eq_add_neg (hx : Moderate low high x) (hy : Moderate low high y) :
    x.sub .binary64 y = x.add .binary64 y.neg := by
  cases hx with
  | zero sign =>
    cases hy with
    | zero sign' => rfl
    | normal hy =>
      cases hy with
      | intro => rfl
  | normal hx =>
    cases hx with
    | intro sign =>
      cases hy with
      | zero sign' => rfl
      | normal hy =>
        cases hy with
        | intro sign' =>
          simp only [UnpackedFloat.sub, UnpackedFloat.add, UnpackedFloat.neg]
          cases sign' with
          | positive => rfl
          | negative =>
            exact congrArg (fun n => UnpackedFloat.normalize .binary64 n _ .positive)
              (sub_neg_eq_add _ _)

theorem Moderate.sub (hx : Moderate low high x) (hy : Moderate low high y) (hleast : -970 ≤ low) :
    Moderate (low - 52) (high + 2) (x.sub .binary64 y) := by
  rw [sub_eq_add_neg hx hy]
  exact hx.add hy.neg hleast

/-! ## Packing -/

/-- The leading digit is left out of the packed mantissa and put before it again. -/
theorem toNat_append_ofNat (full : mantissa.log2 = 52) :
    (1#1 ++ BitVec.ofNat 52 mantissa).toNat = mantissa := by
  have nonzero : mantissa ≠ 0 := by
    rintro rfl
    exact absurd full (by decide)
  have hlow : 2 ^ 52 ≤ mantissa := full ▸ Nat.log2_self_le nonzero
  have hhigh : mantissa < 2 ^ (52 + 1) := full ▸ Nat.lt_log2_self
  rw [BitVec.toNat_append, ← Nat.shiftLeft_add_eq_or_of_lt (BitVec.isLt _), BitVec.toNat_ofNat,
    Nat.shiftLeft_eq]
  show 1 * 2 ^ 52 + mantissa % 2 ^ 52 = mantissa
  omega

/-- A value whose leading digit stands at a place of the format comes back from its packed form. -/
theorem Normal.unpack_pack (h : Normal low high x) (hlow : -1022 ≤ low) (hhigh : high ≤ 1024) :
    unpack .binary64 (pack .binary64 x) = x := by
  cases h with
  | @intro sign m e positive full hl hh =>
    have hbias : ((Format.exponentBias .binary64 : Nat) : Int) = 1023 := by decide
    have hfraction : ((Format.mantissaBitsWithoutImplicit .binary64 : Nat) : Int) = 52 := by decide
    obtain ⟨biased, hbiased⟩ : ∃ biased : Nat, (biased : Int) = e + 1075 :=
      ⟨(e + 1075).toNat, by omega⟩
    have hfield : (BitVec.ofNat 11 biased).toNat = biased := by
      rw [BitVec.toNat_ofNat, Nat.mod_eq_of_lt (by omega)]
    have hsubnormal : BitVec.ofNat 11 biased ≠ 0#11 := by
      intro hzero
      rw [hzero] at hfield
      have : (0#11).toNat = 0 := rfl
      omega
    have hinfinite : BitVec.ofNat 11 biased ≠ -1#11 := by
      intro hones
      rw [hones] at hfield
      have : (-1#11).toNat = 2047 := by decide
      omega
    have packed : pack .binary64 (.finite sign m e positive) =
        packComponents .binary64 sign (BitVec.ofNat 11 biased) (BitVec.ofNat 52 m) := by
      have hplace : (e + 1023 + 52).toNat = biased := by omega
      simp only [pack, hbias, hfraction, hplace]
      rw [if_neg (show ¬2 ^ 11 ≤ biased + 1 by omega),
        if_pos (show m.log2 + 1 = Format.mantissaBits .binary64 from congrArg (· + 1) full)]
    simp only [packed, unpack, unpackExponent_packComponents, unpackMantissa_packComponents,
      unpackSign_packComponents, Sign.ofBitVec_toBitVec, hbias, hfraction]
    rw [if_neg hinfinite, if_neg hsubnormal]
    congr 1
    · exact toNat_append_ofNat full
    · rw [hfield]
      omega

theorem unpack_packedZero (sign : Sign) :
    unpack .binary64 (packedZero .binary64 sign) = .zero sign := by
  cases sign <;> rfl

theorem Moderate.unpack_pack (h : Moderate low high x) (hlow : -1022 ≤ low) (hhigh : high ≤ 1024) :
    unpack .binary64 (pack .binary64 x) = x := by
  cases h with
  | zero sign => exact unpack_packedZero sign
  | normal h => exact h.unpack_pack hlow hhigh

end StepFlow.Binary64
