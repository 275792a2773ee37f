import Mathlib
import StepFlow.Proofs.Binary64.Rounding

/-!
# Integers rounded to the digits of a float

A float has room for 53 significant digits. The integers that have no more are floats themselves,
and every other integer is rounded to the nearest of these, ties going to the even neighbour.
Rounding keeps the order of integers, though it may make two of them equal.
-/

namespace StepFlow.Binary64

/-! ## Rounding of integers -/

/-- A natural number rounded to 53 significant digits. -/
def rounded (m : Nat) : Nat :=
  roundedQuotient m (2 ^ (m.log2 - 52)) * 2 ^ (m.log2 - 52)

/-- An integer rounded to 53 significant digits. -/
def nearest (n : Int) : Int :=
  n.sign * rounded n.natAbs

/-- No more than 53 digits of an integer are significant: all others are zeros at its end. -/
def Significant (n : Int) : Prop :=
  ∃ places : Nat, 2 ^ places ∣ n.natAbs ∧ n.natAbs < 2 ^ (53 + places)

variable {m k d : Nat} {n : Int}

theorem roundedQuotient_of_dvd (hd : 0 < d) (h : d ∣ m) : roundedQuotient m d = m / d := by
  have hrest : compare (2 * (m % d)) d = .lt := by
    rw [Nat.mod_eq_zero_of_dvd h]
    exact Nat.compare_eq_lt.2 hd
  rw [roundedQuotient, hrest]

/-- No multiple is nearer than the rounded one. -/
theorem roundedQuotient_nearest (hd : 0 < d) (hk : d ∣ k) :
    |(m : Int) - (roundedQuotient m d * d : Nat)| ≤ |(m : Int) - k| := by
  obtain ⟨j, rfl⟩ := hk
  have hsplit : m / d * d + m % d = m := Nat.div_add_mod' m d
  have hrest : m % d < d := Nat.mod_lt m hd
  have hother : d * j ≤ m / d * d ∨ m / d * d + d ≤ d * j := by
    rw [mul_comm d j, ← Nat.succ_mul]
    rcases Nat.lt_or_ge (m / d) j with hlt | hge
    · exact .inr (Nat.mul_le_mul_right d hlt)
    · exact .inl (Nat.mul_le_mul_right d hge)
  have hchoice : 2 * (m % d) ≤ d ∧ roundedQuotient m d * d = m / d * d ∨
      d ≤ 2 * (m % d) ∧ roundedQuotient m d * d = m / d * d + d := by
    rw [← Nat.succ_mul]
    unfold roundedQuotient
    split
    · next h => exact .inl ⟨(Nat.compare_eq_lt.1 h).le, rfl⟩
    · next h =>
      have heq := Nat.compare_eq_eq.1 h
      rcases Nat.mod_two_eq_zero_or_one (m / d) with hparity | hparity
      · exact .inl ⟨heq.le, by rw [hparity, Nat.add_zero]⟩
      · exact .inr ⟨heq.ge, by rw [hparity]⟩
    · next h => exact .inr ⟨(Nat.compare_eq_gt.1 h).le, rfl⟩
  rw [Int.abs_eq_natAbs, Int.abs_eq_natAbs]
  omega

theorem roundedQuotient_mono (d : Nat) (h : m ≤ k) : roundedQuotient m d ≤ roundedQuotient k d := by
  obtain ⟨-, hup⟩ := div_le_roundedQuotient m d
  obtain ⟨hdown, -⟩ := div_le_roundedQuotient k d
  rcases (Nat.div_le_div_right h : m / d ≤ k / d).lt_or_eq with hlt | heq
  · omega
  · have hrest : m % d ≤ k % d := by
      have hm := Nat.div_add_mod' m d
      have hk := Nat.div_add_mod' k d
      rw [heq] at hm
      omega
    have hparity := Nat.mod_lt (k / d) Nat.two_pos
    unfold roundedQuotient
    rw [heq]
    rcases Nat.lt_trichotomy (2 * (m % d)) d with hm | hm | hm <;>
      rcases Nat.lt_trichotomy (2 * (k % d)) d with hk | hk | hk <;>
      simp only [Nat.compare_eq_lt.2, Nat.compare_eq_eq.2, Nat.compare_eq_gt.2, *] <;> omega

theorem roundedQuotient_mul (hk : 0 < k) :
    roundedQuotient (m * k) (d * k) = roundedQuotient m d := by
  have hcompare : compare (2 * (m * k % (d * k))) (d * k) = compare (2 * (m % d)) d := by
    rw [Nat.mul_mod_mul_right, ← mul_assoc]
    rcases Nat.lt_trichotomy (2 * (m % d)) d with h | h | h
    · rw [Nat.compare_eq_lt.2 h, Nat.compare_eq_lt.2 (Nat.mul_lt_mul_of_pos_right h hk)]
    · rw [Nat.compare_eq_eq.2 h, Nat.compare_eq_eq.2 (congrArg (· * k) h)]
    · rw [Nat.compare_eq_gt.2 h, Nat.compare_eq_gt.2 (Nat.mul_lt_mul_of_pos_right h hk)]
  rw [roundedQuotient, hcompare, Nat.mul_div_mul_right _ _ hk]
  rfl

theorem rounded_of_log2_le (h : m.log2 ≤ 52) : rounded m = m := by
  rw [rounded, Nat.sub_eq_zero_of_le h, pow_zero,
    roundedQuotient_of_dvd Nat.one_pos (one_dvd m), Nat.div_one, Nat.mul_one]

/-- A number with the digits after the 53rd all zeros is not changed. -/
theorem rounded_of_dvd {places : Nat} (hdvd : 2 ^ places ∣ m) (hlt : m < 2 ^ (53 + places)) :
    rounded m = m := by
  rcases Nat.eq_zero_or_pos m with rfl | hpos
  · rfl
  · have hlog : m.log2 < 53 + places := (Nat.log2_lt hpos.ne').2 hlt
    have hsmaller : 2 ^ (m.log2 - 52) ∣ m := (pow_dvd_pow 2 (by omega)).trans hdvd
    rw [rounded, roundedQuotient_of_dvd (Nat.two_pow_pos _) hsmaller, Nat.div_mul_cancel hsmaller]

/-- Zeros at the end make no difference. -/
theorem rounded_mul_two_pow (hm : m ≠ 0) (places : Nat) :
    rounded (m * 2 ^ places) = rounded m * 2 ^ places := by
  have hlog : (m * 2 ^ places).log2 = m.log2 + places := by
    rw [← Nat.shiftLeft_eq, log2_shiftLeft hm]
  rcases Nat.lt_or_ge m.log2 52 with hshort | hlong
  · have hlt : m < 2 ^ 53 := Nat.lt_log2_self.trans_le (Nat.pow_le_pow_right Nat.two_pos (by omega))
    rw [rounded_of_log2_le hshort.le]
    refine rounded_of_dvd (Nat.dvd_mul_left _ _) ?_
    rw [pow_add]
    exact Nat.mul_lt_mul_of_pos_right hlt (Nat.two_pow_pos places)
  · have hsplit : 2 ^ (m.log2 + places - 52) = 2 ^ (m.log2 - 52) * 2 ^ places := by
      rw [← pow_add]
      congr 1
      omega
    rw [rounded, hlog, hsplit, roundedQuotient_mul (Nat.two_pow_pos places), ← mul_assoc, ← rounded]

theorem le_rounded (hm : m ≠ 0) : 2 ^ m.log2 ≤ rounded m ∧ rounded m ≤ 2 ^ (m.log2 + 1) := by
  rcases Nat.lt_or_ge m.log2 52 with hshort | hlong
  · rw [rounded_of_log2_le hshort.le]
    exact ⟨Nat.log2_self_le hm, Nat.lt_log2_self.le⟩
  · obtain ⟨hlow, hhigh⟩ := div_pow_log2 hm hlong
    obtain ⟨hdown, hup⟩ := div_le_roundedQuotient m (2 ^ (m.log2 - 52))
    have hleast : 2 ^ m.log2 = 2 ^ 52 * 2 ^ (m.log2 - 52) := by
      rw [← pow_add, Nat.add_sub_cancel' hlong]
    rw [pow_succ, hleast, rounded]
    exact ⟨Nat.mul_le_mul_right _ (hlow.trans hdown), by
      rw [mul_right_comm]
      exact Nat.mul_le_mul_right _ (hup.trans hhigh)⟩

theorem rounded_mono (h : m ≤ k) : rounded m ≤ rounded k := by
  rcases Nat.eq_zero_or_pos m with rfl | hpos
  · exact Nat.zero_le _
  · have hk : k ≠ 0 := by omega
    have hlog : m.log2 ≤ k.log2 := (Nat.le_log2 hk).2 ((Nat.log2_self_le hpos.ne').trans h)
    rcases hlog.lt_or_eq with hlt | heq
    · calc rounded m ≤ 2 ^ (m.log2 + 1) := (le_rounded hpos.ne').2
        _ ≤ 2 ^ k.log2 := Nat.pow_le_pow_right Nat.two_pos hlt
        _ ≤ rounded k := (le_rounded hk).1
    · rw [rounded, rounded, heq]
      exact Nat.mul_le_mul_right _ (roundedQuotient_mono _ h)

theorem nearest_of_significant (h : Significant n) : nearest n = n := by
  obtain ⟨places, hdvd, hlt⟩ := h
  rw [nearest, rounded_of_dvd hdvd hlt, Int.sign_mul_natAbs]

theorem natAbs_nearest (n : Int) : (nearest n).natAbs = rounded n.natAbs := by
  rcases eq_or_ne n 0 with rfl | hn
  · rfl
  · rw [nearest, Int.natAbs_mul, Int.natAbs_sign_of_ne_zero hn, Nat.one_mul, Int.natAbs_natCast]

theorem significant_nearest (n : Int) : Significant (nearest n) := by
  unfold Significant
  rw [natAbs_nearest]
  generalize n.natAbs = m
  rcases Nat.lt_or_ge m.log2 52 with hshort | hlong
  · rw [rounded_of_log2_le hshort.le]
    exact ⟨0, one_dvd m, Nat.lt_log2_self.trans_le (Nat.pow_le_pow_right Nat.two_pos (by omega))⟩
  · have hm : m ≠ 0 := by
      rintro rfl
      exact absurd hlong (by decide)
    obtain ⟨hlow, hhigh⟩ := div_pow_log2 hm hlong
    obtain ⟨q, places, hfull, -, hquotient⟩ := exists_roundedQuotient hlow hhigh
    have hq : q < 2 ^ 53 := by
      have := @Nat.lt_log2_self q
      rwa [hfull] at this
    refine ⟨places + (m.log2 - 52), ?_, ?_⟩
    · rw [rounded, hquotient, mul_assoc, ← pow_add]
      exact Nat.dvd_mul_left _ _
    · rw [rounded, hquotient, mul_assoc, ← pow_add, pow_add 2 53]
      exact Nat.mul_lt_mul_of_pos_right hq (Nat.two_pow_pos _)

/-- An integer is a float exactly if it is not changed by rounding. -/
theorem nearest_eq_self_iff : nearest n = n ↔ Significant n :=
  ⟨fun h => h ▸ significant_nearest n, nearest_of_significant⟩

theorem nearest_natCast (m : Nat) : nearest m = rounded m := by
  rcases Nat.eq_zero_or_pos m with rfl | hpos
  · rfl
  · rw [nearest, Int.sign_eq_one_of_pos (by exact_mod_cast hpos), Int.natAbs_natCast, one_mul]

theorem nearest_neg (n : Int) : nearest (-n) = -nearest n := by
  rw [nearest, nearest, Int.sign_neg, Int.natAbs_neg, neg_mul]

/-- Rounding keeps the order of integers. -/
theorem nearest_mono : Monotone nearest := by
  intro a b h
  obtain ⟨m, rfl | rfl⟩ := Int.eq_nat_or_neg a <;> obtain ⟨k, rfl | rfl⟩ := Int.eq_nat_or_neg b
  · rw [nearest_natCast, nearest_natCast]
    exact_mod_cast rounded_mono (by exact_mod_cast h)
  · obtain ⟨rfl, rfl⟩ : m = 0 ∧ k = 0 := by omega
    exact le_rfl
  · rw [nearest_neg, nearest_natCast, nearest_natCast]
    omega
  · rw [nearest_neg, nearest_neg, nearest_natCast, nearest_natCast, neg_le_neg_iff]
    exact_mod_cast rounded_mono (by omega)

theorem rounded_nearest (hk : Significant k) : |(m : Int) - rounded m| ≤ |(m : Int) - k| := by
  obtain ⟨places, hdvd, hlt⟩ := hk
  rw [Int.natAbs_natCast] at hdvd hlt
  rcases Nat.lt_or_ge places (m.log2 - 52) with hbelow | habove
  · -- the power of two below the rounded number is a multiple too, and it lies between the two
    have hpower : 2 ^ (m.log2 - 52) ∣ 2 ^ m.log2 := pow_dvd_pow 2 (Nat.sub_le _ _)
    have hnearest := @roundedQuotient_nearest m _ _ (Nat.two_pow_pos (m.log2 - 52)) hpower
    have hm : m ≠ 0 := by
      rintro rfl
      exact absurd hbelow (Nat.not_lt_zero places)
    have hle : 2 ^ m.log2 ≤ m := Nat.log2_self_le hm
    have hleast : k < 2 ^ m.log2 := hlt.trans_le (Nat.pow_le_pow_right Nat.two_pos (by omega))
    generalize 2 ^ m.log2 = power at hnearest hle hleast
    rw [Int.abs_eq_natAbs, Int.abs_eq_natAbs] at hnearest ⊢
    rw [rounded]
    omega
  · exact roundedQuotient_nearest (Nat.two_pow_pos _) ((pow_dvd_pow 2 habove).trans hdvd)

theorem Significant.neg {n : Int} (h : Significant n) : Significant (-n) := by
  rwa [Significant, Int.natAbs_neg]

/-- No integer that is a float is nearer than the rounded one. -/
theorem nearest_nearest {n k : Int} (hk : Significant k) : |n - nearest n| ≤ |n - k| := by
  have natural (m : Nat) {k : Int} (hk : Significant k) :
      |(m : Int) - nearest m| ≤ |(m : Int) - k| := by
    rw [nearest_natCast]
    obtain ⟨k, rfl | rfl⟩ := Int.eq_nat_or_neg k
    · exact rounded_nearest hk
    · have hzero : Significant (0 : Nat) := ⟨0, one_dvd _, Nat.two_pow_pos _⟩
      have hnearest := @rounded_nearest m 0 hzero
      rw [Int.abs_eq_natAbs, Int.abs_eq_natAbs] at hnearest ⊢
      omega
  obtain ⟨m, rfl | rfl⟩ := Int.eq_nat_or_neg n
  · exact natural m hk
  · have hnearest := natural m hk.neg
    rw [Int.abs_eq_natAbs, Int.abs_eq_natAbs] at hnearest ⊢
    rw [nearest_neg]
    omega

/-- Rounding to 53 significant digits: the order is kept, and no integer with so
few digits is nearer. -/
structure IsRounding (round : Int → Int) : Prop where
  mono : Monotone round
  significant : ∀ n, Significant (round n)
  nearest : ∀ n k, Significant k → |n - round n| ≤ |n - k|

theorem isRounding_nearest : IsRounding nearest where
  mono := nearest_mono
  significant := significant_nearest
  nearest _ _ hk := nearest_nearest hk

end StepFlow.Binary64
