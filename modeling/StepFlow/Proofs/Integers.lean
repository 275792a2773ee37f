import StepFlow.Proofs.Binary64
import StepFlow.Proofs.Binary64.Exact
import StepFlow.Proofs.Field

/-!
# Numbers read as integer fields

A document number is read as an integer by the number that it stands for, in whichever of its kinds
it comes. All integer types are read through signed 64 bits. That leaves out the integers from
`2 ^ 63` on, though the unsigned type has them and writes them, and of the floats it leaves out the
one for the least integer, as their magnitude has to be below `2 ^ 63`.
-/

namespace StepFlow

open Number (FitsSigned FitsWord floatOfInt)

variable {n : Int}

namespace Number

/-- The number that a document number stands for. -/
def value? : Number → Option ℚ
  | .int n _ => some n
  | .float f _ => Binary64.value? f

/-- Every document number stands for one. -/
theorem isSome_value? (number : Number) : number.value?.isSome = true := by
  cases number with
  | int => rfl
  | float f finite => exact Binary64.isSome_value? finite

/-- The least integer that a number of its kind is read as. -/
def leastRead : Number → Int
  | .int _ _ => -9223372036854775808
  | .float _ _ => -9223372036854775807

end Number

namespace Shape

/-- The float near a large integer is as large. -/
theorem intOfFloat?_floatOfInt (h : FitsWord n) (large : 9223372036854775808 ≤ n) :
    intOfFloat? (floatOfInt n) = none := by
  have nonzero : n.natAbs ≠ 0 := by omega
  have hlog : 63 ≤ n.natAbs.log2 := (Nat.le_log2 nonzero).2 (by omega)
  have place := (Binary64.normal_floatOfInt (Int.natAbs_ne_zero.1 nonzero) h).mono
    (show (63 : Int) ≤ n.natAbs.log2 by omega) le_rfl
  refine Option.eq_none_iff_forall_ne_some.2 fun m hm => ?_
  obtain ⟨hinteger, hsmall⟩ := Option.filter_eq_some_iff.1 hm
  have hvalue := Binary64.two_zpow_le_abs_value place (Binary64.integer?_eq_some_iff.1 hinteger)
  have hmagnitude : (2 : Int) ^ 63 ≤ m.natAbs := by
    rw [Int.natCast_natAbs]
    exact_mod_cast hvalue
  have hbelow : m.natAbs < 9223372036854775808 := by simpa using hsmall
  omega

/-- A number is read as the integer that it stands for, within what its kind reaches. -/
theorem signedOfNumber?_eq_some_iff {number : Number} :
    signedOfNumber? number = some n ↔
      number.value? = some (n : ℚ) ∧ number.leastRead ≤ n ∧ n ≤ 9223372036854775807 := by
  cases number with
  | int k hk =>
    have hsame : (Number.int k hk).value? = some (n : ℚ) ↔ k = n := by
      rw [Number.value?, Option.some_inj, Int.cast_inj]
    rw [hsame]
    by_cases hfits : FitsSigned k
    · simp only [signedOfNumber?, Number.signed?, if_pos hfits, Option.some_inj, Number.leastRead]
      omega
    · have hlarge : 9223372036854775808 ≤ k := by omega
      simp only [signedOfNumber?, Number.signed?, if_neg hfits, Number.toFloat,
        intOfFloat?_floatOfInt hk hlarge]
      constructor
      · intro h
        cases h
      · rintro ⟨rfl, -, hle⟩
        omega
  | float f finite =>
    show intOfFloat? f = some n ↔ Binary64.value? f = some (n : ℚ) ∧ _
    rw [intOfFloat?, Option.filter_eq_some_iff, Binary64.integer?_eq_some_iff, decide_eq_true_eq,
      Number.leastRead]
    refine and_congr_right fun _ => ?_
    omega

theorem ofInt?_eq_some_iff {kind : IntKind} {a : kind.Carrier} :
    kind.ofInt? n = some a ↔ n = a.val :=
  ⟨fun h => (val_of_ofInt? h).symm, fun h => h ▸ ofInt?_val kind a⟩

/-- A number of any value is read as an integer of the type if it stands for that integer. -/
theorem ofValue?_number_eq_some_iff {kind : IntKind} {number : Number} {a : kind.Carrier} :
    ofValue? (.int kind) (.number number) = some a ↔
      number.value? = some (a.val : ℚ) ∧ number.leastRead ≤ a.val ∧
      a.val ≤ 9223372036854775807 := by
  show (signedOfNumber? number).bind kind.ofInt? = some a ↔ _
  rw [Option.bind_eq_some_iff]
  simp only [signedOfNumber?_eq_some_iff, ofInt?_eq_some_iff]
  constructor
  · rintro ⟨_, h, rfl⟩
    exact h
  · exact fun h => ⟨a.val, h, rfl⟩

/-- What a field of an integer type holds is written as the number for it. -/
theorem toValue_int (kind : IntKind) (a : kind.Carrier) :
    ∃ fits, toValue (.int kind) a = .number (.int a.val fits) := by
  have fits : FitsWord a.val := by
    have hleast := a.property.1
    have hgreatest := a.property.2
    cases kind <;> simp only [IntKind.least, IntKind.greatest] at hleast hgreatest <;>
      constructor <;> omega
  refine ⟨fits, ?_⟩
  simp only [toValue, Value.ofInt, Number.ofInt?, dif_pos fits]

/-- A number that stands for an integer is read as that integer if the type has it and the kind
of the number reaches it. So what is written is read back up to the greatest signed integer,
and nothing beyond. -/
theorem integers_read (kind : IntKind) :
    (∀ (number : Number) (n : Int), number.value? = some (n : ℚ) →
      (ofValue? (.int kind) (.number number)).map (fun a : kind.Carrier => a.val) =
        if (kind.least ≤ n ∧ n ≤ kind.greatest) ∧ number.leastRead ≤ n ∧
        n ≤ 9223372036854775807 then some n
        else none) ∧
      ∀ a : kind.Carrier, ofValue? (.int kind) (toValue (.int kind) a) =
        if a.val ≤ 9223372036854775807 then some a else none := by
  constructor
  · intro number n hvalue
    split
    · next h =>
      obtain ⟨hrange, hreach⟩ := h
      have read : ofValue? (.int kind) (.number number) = some (⟨n, hrange⟩ : kind.Carrier) :=
        ofValue?_number_eq_some_iff.2 ⟨hvalue, hreach⟩
      rw [read]
      rfl
    · next h =>
      refine Option.map_eq_none_iff.2 (Option.eq_none_iff_forall_ne_some.2 fun a ha => h ?_)
      obtain ⟨heq, hreach⟩ := ofValue?_number_eq_some_iff.1 ha
      obtain rfl : n = a.val := by
        rw [hvalue] at heq
        exact_mod_cast Option.some_inj.1 heq
      exact ⟨a.property, hreach⟩
  · intro a
    obtain ⟨fits, hwritten⟩ := toValue_int kind a
    rw [hwritten]
    split
    · next h => exact ofValue?_number_eq_some_iff.2 ⟨rfl, fits.1, h⟩
    · next h =>
      refine Option.eq_none_iff_forall_ne_some.2 fun b hb => h ?_
      obtain ⟨heq, -, hle⟩ := ofValue?_number_eq_some_iff.1 hb
      have hsame : a.val = b.val := by exact_mod_cast Option.some_inj.1 heq
      exact hsame.trans_le hle

theorem integers_read_float :
    (Number.float 3.0 rfl).value? = some ((3 : Int) : ℚ) ∧
      (ofValue? (.int .signed32) (.number (.float 3.0 rfl))).map
        (fun a : IntKind.signed32.Carrier => a.val) =
        some 3 := by
  have hvalue : (Number.float 3.0 rfl).value? = some ((3 : Int) : ℚ) := by
    have hparts : Binary64.decode? 3.0 = some ⟨false, 6755399441055744, -51⟩ := rfl
    show (Binary64.decode? 3.0).map Binary64.Exact.value = some ((3 : Int) : ℚ)
    rw [hparts, Option.map_some, Binary64.Exact.value]
    norm_num [Binary64.Exact.signed]
  exact ⟨hvalue, (integers_read .signed32).1 (.float 3.0 rfl) 3 hvalue⟩

/-- The integer `2 ^ 63` is of the unsigned type, and the float for `-2 ^ 63` stands for an integer
of the signed one, and neither is read. -/
theorem integers_left_out :
    (IntKind.unsigned64.least ≤ 9223372036854775808 ∧
      9223372036854775808 ≤ IntKind.unsigned64.greatest ∧
      ofValue? (.int .unsigned64) (.ofInt 9223372036854775808) = none) ∧
    ((Number.float (-9223372036854775808.0) rfl).value? = some ((-9223372036854775808 : Int) : ℚ) ∧
      IntKind.signed64.least ≤ -9223372036854775808 ∧
      -9223372036854775808 ≤ IntKind.signed64.greatest ∧
      ofValue? (.int .signed64) (.number (.float (-9223372036854775808.0) rfl)) = none) := by
  refine ⟨⟨by decide, by decide, by decide⟩, ?_, by decide, by decide, by decide⟩
  have hparts : Binary64.decode? (-9223372036854775808.0) = some ⟨true, 4503599627370496, 11⟩ := rfl
  show (Binary64.decode? (-9223372036854775808.0)).map Binary64.Exact.value =
    some ((-9223372036854775808 : Int) : ℚ)
  rw [hparts, Option.map_some, Binary64.Exact.value]
  norm_num [Binary64.Exact.signed]

end Shape

end StepFlow
