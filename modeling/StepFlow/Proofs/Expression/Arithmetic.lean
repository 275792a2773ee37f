import StepFlow.Expression.Eval
import StepFlow.Proofs.Binary64

/-!
# Arithmetic on integers

Operands that are integers of signed 64 bits are computed with exactly. A result that fits again is
given as an integer, and one that does not as the float that the operation gives on the nearest
floats; that float is always finite, so nothing overflows and no operation is without an answer.

Two corners do not keep to this, both of the least integer. Its remainder by minus one is zero,
which fits, but is left to the floats because the quotient does not fit; and its magnitude is
clamped to the greatest integer, where the prefix minus gives a float.
-/

namespace StepFlow

open Number (FitsSigned FitsWord floatOfInt)

variable {a b n : Int} {f : Float}

/-- A number of signed 64 bits is one of 64 bits. -/
theorem Number.FitsSigned.fitsWord (h : FitsSigned n) : FitsWord n := ⟨h.1, by have := h.2; omega⟩

/-- The answer to an operation whose exact result is an integer: that integer where it fits,
and elsewhere a float. -/
def ExactlyOr (n : Int) (f : Float) (answer : Except ExprError Value) : Prop :=
  if FitsSigned n then answer = .ok (.ofInt n)
  else ∃ finite, answer = .ok (.number (.float f finite))

namespace Value

theorem ofInt_eq_number (h : FitsSigned n) : Value.ofInt n = .number (.ofSigned n h) := by
  simp only [Value.ofInt, Number.ofInt?, dif_pos h.fitsWord]
  rfl

theorem operand?_ofInt (h : FitsSigned n) : (Value.ofInt n).operand? = some (.int n) := by
  rw [ofInt_eq_number h]
  simp only [operand?, Operand.ofNumber, Number.ofSigned, Number.signed?, if_pos h]

/-- The float is asked for only where the integer does not fit. -/
theorem exactlyOr_intOr (finite : ¬FitsSigned n → f.isFinite = true) :
    ExactlyOr n f (.ok (intOr n f)) := by
  unfold ExactlyOr intOr
  split
  · rfl
  · next h =>
    refine ⟨finite h, ?_⟩
    simp only [ofFloat, Number.ofFloat?, dif_pos (finite h)]

end Value

/-! ## Operands -/

namespace Operand

theorem exactlyOr_add (ha : FitsSigned a) (hb : FitsSigned b) :
    ExactlyOr (a + b) (floatOfInt a + floatOfInt b) (.ok ((int a).add (int b))) :=
  Value.exactlyOr_intOr fun _ =>
    Binary64.isFinite_add (Binary64.moderate_floatOfInt ha.fitsWord)
      (Binary64.moderate_floatOfInt hb.fitsWord)
      (by decide) (by decide)

theorem exactlyOr_sub (ha : FitsSigned a) (hb : FitsSigned b) :
    ExactlyOr (a - b) (floatOfInt a - floatOfInt b) (.ok ((int a).sub (int b))) :=
  Value.exactlyOr_intOr fun _ =>
    Binary64.isFinite_sub (Binary64.moderate_floatOfInt ha.fitsWord)
      (Binary64.moderate_floatOfInt hb.fitsWord)
      (by decide) (by decide)

theorem exactlyOr_mul (ha : FitsSigned a) (hb : FitsSigned b) :
    ExactlyOr (a * b) (floatOfInt a * floatOfInt b) (.ok ((int a).mul (int b))) :=
  Value.exactlyOr_intOr fun _ =>
    Binary64.isFinite_mul (Binary64.moderate_floatOfInt ha.fitsWord)
      (Binary64.moderate_floatOfInt hb.fitsWord)
      (by decide) (by decide)

/-- Of the quotients of integers only one does not fit. -/
theorem fitsSigned_tdiv (ha : FitsSigned a) (hb : b ≠ 0)
    (corner : ¬(a = -9223372036854775808 ∧ b = -1)) :
    FitsSigned (a.tdiv b) := by
  have magnitude : (a.tdiv b).natAbs = a.natAbs / b.natAbs := Int.natAbs_tdiv a b
  rcases Nat.lt_or_ge 1 b.natAbs with hlarge | hunit
  · have half : a.natAbs / b.natAbs ≤ a.natAbs / 2 := Nat.div_le_div_left hlarge Nat.two_pos
    constructor <;> omega
  · rcases Int.natAbs_eq_iff.1 (show b.natAbs = (1 : Nat) by omega) with rfl | rfl
    · rwa [Nat.cast_one, Int.tdiv_one]
    · rw [Nat.cast_one] at corner ⊢
      rw [Int.tdiv_neg, Int.tdiv_one]
      constructor <;> omega

theorem exactlyOr_div (ha : FitsSigned a) (hb : b ≠ 0) (hdvd : b ∣ a) :
    ExactlyOr (a / b) (floatOfInt a / floatOfInt b) (.ok ((int a).div (int b))) := by
  have hquotient : a.tdiv b = a / b := Int.tdiv_eq_ediv_of_dvd hdvd
  simp only [div, if_pos (Int.tmod_eq_zero_of_dvd hdvd), hquotient]
  refine Value.exactlyOr_intOr fun unfit => ?_
  by_cases corner : a = -9223372036854775808 ∧ b = -1
  · obtain ⟨rfl, rfl⟩ := corner
    decide
  · exact absurd (hquotient ▸ fitsSigned_tdiv ha hb corner) unfit

theorem rem_eq (ha : FitsSigned a) (hb : b ≠ 0) (corner : ¬(a = -9223372036854775808 ∧ b = -1)) :
    (int a).rem (int b) = .ofInt (a.tmod b) := by
  simp only [rem, if_pos (fitsSigned_tdiv ha hb corner)]

theorem exactlyOr_neg (ha : FitsSigned a) : ExactlyOr (-a) (-(floatOfInt a)) (.ok (int a).neg) := by
  refine Value.exactlyOr_intOr fun unfit => ?_
  obtain rfl : a = -9223372036854775808 := by
    by_contra h
    exact unfit ⟨by omega, by omega⟩
  decide

theorem abs_eq (ha : FitsSigned a) (corner : a ≠ -9223372036854775808) :
    (int a).abs = .ofInt |a| := by
  have bounded : (a.natAbs : Int) ≤ 9223372036854775807 := by omega
  rw [abs, min_eq_right bounded, Int.natCast_natAbs]

end Operand

/-! ## Operators -/

namespace BinaryOp

theorem arithmetic_ofInt (op : BinaryOp) (f : Operand → Operand → Except ExprError Value)
    (ha : FitsSigned a) (hb : FitsSigned b) :
    op.arithmetic f (.ofInt a) (.ofInt b) = f (.int a) (.int b) := by
  simp only [arithmetic, Value.operand?_ofInt ha, Value.operand?_ofInt hb]

/-- No other integer is near the float zero. -/
theorem nonzero_int (f : Operand → Operand → Value) (hb : FitsSigned b) (h : b ≠ 0) :
    nonzero f (.int a) (.int b) = .ok (f (.int a) (.int b)) := by
  have hfloat := Binary64.beq_zero_eq_false (Binary64.normal_floatOfInt h hb.fitsWord)
  simp only [nonzero, Operand.toFloat, hfloat]
  rfl

theorem apply_add_ofInt (ha : FitsSigned a) (hb : FitsSigned b) :
    apply .add (.ofInt a) (.ofInt b) = .ok ((Operand.int a).add (.int b)) := by
  have h := arithmetic_ofInt .add (fun x y => .ok (x.add y)) ha hb
  rw [Value.ofInt_eq_number ha, Value.ofInt_eq_number hb] at h ⊢
  exact h

end BinaryOp

/-! ## Expressions -/

namespace Expr

variable {look : Bindings} {left right : Expr} {l r : Value}

theorem eval_binary {op : BinaryOp} (hl : left.eval look = .ok l) (hr : right.eval look = .ok r)
    (hand : op ≠ .and) (hor : op ≠ .or) : (Expr.binary op left right).eval look = op.apply l r := by
  rw [eval]
  · rw [hl, hr]
    rfl
  · exact hand
  · exact hor

theorem eval_unary (op : UnaryOp) (hl : left.eval look = .ok l) :
    (Expr.unary op left).eval look = (op.apply l).mapError .type := by
  rw [eval, hl]
  rfl

theorem eval_call_one {function : String} {f : Builtin} (hf : Builtin.ofName? function = some f)
    (hl : left.eval look = .ok l) :
    (Expr.call function [left]).eval look = (f.apply [l]).mapError .type := by
  rw [eval, evalItems, evalItems, hl]
  simp only [bind, Except.bind, pure, Except.pure, hf]

/-- What arithmetic gives on two expressions whose values are integers. -/
structure ExactArithmetic (look : Bindings) (left right : Expr) (a b : Int) : Prop where
  add : ExactlyOr (a + b) (floatOfInt a + floatOfInt b) ((Expr.binary .add left right).eval look)
  sub : ExactlyOr (a - b) (floatOfInt a - floatOfInt b) ((Expr.binary .sub left right).eval look)
  mul : ExactlyOr (a * b) (floatOfInt a * floatOfInt b) ((Expr.binary .mul left right).eval look)
  /-- The quotient is exact where the divisor divides. -/
  div : b ≠ 0 → b ∣ a →
    ExactlyOr (a / b) (floatOfInt a / floatOfInt b) ((Expr.binary .div left right).eval look)
  /-- The remainder has the sign of the dividend, and it always fits. -/
  rem : b ≠ 0 → ¬(a = -9223372036854775808 ∧ b = -1) →
    (Expr.binary .rem left right).eval look = .ok (.ofInt (a.tmod b))
  neg : ExactlyOr (-a) (-(floatOfInt a)) ((Expr.unary .neg left).eval look)
  abs : a ≠ -9223372036854775808 → (Expr.call "abs" [left]).eval look = .ok (.ofInt |a|)

/-- Arithmetic on integers is exact, but for the two corners of the least integer. -/
theorem integer_arithmetic_exact (ha : FitsSigned a) (hb : FitsSigned b)
    (hl : left.eval look = .ok (.ofInt a)) (hr : right.eval look = .ok (.ofInt b)) :
    ExactArithmetic look left right a b := by
  constructor
  case add =>
    rw [eval_binary hl hr (by decide) (by decide), BinaryOp.apply_add_ofInt ha hb]
    exact Operand.exactlyOr_add ha hb
  case sub =>
    rw [eval_binary hl hr (by decide) (by decide), BinaryOp.apply,
      BinaryOp.arithmetic_ofInt _ _ ha hb]
    exact Operand.exactlyOr_sub ha hb
  case mul =>
    rw [eval_binary hl hr (by decide) (by decide), BinaryOp.apply,
      BinaryOp.arithmetic_ofInt _ _ ha hb]
    exact Operand.exactlyOr_mul ha hb
  case div =>
    intro h hdvd
    rw [eval_binary hl hr (by decide) (by decide), BinaryOp.apply,
      BinaryOp.arithmetic_ofInt _ _ ha hb, BinaryOp.nonzero_int _ hb h]
    exact Operand.exactlyOr_div ha h hdvd
  case rem =>
    intro h corner
    rw [eval_binary hl hr (by decide) (by decide), BinaryOp.apply,
      BinaryOp.arithmetic_ofInt _ _ ha hb, BinaryOp.nonzero_int _ hb h, Operand.rem_eq ha h corner]
  case neg =>
    rw [eval_unary .neg hl]
    simp only [UnaryOp.apply, Value.operand?_ofInt ha]
    exact Operand.exactlyOr_neg ha
  case abs =>
    intro corner
    rw [eval_call_one (show Builtin.ofName? "abs" = some .abs by decide) hl]
    simp only [Builtin.apply, Builtin.applyOne, Value.operand?_ofInt ha, Operand.abs_eq ha corner]
    rfl

theorem integer_arithmetic_exact_greatest :
    ExactArithmetic .none (.literal (.ofInt 9223372036854775807)) (.literal (.ofInt (-1)))
      9223372036854775807 (-1) :=
  integer_arithmetic_exact (by decide) (by decide) rfl rfl

/-- At the least integer the remainder by minus one is a float, negative zero, and the magnitude is
one less than it should be. -/
theorem least_integer_inexact :
    (Expr.binary .rem (.literal (.ofInt (-9223372036854775808))) (.literal (.ofInt (-1)))).eval
      .none =
        .ok (.ofFloat (-0.0)) ∧
      Value.ofFloat (-0.0) ≠ .ofInt ((-9223372036854775808 : Int).tmod (-1)) ∧
      (Expr.call "abs" [.literal (.ofInt (-9223372036854775808))]).eval .none =
        .ok (.ofInt 9223372036854775807) ∧
      (9223372036854775807 : Int) ≠ |-9223372036854775808| := by
  refine ⟨?_, by decide, ?_, by decide⟩
  · rw [eval_binary rfl rfl (by decide) (by decide)]
    rfl
  · rw [eval_call_one (show Builtin.ofName? "abs" = some .abs by decide) rfl]
    rfl

end Expr

end StepFlow
