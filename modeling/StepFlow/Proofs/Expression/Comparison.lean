import StepFlow.Proofs.Binary64.Order
import StepFlow.Proofs.Expression.Arithmetic

/-!
# Comparison of integers

Equality, order, membership, the greatest and the least item go by floats, also where both sides are
integers. So integers are compared as they are rounded to 53 significant digits. The order is never
turned round, and integers with no more digits are compared exactly; but two large integers may
count as equal that subtraction tells apart, and the greatest item of a list may come out as an
integer that is not in it.
-/

namespace StepFlow

open Number (FitsSigned floatOfInt)
open Binary64 (nearest Significant Normal Moderate number)

variable {a b n : Int} {items : List Int}

/-- The answer is an integer: given as one where its magnitude is below `2 ^ 63`, and elsewhere as
the float that stands for it. -/
def GivesInteger (n : Int) (answer : Except ExprError Value) : Prop :=
  if n.natAbs < 9223372036854775808 then answer = .ok (.ofInt n)
  else ∃ f finite, answer = .ok (.number (.float f finite)) ∧ Binary64.value? f = some (n : ℚ)

namespace Value

theorem looselyEquals_ofInt (ha : FitsSigned a) (hb : FitsSigned b) :
    (Value.ofInt a).looselyEquals (.ofInt b) = decide (nearest a = nearest b) := by
  simp only [looselyEquals, operand?_ofInt ha, operand?_ofInt hb, Operand.toFloat]
  rw [Bool.eq_iff_iff, Binary64.floatOfInt_beq_iff ha.fitsWord hb.fitsWord, decide_eq_true_iff]

theorem gives_narrow (h : FitsSigned n) :
    GivesInteger (nearest n) (.ok (narrow (floatOfInt n))) := by
  have hvalue := Binary64.value?_floatOfInt h.fitsWord
  have hfinite := Binary64.isFinite_floatOfInt h.fitsWord
  simp only [GivesInteger, narrow, Binary64.integer?_eq_some_iff.2 hvalue]
  split
  · rfl
  · refine ⟨_, hfinite, ?_, hvalue⟩
    simp only [ofFloat, Number.ofFloat?, dif_pos hfinite]

theorem ofInt_inj (ha : FitsSigned a) (hb : FitsSigned b) : Value.ofInt a = .ofInt b ↔ a = b := by
  rw [ofInt_eq_number ha, ofInt_eq_number hb, Number.ofSigned, Number.ofSigned, Value.number.injEq,
    Number.int.injEq]

end Value

theorem BinaryOp.ordering?_ofInt (ha : FitsSigned a) (hb : FitsSigned b) :
    ordering? (.ofInt a) (.ofInt b) = some (compare (nearest a) (nearest b)) := by
  have hless : (Operand.int a).toFloat < (Operand.int b).toFloat ↔ nearest a < nearest b :=
    Binary64.floatOfInt_lt_iff ha.fitsWord hb.fitsWord
  have hequal : ((Operand.int a).toFloat == (Operand.int b).toFloat) = true ↔
      nearest a = nearest b :=
    Binary64.floatOfInt_beq_iff ha.fitsWord hb.fitsWord
  have hgreater : (Operand.int b).toFloat < (Operand.int a).toFloat ↔ nearest b < nearest a :=
    Binary64.floatOfInt_lt_iff hb.fitsWord ha.fitsWord
  have hleft := Value.operand?_ofInt ha
  have hright := Value.operand?_ofInt hb
  rw [Value.ofInt_eq_number ha] at hleft ⊢
  rw [Value.ofInt_eq_number hb] at hright ⊢
  simp only [ordering?, hleft, hright]
  rcases lt_trichotomy (nearest a) (nearest b) with h | h | h
  · rw [if_pos (hless.2 h), Int.compare_eq_lt.2 h]
  · rw [if_neg (mt hless.1 h.not_lt), if_pos (hequal.2 h), Int.compare_eq_eq.2 h]
  · rw [if_neg (mt hless.1 h.not_gt), if_neg (mt hequal.1 h.ne'), if_pos (hgreater.2 h),
      Int.compare_eq_gt.2 h]

theorem BinaryOp.comparison_ofInt (test : Ordering → Bool) (ha : FitsSigned a) (hb : FitsSigned b) :
    comparison test (.ofInt a) (.ofInt b) =
      .ok (.bool (test (compare (nearest a) (nearest b)))) := by
  rw [comparison, ordering?_ofInt ha hb]

/-! ## The greatest and the least item -/

namespace Builtin

/-- A fold that goes over to an item whenever its key is greater ends with an item
of the greatest key. -/
theorem foldl_choice {choose : Float → Float → Float} {key : Float → ℚ} {P : Float → Prop}
    (spec : ∀ f g, P f → P g → choose f g = if key f < key g then g else f) {fs : List Float}
    {start : Float} (hstart : P start) (hfs : ∀ f ∈ fs, P f) :
    fs.foldl choose start ∈ start :: fs ∧
    ∀ f ∈ start :: fs, key f ≤ key (fs.foldl choose start) := by
  induction fs generalizing start with
  | nil => simp
  | cons g rest ih =>
    obtain ⟨hg, hrest⟩ := List.forall_mem_cons.1 hfs
    rw [List.foldl_cons, spec start g hstart hg]
    split
    · next hless =>
      obtain ⟨hmem, hle⟩ := ih hg hrest
      refine ⟨List.mem_cons_of_mem _ hmem, List.forall_mem_cons.2 ⟨?_, hle⟩⟩
      exact hless.le.trans (hle g List.mem_cons_self)
    · next hnot =>
      obtain ⟨hmem, hle⟩ := ih hstart hrest
      obtain ⟨hfirst, hothers⟩ := List.forall_mem_cons.1 hle
      refine ⟨?_, List.forall_mem_cons.2
        ⟨hfirst, List.forall_mem_cons.2 ⟨(not_lt.1 hnot).trans hfirst, hothers⟩⟩⟩
      rcases List.mem_cons.1 hmem with heq | hmem
      · rw [heq]
        exact List.mem_cons_self
      · exact List.mem_cons_of_mem _ (List.mem_cons_of_mem _ hmem)

/-- Started below all items, such a fold ends with the float of an item. -/
theorem exists_foldl_floatOfInt (choose : Float → Float → Float) (key : Float → ℚ) {start : Float}
    (spec : ∀ f g : Float, Moderate 0 1024 f.toModel.unpack → Moderate 0 1024 g.toModel.unpack →
      choose f g = if key f < key g then g else f)
    (hstart : Moderate 0 1024 start.toModel.unpack) (nonempty : items ≠ [])
    (fits : ∀ n ∈ items, FitsSigned n) (below : ∀ n ∈ items, key start < key (floatOfInt n)) :
    ∃ n ∈ items, (items.map floatOfInt).foldl choose start = floatOfInt n ∧
      ∀ m ∈ items, key (floatOfInt m) ≤ key (floatOfInt n) := by
  have hfs : ∀ f ∈ items.map floatOfInt, Moderate 0 1024 f.toModel.unpack :=
    List.forall_mem_map.2 fun n hn =>
      (Binary64.moderate_floatOfInt (fits n hn).fitsWord).mono le_rfl (by decide)
  obtain ⟨hmem, hle⟩ := foldl_choice spec hstart hfs
  obtain ⟨first, hfirst⟩ := List.exists_mem_of_ne_nil items nonempty
  have hgreatest (m : Int) (hm : m ∈ items) :=
    hle _ (List.mem_cons_of_mem _ (List.mem_map_of_mem hm))
  rcases List.mem_cons.1 hmem with heq | hmem
  · rw [heq] at hgreatest
    exact absurd (below first hfirst) (not_lt.2 (hgreatest first hfirst))
  · obtain ⟨n, hn, heq⟩ := List.mem_map.1 hmem
    rw [← heq] at hgreatest
    exact ⟨n, hn, heq.symm, hgreatest⟩

theorem unpack_largest :
    largest.toModel.unpack = .finite .positive 9007199254740991 971 (by decide) := by
  have hbits : largest = Float.ofBits 0x7FEFFFFFFFFFFFFF := by decide +kernel
  rw [hbits]
  rfl

theorem normal_largest : Normal 0 1024 largest.toModel.unpack := by
  rw [unpack_largest]
  exact .intro .positive _ (Binary64.log2_eq (by decide) (by decide)) (by decide) (by decide)

theorem unpack_neg_largest : (-largest).toModel.unpack = largest.toModel.unpack.neg :=
  Binary64.unpack_neg normal_largest (by decide) le_rfl

theorem moderate_neg_largest : Moderate 0 1024 (-largest).toModel.unpack := by
  rw [unpack_neg_largest]
  exact .normal normal_largest.neg

/-- No integer comes near the ends of the format. -/
theorem number_floatOfInt_lt (h : FitsSigned n) :
    number (-largest).toModel.unpack < number (floatOfInt n).toModel.unpack ∧
      number (floatOfInt n).toModel.unpack < number largest.toModel.unpack := by
  have hend : Significant 9223372036854775808 := ⟨63, by decide, by decide⟩
  have hgreatest : nearest n ≤ 9223372036854775808 :=
    Binary64.nearest_eq_self_iff.2 hend ▸ Binary64.nearest_mono h.2.le
  have hleast : -9223372036854775808 ≤ nearest n :=
    Binary64.nearest_eq_self_iff.2 hend.neg ▸ Binary64.nearest_mono h.1
  have hlargest : (9223372036854775808 : ℚ) < (9007199254740991 : Nat) * 2 ^ (971 : Int) := by
    calc (9223372036854775808 : ℚ) < (9007199254740991 : Nat) * 2 ^ (11 : Int) := by norm_num
      _ ≤ (9007199254740991 : Nat) * 2 ^ (971 : Int) :=
        mul_le_mul_of_nonneg_left (zpow_le_zpow_right₀ one_le_two (by decide)) (Nat.cast_nonneg _)
  rw [Binary64.number_floatOfInt h.fitsWord, unpack_neg_largest, Binary64.number_neg,
    unpack_largest, Binary64.number_positive]
  have hupper : (nearest n : ℚ) ≤ 9223372036854775808 := by exact_mod_cast hgreatest
  have hlower : (-9223372036854775808 : ℚ) ≤ nearest n := by exact_mod_cast hleast
  exact ⟨(neg_lt_neg hlargest).trans_le hlower, hupper.trans_lt hlargest⟩

theorem exists_foldl_greater (nonempty : items ≠ []) (fits : ∀ n ∈ items, FitsSigned n) :
    ∃ n ∈ items, (items.map floatOfInt).foldl greater (-largest) = floatOfInt n ∧
      ∀ m ∈ items, nearest m ≤ nearest n := by
  obtain ⟨n, hn, heq, hle⟩ := exists_foldl_floatOfInt greater (fun f => number f.toModel.unpack)
    (fun f g hf hg => by simp only [greater, Binary64.lt_iff hf hg])
    moderate_neg_largest nonempty fits
    fun n hn => (number_floatOfInt_lt (fits n hn)).1
  refine ⟨n, hn, heq, fun m hm => ?_⟩
  have hkey := hle m hm
  rw [Binary64.number_floatOfInt (fits m hm).fitsWord,
    Binary64.number_floatOfInt (fits n hn).fitsWord] at hkey
  exact_mod_cast hkey

theorem exists_foldl_lesser (nonempty : items ≠ []) (fits : ∀ n ∈ items, FitsSigned n) :
    ∃ n ∈ items, (items.map floatOfInt).foldl lesser largest = floatOfInt n ∧
      ∀ m ∈ items, nearest n ≤ nearest m := by
  obtain ⟨n, hn, heq, hle⟩ := exists_foldl_floatOfInt lesser (fun f => -number f.toModel.unpack)
    (fun f g hf hg => by simp only [lesser, Binary64.lt_iff hg hf, neg_lt_neg_iff])
    (.normal normal_largest) nonempty
    fits fun n hn => neg_lt_neg (number_floatOfInt_lt (fits n hn)).2
  refine ⟨n, hn, heq, fun m hm => ?_⟩
  have hkey := neg_le_neg_iff.1 (hle m hm)
  rw [Binary64.number_floatOfInt (fits m hm).fitsWord,
    Binary64.number_floatOfInt (fits n hn).fitsWord] at hkey
  exact_mod_cast hkey

/-- The items of a list are the operands of `max` and `min`. -/
theorem operands_list (f : Builtin) (nonempty : items ≠ []) (fits : ∀ n ∈ items, FitsSigned n) :
    operands f [.array (items.map .ofInt)] = .ok (items.map floatOfInt) := by
  have hnonempty : (items.map Value.ofInt).isEmpty = false := by simp [nonempty]
  simp only [operands, hnonempty, Bool.false_eq_true, if_false]
  clear nonempty hnonempty
  induction items with
  | nil => rfl
  | cons n rest ih =>
    obtain ⟨hn, hrest⟩ := List.forall_mem_cons.1 fits
    have ih := ih hrest
    rw [List.map_cons, List.map_cons, List.mapM_cons, ih, Value.operand?_ofInt hn]
    rfl

theorem apply_max (fits : ∀ n ∈ items, FitsSigned n) (h : IsGreatest {n | n ∈ items} n) :
    ∃ v, Builtin.max.apply [.array (items.map .ofInt)] = .ok v ∧
    GivesInteger (nearest n) (.ok v) := by
  have nonempty : items ≠ [] := List.ne_nil_of_mem h.1
  obtain ⟨m, hm, heq, hle⟩ := exists_foldl_greater nonempty fits
  have hsame : nearest n = nearest m := le_antisymm (hle n h.1) (Binary64.nearest_mono (h.2 hm))
  refine ⟨Value.narrow (floatOfInt m), ?_, hsame ▸ Value.gives_narrow (fits m hm)⟩
  simp only [apply, operands_list .max nonempty fits, bind, Except.bind, heq]
  rfl

theorem apply_min (fits : ∀ n ∈ items, FitsSigned n) (h : IsLeast {n | n ∈ items} n) :
    ∃ v, Builtin.min.apply [.array (items.map .ofInt)] = .ok v ∧
    GivesInteger (nearest n) (.ok v) := by
  have nonempty : items ≠ [] := List.ne_nil_of_mem h.1
  obtain ⟨m, hm, heq, hle⟩ := exists_foldl_lesser nonempty fits
  have hsame : nearest n = nearest m := le_antisymm (Binary64.nearest_mono (h.2 hm)) (hle n h.1)
  refine ⟨Value.narrow (floatOfInt m), ?_, hsame ▸ Value.gives_narrow (fits m hm)⟩
  simp only [apply, operands_list .min nonempty fits, bind, Except.bind, heq]
  rfl

theorem apply_contains (fits : ∀ n ∈ items, FitsSigned n) (ha : FitsSigned a) :
    Builtin.contains.apply [.array (items.map .ofInt), .ofInt a] =
      .ok (.bool (decide (nearest a ∈ items.map nearest))) := by
  have hany : ((items.map Value.ofInt).any fun item => item.looselyEquals (.ofInt a)) =
      decide (nearest a ∈ items.map nearest) := by
    rw [Bool.eq_iff_iff, List.any_map, List.any_eq_true, decide_eq_true_iff, List.mem_map]
    refine exists_congr fun n => and_congr_right fun hn => ?_
    rw [Function.comp_apply, Value.looselyEquals_ofInt (fits n hn) ha, decide_eq_true_iff]
  simp only [apply, applyContains, hany]

end Builtin

/-! ## Expressions -/

namespace Expr

variable {look : Bindings} {left right list : Expr} {l r : Value}

theorem eval_call_two {function : String} {f : Builtin} (hf : Builtin.ofName? function = some f)
    (hl : left.eval look = .ok l) (hr : right.eval look = .ok r) :
    (Expr.call function [left, right]).eval look = (f.apply [l, r]).mapError .type := by
  rw [eval, evalItems, evalItems, evalItems, hl, hr]
  simp only [bind, Except.bind, pure, Except.pure, hf]

/-- What comparisons give on two expressions whose values are the integers `a` and `b`, and on a
list of integers: they take each integer `n` for `view n`. -/
structure IntegerComparison (view : Int → Int) (look : Bindings)
    (left right list : Expr) (a b : Int) (items : List Int) : Prop where
  eq : (Expr.binary .eq left right).eval look = .ok (.bool (decide (view a = view b)))
  notEq : (Expr.binary .notEq left right).eval look = .ok (.bool (decide (view a ≠ view b)))
  lt : (Expr.binary .lt left right).eval look = .ok (.bool (decide (view a < view b)))
  le : (Expr.binary .le left right).eval look = .ok (.bool (decide (view a ≤ view b)))
  gt : (Expr.binary .gt left right).eval look = .ok (.bool (decide (view b < view a)))
  ge : (Expr.binary .ge left right).eval look = .ok (.bool (decide (view b ≤ view a)))
  contains : (Expr.call "contains" [list, left]).eval look =
    .ok (.bool (decide (view a ∈ items.map view)))
  max : ∀ n, IsGreatest {n | n ∈ items} n →
    GivesInteger (view n) ((Expr.call "max" [list]).eval look)
  min : ∀ n, IsLeast {n | n ∈ items} n → GivesInteger (view n) ((Expr.call "min" [list]).eval look)

theorem integerComparison_nearest (ha : FitsSigned a) (hb : FitsSigned b)
    (fits : ∀ n ∈ items, FitsSigned n)
    (hl : left.eval look = .ok (.ofInt a)) (hr : right.eval look = .ok (.ofInt b))
    (hlist : list.eval look = .ok (.array (items.map .ofInt))) :
    IntegerComparison nearest look left right list a b items := by
  constructor
  case eq =>
    rw [eval_binary hl hr (by decide) (by decide), BinaryOp.apply, Value.looselyEquals_ofInt ha hb]
  case notEq =>
    rw [eval_binary hl hr (by decide) (by decide), BinaryOp.apply,
      Value.looselyEquals_ofInt ha hb, decide_not]
  case lt =>
    have htest : (compare (nearest a) (nearest b)).isLT = decide (nearest a < nearest b) := by
      rw [Bool.eq_iff_iff, Ordering.isLT_iff_eq_lt, Int.compare_eq_lt, decide_eq_true_iff]
    rw [eval_binary hl hr (by decide) (by decide), BinaryOp.apply,
      BinaryOp.comparison_ofInt _ ha hb, htest]
  case le =>
    have htest : (compare (nearest a) (nearest b)).isLE = decide (nearest a ≤ nearest b) := by
      rw [Bool.eq_iff_iff, Int.isLE_compare, decide_eq_true_iff]
    rw [eval_binary hl hr (by decide) (by decide), BinaryOp.apply,
      BinaryOp.comparison_ofInt _ ha hb, htest]
  case gt =>
    have htest : (compare (nearest a) (nearest b)).isGT = decide (nearest b < nearest a) := by
      rw [Bool.eq_iff_iff, Ordering.isGT_iff_eq_gt, Int.compare_eq_gt, decide_eq_true_iff]
    rw [eval_binary hl hr (by decide) (by decide), BinaryOp.apply,
      BinaryOp.comparison_ofInt _ ha hb, htest]
  case ge =>
    have htest : (compare (nearest a) (nearest b)).isGE = decide (nearest b ≤ nearest a) := by
      rw [Bool.eq_iff_iff, Int.isGE_compare, decide_eq_true_iff]
    rw [eval_binary hl hr (by decide) (by decide), BinaryOp.apply,
      BinaryOp.comparison_ofInt _ ha hb, htest]
  case contains =>
    rw [eval_call_two (show Builtin.ofName? "contains" = some .contains by decide) hlist hl,
      Builtin.apply_contains fits ha]
    rfl
  case max =>
    intro n hn
    obtain ⟨v, hv, hgives⟩ := Builtin.apply_max fits hn
    rw [eval_call_one (show Builtin.ofName? "max" = some .max by decide) hlist, hv]
    exact hgives
  case min =>
    intro n hn
    obtain ⟨v, hv, hgives⟩ := Builtin.apply_min fits hn
    rw [eval_call_one (show Builtin.ofName? "min" = some .min by decide) hlist, hv]
    exact hgives

theorem IntegerComparison.congr {view view' : Int → Int}
    (h : IntegerComparison view look left right list a b items)
    (same : ∀ n ∈ a :: b :: items, view n = view' n) :
    IntegerComparison view' look left right list a b items := by
  obtain ⟨ha, hrest⟩ := List.forall_mem_cons.1 same
  obtain ⟨hb, hitems⟩ := List.forall_mem_cons.1 hrest
  constructor
  case eq => rw [← ha, ← hb, h.eq]
  case notEq => rw [← ha, ← hb, h.notEq]
  case lt => rw [← ha, ← hb, h.lt]
  case le => rw [← ha, ← hb, h.le]
  case gt => rw [← ha, ← hb, h.gt]
  case ge => rw [← ha, ← hb, h.ge]
  case contains => rw [← ha, ← List.map_congr_left hitems, h.contains]
  case max =>
    intro n hn
    rw [← hitems n hn.1]
    exact h.max n hn
  case min =>
    intro n hn
    rw [← hitems n hn.1]
    exact h.min n hn

/-- Subtraction does not round: the difference is zero for equal integers only. -/
theorem eval_sub_eq_zero_iff (ha : FitsSigned a) (hb : FitsSigned b)
    (hl : left.eval look = .ok (.ofInt a)) (hr : right.eval look = .ok (.ofInt b)) :
    (Expr.binary .sub left right).eval look = .ok (.ofInt 0) ↔ a = b := by
  have hzero : FitsSigned 0 := by decide
  have hexact := Operand.exactlyOr_sub ha hb
  rw [eval_binary hl hr (by decide) (by decide), BinaryOp.apply,
    BinaryOp.arithmetic_ofInt _ _ ha hb]
  unfold ExactlyOr at hexact
  split at hexact
  · next hfits => rw [hexact, Except.ok.injEq, Value.ofInt_inj hfits hzero, Int.sub_eq_zero]
  · next hunfit =>
    obtain ⟨finite, hfloat⟩ := hexact
    have hne : a ≠ b := by
      rintro rfl
      exact hunfit (by rwa [Int.sub_self])
    rw [hfloat, Value.ofInt_eq_number hzero]
    exact iff_of_false (fun h => by cases h) hne

/-- Comparisons of integers take them as rounded to 53 significant digits, which keeps their order
and changes no integer that has no more digits. So they are exact where all integers are such, while
subtraction tells any two integers apart. -/
theorem integer_comparison_rounds (ha : FitsSigned a) (hb : FitsSigned b)
    (fits : ∀ n ∈ items, FitsSigned n)
    (hl : left.eval look = .ok (.ofInt a)) (hr : right.eval look = .ok (.ofInt b))
    (hlist : list.eval look = .ok (.array (items.map .ofInt))) :
    Binary64.IsRounding nearest ∧ IntegerComparison nearest look left right list a b items ∧
      ((∀ n ∈ a :: b :: items, Significant n) →
        IntegerComparison id look left right list a b items) ∧
      ((Expr.binary .sub left right).eval look = .ok (.ofInt 0) ↔ a = b) := by
  have hrounded := integerComparison_nearest ha hb fits hl hr hlist
  refine ⟨Binary64.isRounding_nearest, hrounded, fun significant => ?_,
    eval_sub_eq_zero_iff ha hb hl hr⟩
  exact hrounded.congr fun n hn => Binary64.nearest_eq_self_iff.2 (significant n hn)

theorem integer_comparison_rounds_least :
    let a : Int := -9223372036854775808
    let b : Int := 9007199254740992
    (∀ n ∈ [a, b, 3], Significant n) ∧
      IntegerComparison id .none (.literal (.ofInt a)) (.literal (.ofInt b))
        (.literal (.array [.ofInt 3])) a b
        [3] := by
  intro a b
  have significant : ∀ n ∈ [a, b, 3], Significant n := by
    refine List.forall_mem_cons.2
      ⟨⟨63, by decide, by decide⟩, List.forall_mem_cons.2 ⟨⟨53, by decide, by decide⟩, ?_⟩⟩
    exact List.forall_mem_singleton.2 ⟨0, by decide, by decide⟩
  exact ⟨significant,
    (integer_comparison_rounds (by decide) (by decide) (by decide) (by rfl) (by rfl) (by rfl)).2.2.1
    significant⟩

/-- The integers `2 ^ 53 + 1` and `2 ^ 53` count as equal, though their difference is one;
neither is greater, the one is found in a list of the other, and the greatest item of a list of
the one is the other. -/
theorem large_integers_confused :
    (Expr.binary .eq (.literal (.ofInt 9007199254740993)) (.literal (.ofInt 9007199254740992))).eval
      .none =
        .ok (.bool true) ∧
      (Expr.binary .sub (.literal (.ofInt 9007199254740993))
        (.literal (.ofInt 9007199254740992))).eval .none =
        .ok (.ofInt 1) ∧
      (Expr.binary .gt (.literal (.ofInt 9007199254740993))
        (.literal (.ofInt 9007199254740992))).eval .none =
        .ok (.bool false) ∧
      (Expr.call "contains"
        [.literal (.array [.ofInt 9007199254740992]), .literal (.ofInt 9007199254740993)]).eval
        .none = .ok (.bool true) ∧
      (Expr.call "max" [.literal (.array [.ofInt 9007199254740993])]).eval .none =
        .ok (.ofInt 9007199254740992) := by
  refine ⟨?_, ?_, ?_, ?_, ?_⟩
  · rw [eval_binary rfl rfl (by decide) (by decide)]
    rfl
  · rw [eval_binary rfl rfl (by decide) (by decide)]
    rfl
  · rw [eval_binary rfl rfl (by decide) (by decide)]
    rfl
  · rw [eval_call_two (show Builtin.ofName? "contains" = some .contains by decide) rfl rfl]
    rfl
  · rw [eval_call_one (show Builtin.ofName? "max" = some .max by decide) rfl]
    decide +kernel

end Expr

end StepFlow
