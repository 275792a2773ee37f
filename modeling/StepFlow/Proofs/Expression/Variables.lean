import Mathlib.Data.List.Lattice
import StepFlow.Expression.Eval
import StepFlow.Proofs.Scope

/-!
# The variables of an expression decide its outcome

Two scopes are compared by the outcomes of one expression in them. `Carried` names the relations
between outcomes that carry over from the variables of an expression to the whole of it, whatever
operators ask for them and in whatever order: each holds of an outcome and itself, and is kept when
both outcomes are used in the same way. `Carried.eval` is the one induction over the syntax.

Equality is such a relation, so scopes that agree on the variables of an expression give it one
value or one error. That a value, if there is one, stays is another, so a scope may say more than
the other did and no value changes. The variables that occur are counted whether or not
evaluation comes to them.
-/

namespace StepFlow.Expr

/-! ## The variables that occur -/

mutual

/-- The variables that occur in an expression, wherever they stand. -/
def names : Expr → List String
  | .literal _ => []
  | .var name => [name]
  | .list items => namesItems items
  | .map entries => namesEntries entries
  | .member object _ => object.names
  | .index object position => object.names ++ position.names
  | .call _ args => namesItems args
  | .unary _ operand => operand.names
  | .binary _ left right => left.names ++ right.names
  | .conditional condition yes no => condition.names ++ (yes.names ++ no.names)

def namesItems : List Expr → List String
  | [] => []
  | e :: rest => e.names ++ namesItems rest

def namesEntries : List (Expr × Expr) → List String
  | [] => []
  | (k, e) :: rest => k.names ++ (e.names ++ namesEntries rest)

end

/-! ## Relations that evaluation carries along -/

/-- Relates what two computations give, whatever the type of their results. -/
abbrev OutcomeRelation : Type 1 := {α : Type} → Except ExprError α → Except ExprError α → Prop

/-- A relation that evaluation carries from the variables of an expression to the whole of it. -/
structure Carried (R : OutcomeRelation) : Prop where
  same : ∀ {α : Type} (x : Except ExprError α), R x x
  next : ∀ {α β : Type} {x y : Except ExprError α} {f g : α → Except ExprError β},
    R x y → (∀ v, R (f v) (g v)) → R (x >>= f) (y >>= g)

/-- Both outcomes are the same value or the same error. -/
def Same : OutcomeRelation := fun x y => x = y

/-- A value, if there is one, is the value of the other outcome too. -/
def Kept : OutcomeRelation := fun x y => ∀ v, x = .ok v → y = .ok v

theorem carried_same : Carried Same where
  same _ := rfl
  next := by
    intro α β x y f g first rest
    cases first
    exact congrArg (x >>= ·) (funext rest)

theorem carried_kept : Carried Kept where
  same _ _ h := h
  next := by
    intro α β x y f g first rest b value
    cases x with
    | error e => cases value
    | ok a =>
      cases first a rfl
      exact rest a b value

namespace Carried

variable {R : OutcomeRelation} {look look' : Bindings}

mutual

/-- What holds of the outcomes of the variables of an expression holds of the
outcomes of the expression. -/
theorem eval (hR : Carried R) : (e : Expr) →
    (∀ name ∈ e.names, R (Expr.eval look (.var name)) (Expr.eval look' (.var name))) →
      R (e.eval look) (e.eval look')
  | .literal v, _ => by
    rw [Expr.eval, Expr.eval]
    exact hR.same _
  | .var name, h => h name (List.mem_singleton_self name)
  | .list items, h => by
    rw [Expr.eval, Expr.eval]
    exact hR.next (hR.evalItems items h) fun vs => hR.same _
  | .map entries, h => by
    rw [Expr.eval, Expr.eval]
    exact hR.next (hR.evalEntries [] entries h) fun o => hR.same _
  | .member object name, h => by
    rw [Expr.eval, Expr.eval]
    exact hR.next (hR.eval object h) fun v => hR.same _
  | .index object position, h => by
    obtain ⟨ofObject, ofPosition⟩ := List.forall_mem_append.mp h
    rw [Expr.eval, Expr.eval]
    exact hR.next (hR.eval object ofObject) fun v =>
      hR.next (hR.eval position ofPosition) fun i => hR.same _
  | .call function args, h => by
    rw [Expr.eval, Expr.eval]
    exact hR.next (hR.evalItems args h) fun vs => hR.same _
  | .unary op operand, h => by
    rw [Expr.eval, Expr.eval]
    exact hR.next (hR.eval operand h) fun v => hR.same _
  | .binary op left right, h => by
    obtain ⟨ofLeft, ofRight⟩ := List.forall_mem_append.mp h
    have first := hR.eval left ofLeft
    have second := hR.eval right ofRight
    -- The left value decides whether the right operand of a logical operator is asked for.
    cases op with
    | and =>
      rw [Expr.eval, Expr.eval]
      refine hR.next first fun l => ?_
      cases l.truthy with
      | false => exact hR.same _
      | true => exact hR.next second fun r => hR.same _
    | or =>
      rw [Expr.eval, Expr.eval]
      refine hR.next first fun l => ?_
      cases l.truthy with
      | false => exact hR.next second fun r => hR.same _
      | true => exact hR.same _
    | _ =>
      rw [Expr.eval, Expr.eval]
      · exact hR.next first fun l => hR.next second fun r => hR.same _
      all_goals exact fun same => nomatch same
  | .conditional condition yes no, h => by
    obtain ⟨ofCondition, ofBranches⟩ := List.forall_mem_append.mp h
    obtain ⟨ofYes, ofNo⟩ := List.forall_mem_append.mp ofBranches
    rw [Expr.eval, Expr.eval]
    refine hR.next (hR.eval condition ofCondition) fun c => ?_
    cases c.truthy with
    | false => exact hR.eval no ofNo
    | true => exact hR.eval yes ofYes

theorem evalItems (hR : Carried R) : (es : List Expr) →
    (∀ name ∈ namesItems es, R (Expr.eval look (.var name)) (Expr.eval look' (.var name))) →
      R (Expr.evalItems look es) (Expr.evalItems look' es)
  | [], _ => by
    rw [Expr.evalItems, Expr.evalItems]
    exact hR.same _
  | e :: rest, h => by
    obtain ⟨ofFirst, ofRest⟩ := List.forall_mem_append.mp h
    rw [Expr.evalItems, Expr.evalItems]
    exact hR.next (hR.eval e ofFirst) fun v =>
      hR.next (hR.evalItems rest ofRest) fun vs => hR.same _

theorem evalEntries (hR : Carried R) : (o : Object) → (es : List (Expr × Expr)) →
    (∀ name ∈ namesEntries es, R (Expr.eval look (.var name)) (Expr.eval look' (.var name))) →
      R (Expr.evalEntries look o es) (Expr.evalEntries look' o es)
  | o, [], _ => by
    rw [Expr.evalEntries, Expr.evalEntries]
    exact hR.same _
  | o, (k, e) :: rest, h => by
    obtain ⟨ofKey, ofOthers⟩ := List.forall_mem_append.mp h
    obtain ⟨ofValue, ofRest⟩ := List.forall_mem_append.mp ofOthers
    rw [Expr.evalEntries, Expr.evalEntries]
    exact hR.next (hR.eval k ofKey) fun key => hR.next (hR.eval e ofValue) fun v =>
      hR.evalEntries _ rest ofRest

end

end Carried

/-! ## Expressions in two scopes -/

theorem eval_congr {look look' : Bindings} (e : Expr)
    (h : ∀ name ∈ e.names, look name = look' name) :
    e.eval look = e.eval look' := by
  refine carried_same.eval e fun name occurs => ?_
  rw [eval, eval, h name occurs]
  exact carried_same.same _

theorem eval_kept {look look' : Bindings} {e : Expr} {v : Value} (value : e.eval look = .ok v)
    (h : ∀ name ∈ e.names, ∀ u, look name = some u → look' name = some u) :
    e.eval look' = .ok v := by
  refine carried_kept.eval e (fun name occurs => ?_) v value
  rw [eval, eval]
  cases bound : look name with
  | none => exact fun u missing => nomatch missing
  | some u =>
    rw [h name occurs u bound]
    exact carried_kept.same _

/-- Scopes that agree on the variables of an expression give it the same value or the same error. A
value that it has in a scope it has in every scope that gives its variables, so far as they are
bound in the former, what they stand for there. So binding variables that an expression lacks, or
that were not bound, changes no value. -/
theorem eval_of_variables {σ τ : Type} (e : Expr) (s : Scope σ) (w : σ) (s' : Scope τ) (w' : τ) :
    ((∀ name ∈ e.names, s.lookup w name = s'.lookup w' name) →
      e.eval (s.lookup w) = e.eval (s'.lookup w')) ∧
    (∀ v, e.eval (s.lookup w) = .ok v →
      (∀ name ∈ e.names, ∀ u, s.lookup w name = some u → s'.lookup w' name = some u) →
        e.eval (s'.lookup w') = .ok v) ∧
    ∀ v, e.eval (s.lookup w) = .ok v → ∀ bound : List (String × Value),
      (∀ name ∈ bound.map Prod.fst, name ∈ e.names → s.lookup w name = none) →
        e.eval ((s.extend bound).lookup w) = .ok v := by
  refine ⟨?_, ?_, ?_⟩
  · exact e.eval_congr
  · intro v value agree
    exact eval_kept value agree
  · intro v value bound free
    refine eval_kept value fun name occurs u known => ?_
    by_cases new : name ∈ bound.map Prod.fst
    · rw [free name new occurs] at known
      cases known
    · rw [s.lookup_extend_of_notMem w new]
      exact known

/-- A flag that guards a variable. -/
def guarded : Expr := .binary .and (.var "flag") (.var "missing")

def flagDown : Scope Unit := (Scope.root "caller").extend [("flag", .bool false)]

/-- The same below a frame that binds another variable. -/
def flagDownInside : Scope Unit :=
  ((Scope.root "step").extend [("other", .null)]).withEnclosing flagDown

/-- While the flag is down the guarded variable is not asked for, so it may be missing, and may
be bound afterwards. -/
theorem eval_guarded :
    guarded.eval (flagDown.lookup ()) = guarded.eval (flagDownInside.lookup ()) ∧
    guarded.eval (flagDown.lookup ()) = .ok (.bool false) ∧
    guarded.eval (flagDownInside.lookup ()) = .ok (.bool false) ∧
    guarded.eval ((flagDown.extend [("missing", .null)]).lookup ()) = .ok (.bool false) := by
  have down : guarded.eval (flagDown.lookup ()) = .ok (.bool false) := by decide +kernel
  have agree : ∀ name ∈ guarded.names, flagDown.lookup () name = flagDownInside.lookup () name := by
    decide +kernel
  have more : ∀ name ∈ guarded.names, ∀ u, flagDown.lookup () name = some u →
      flagDownInside.lookup () name = some u := fun name occurs u known => agree name occurs ▸ known
  have free : ∀ name ∈ [("missing", Value.null)].map Prod.fst, name ∈ guarded.names →
      flagDown.lookup () name = none := by decide +kernel
  obtain ⟨same, value, extended⟩ := eval_of_variables guarded flagDown () flagDownInside ()
  exact ⟨same agree, down, value _ down more, extended _ down _ free⟩

end StepFlow.Expr
