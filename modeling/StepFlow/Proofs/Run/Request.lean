import StepFlow.Proofs.Run.Atomic

/-!
# What a request comes to

A step that makes a request makes exactly one, and what follows is told by the answer alone: the
flow for success is run, or the one for errors, or the step fails. Which of them it is depends on
the status of the response; one that tells no status counts as 200. A status that is there but
cannot be read counts as 200, too (`unreadable_status_succeeds`), so the general statement is about
those that can be read.
-/

namespace StepFlow

/-- The status of a response: 200 if it tells none, and nothing if what it tells is
not a natural number. -/
def status? (response : Value) : Option Nat :=
  match response.field? "statusCode" with
  | none => some 200
  | some (.number n) => n.natural?
  | some _ => none

theorem statusCode_of_status? {response : Value} {n : Nat} (told : status? response = some n) :
    Processor.statusCode response = n := by
  unfold status? at told
  unfold Processor.statusCode
  cases found : response.field? "statusCode" with
  | none =>
    rw [found] at told
    exact Option.some.inj told
  | some v =>
    rw [found] at told
    cases v with
    | number m =>
      have told : m.natural? = some n := told
      simp only [told, Option.getD_some]
    | _ => cases told

/-- A status that tells of success. -/
def StatusOk (status : Nat) : Prop := 200 ≤ status ∧ status < 300

instance (status : Nat) : Decidable (StatusOk status) := inferInstanceAs (Decidable (_ ∧ _))

/-- What follows on a failed request: the flow for errors, with the response and the error bound, or
else a failure of the step. -/
def errorOutcome (onError : Option Flow) (response : Value) (reason : String) :
    Except ActionError (Option Launch) :=
  if onError.isSome then .ok (some ⟨.onError, [("response", response), ("error", .string reason)]⟩)
  else .error (.effectFailed reason)

namespace Deed

theorem requestFailed_eq (onError : Option Flow) (response : Value) (reason : String) :
    requestFailed onError response reason = errorOutcome onError response reason := by
  cases onError <;> rfl

theorem requestAnswered_of_ok {url : String} {onError : Option Flow} {response : Value} {n : Nat}
    (told : status? response = some n) (ok : StatusOk n) :
    requestAnswered url onError (.ok response) =
      .ok (some ⟨.onSuccess, [("response", response)]⟩) := by
  rw [requestAnswered, statusCode_of_status? told]
  exact if_pos ok

theorem requestAnswered_of_bad {url : String} {onError : Option Flow} {response : Value} {n : Nat}
    (told : status? response = some n) (bad : ¬ StatusOk n) :
    requestAnswered url onError (.ok response) =
      errorOutcome onError response (url ++ " returned status " ++ toString n) := by
  rw [requestAnswered, statusCode_of_status? told, ← requestFailed_eq]
  exact if_neg bad

theorem errorOutcome_ne_onSuccess (onError : Option Flow) (response : Value) (reason : String)
    (bound : List (String × Value)) :
    errorOutcome onError response reason ≠ .ok (some ⟨.onSuccess, bound⟩) := by
  cases onError <;> exact nofun

/-- If the status can be read, the flow for success follows on nothing but success. -/
theorem requestAnswered_eq_onSuccess {url : String} {onError : Option Flow}
    {answer : Except ActionError Value} {response : Value}
    (readable : ∀ response, answer = .ok response → status? response ≠ none) :
    requestAnswered url onError answer = .ok (some ⟨.onSuccess, [("response", response)]⟩) ↔
      answer = .ok response ∧ ∃ n, status? response = some n ∧ StatusOk n := by
  constructor
  · intro launched
    cases answer with
    | error e =>
      rw [requestAnswered, requestFailed_eq] at launched
      exact absurd launched (errorOutcome_ne_onSuccess _ _ _ _)
    | ok answered =>
      obtain ⟨n, told⟩ := Option.ne_none_iff_exists'.1 (readable answered rfl)
      by_cases ok : StatusOk n
      · rw [requestAnswered_of_ok told ok] at launched
        cases launched
        exact ⟨rfl, n, told, ok⟩
      · rw [requestAnswered_of_bad told ok] at launched
        exact absurd launched (errorOutcome_ne_onSuccess _ _ _ _)
  · rintro ⟨rfl, n, told, ok⟩
    exact requestAnswered_of_ok told ok

end Deed

def DataSource.request (inv : Invocation) (w : World) (source : DataSource)
    (url : String) : Effect :=
  .httpRequest (Deed.evaluateOr inv w source.method HttpMethod.get) url
    (Deed.document inv w source.headers) (Deed.document inv w source.body)

theorem Processor.outcome_request {inv : Invocation} {w : World} {source : DataSource}
    {onSuccess onError : Option Flow} {c : Condition} {url : String}
    (evaluates : source.url.evaluate (inv.bindings w) = some url) :
    outcome .callRestApi inv (.request source onSuccess onError c) w =
      (Deed.requestAnswered url onError
        (inv.host.perform w.performed (source.request inv w url)).result,
        w.afterEffect inv.host (source.request inv w url)) := by
  refine (outcome_eq rfl (by decide) inv w).trans ?_
  rw [Deed.of?, Deed.required, evaluates]
  exact Task.run_of_settle World.pass _ w

namespace Executor

variable {ex : Executor} {inv : Invocation} {a : Action} {w u : World} {type : BuiltIn}

/-- What a step comes to with the flow that its processor launches. -/
theorem run_process (ex : Executor) {result : Except ActionError (Option Launch)}
    (h : Processor.outcome type inv a w = (result, u)) :
    (ex.process inv (.ofBuiltIn type) a).run World.pass w =
      match result with
      | .error e => (.error e, u)
      | .ok none => (.ok (), u)
      | .ok (some launch) =>
        (.ok (), ((ex.runNested ⟨inv.host, inv.region, inv.executionId⟩ a launch.slot
          (inv.scope.extend launch.bound)).run World.pass u).2) := by
  have ran : ((Processor.ofBuiltIn type).run inv a).run.run World.pass w = (result, u) := h
  rw [process, attempt, Task.run_bind, ran]
  match result with
  | .error e => rfl
  | .ok none => rfl
  | .ok (some launch) => exact Task.run_mapResult World.pass _ _ u

/-- A step whose address has a value makes one request, and what it does next it does in the world
that the request leaves. If the response tells, or leaves it to be understood, that it is a success,
then the flow for success is run with the response bound; unless there is a status that cannot be
read, it is run in no other case. If the response tells another status, or if the host refuses the
request, then the flow for errors is run with the response, which is null if there is none, and the
error bound; and if there is no such flow, the step fails. -/
theorem request_answered (ex : Executor) (inv : Invocation) (source : DataSource)
    (onSuccess onError : Option Flow) (c : Condition) (w : World) (url : String)
    (evaluates : source.url.evaluate (inv.bindings w) = some url) :
    let a : Action := .request source onSuccess onError c
    let request : Effect := source.request inv w url
    let answer := (inv.host.perform w.performed request).result
    let u : World := w.afterEffect inv.host request
    let step := (ex.process inv (.ofBuiltIn .callRestApi) a).run World.pass w
    let Runs (slot : Slot) (bound : List (String × Value)) : Prop :=
      Processor.outcome .callRestApi inv a w = (.ok (some ⟨slot, bound⟩), u) ∧
      step = (.ok (), ((ex.runNested ⟨inv.host, inv.region, inv.executionId⟩ a slot
        (inv.scope.extend bound)).run World.pass u).2)
    let Errs (response : Value) (reason : String) : Prop :=
      (onError.isSome = true → Runs .onError [("response", response), ("error", .string reason)]) ∧
      (onError = none → Processor.outcome .callRestApi inv a w =
        (.error (.effectFailed reason), u) ∧
        step = (.error (.effectFailed reason), u))
    u.performed = request :: w.performed ∧ (Processor.outcome .callRestApi inv a w).2 = u ∧
    ((∀ response, answer = .ok response → status? response ≠ none) → ∀ response,
      ((Processor.outcome .callRestApi inv a w).1 =
        .ok (some ⟨.onSuccess, [("response", response)]⟩) ↔
        answer = .ok response ∧ ∃ n, status? response = some n ∧ StatusOk n)) ∧
    (∀ response n, answer = .ok response → status? response = some n → StatusOk n →
      Runs .onSuccess [("response", response)]) ∧
    (∀ response n, answer = .ok response → status? response = some n → ¬ StatusOk n →
      Errs response (url ++ " returned status " ++ toString n)) ∧
    ∀ e, answer = .error e → Errs .null e.message := by
  intro a request answer u step Runs Errs
  have outcome : Processor.outcome .callRestApi inv a w =
      (Deed.requestAnswered url onError answer, u) :=
    Processor.outcome_request evaluates
  have errs {response : Value} {reason : String}
      (failed : Deed.requestAnswered url onError answer = errorOutcome onError response reason) :
      Errs response reason := by
    refine ⟨fun owned => ?_, fun missing => ?_⟩
    · rw [failed, errorOutcome, if_pos owned] at outcome
      exact ⟨outcome, run_process ex outcome⟩
    · rw [failed, errorOutcome, missing] at outcome
      exact ⟨outcome, run_process ex outcome⟩
  refine ⟨rfl, congrArg Prod.snd outcome, fun readable response => ?_,
    fun response n answered told ok => ?_,
    fun response n answered told bad => ?_, fun e answered => ?_⟩
  · rw [outcome]
    exact Deed.requestAnswered_eq_onSuccess readable
  · rw [answered, Deed.requestAnswered_of_ok told ok] at outcome
    exact ⟨outcome, run_process ex outcome⟩
  · apply errs
    rw [answered, Deed.requestAnswered_of_bad told bad]
  · apply errs
    rw [answered]
    exact Deed.requestFailed_eq onError .null e.message

/-- A response without a status, one that tells a bad status, and a refusal; the step has a flow for
errors in the last case only. -/
theorem request_answered_thrice :
    let ex : Executor := ⟨Registry.builtIn, .default, Registry.missing?_builtIn, rfl⟩
    let copy (text : String) : Flow := ⟨[.simple (.copyToClipboard (.literal text)) none], false⟩
    let source : DataSource := ⟨none, .literal "https://a", .null, .null⟩
    let step (onError : Option Flow) : Action := .request source (some (copy "ok")) onError none
    let inv (host : Host) : Invocation := ⟨host, Scope.root "flow", none, "id-1", "id-2"⟩
    let w : World := ⟨0, [], [], .ofCapacity 1, [], [], [], 2⟩
    let after (host : Host) (onError : Option Flow) :=
      (ex.process (inv host) (.ofBuiltIn .callRestApi) (step onError)).run World.pass w
    let bare : Host := .silent 0
    let down : Value := .ofEntries [("statusCode", .ofNat 503)]
    let busy : Host := .agreed [("httpRequest", down)] [] 0
    let offline : Host := .agreed [] [("httpRequest", .string "offline")] 0
    let request : Effect := .httpRequest .get "https://a" .null .null
    source.url.evaluate ((inv bare).bindings w) = some "https://a" ∧
    status? .null = some 200 ∧ StatusOk 200 ∧ (after bare none).1.isOk = true ∧
    (after bare none).2.performed = [.copyToClipboard "ok", request] ∧
    status? down = some 503 ∧ ¬ StatusOk 503 ∧
    (∀ response, (Processor.outcome .callRestApi (inv busy) (step none) w).1 ≠
      .ok (some ⟨.onSuccess, [("response", response)]⟩)) ∧
    after busy none =
      (.error (.effectFailed "https://a returned status 503"), w.afterEffect busy request) ∧
    (after offline (some (copy "bad"))).1.isOk = true ∧
    (after offline (some (copy "bad"))).2.performed = [.copyToClipboard "bad", request] := by
  intro ex copy source step inv w after bare down busy offline request
  have evaluates (host : Host) :
      source.url.evaluate ((inv host).bindings w) = some "https://a" := rfl
  obtain ⟨-, -, -, success, -⟩ :=
    request_answered ex (inv bare) source (some (copy "ok")) none none w _ (evaluates bare)
  obtain ⟨-, -, only, -, failure, -⟩ :=
    request_answered ex (inv busy) source (some (copy "ok")) none none w _ (evaluates busy)
  obtain ⟨-, -, -, -, -, refusal⟩ :=
    request_answered ex (inv offline) source (some (copy "ok")) (some (copy "bad")) none w _
      (evaluates offline)
  have ok : after bare none = _ := (success .null 200 rfl rfl (by decide)).2
  have bad : after busy none = _ := ((failure down 503 rfl rfl (by decide)).2 rfl).2
  have refused : after offline (some (copy "bad")) = _ := ((refusal _ rfl).1 rfl).2
  have unsuccessful (response : Value) :
      (Processor.outcome .callRestApi (inv busy) (step none) w).1 ≠
      .ok (some ⟨.onSuccess, [("response", response)]⟩) := by
    intro launched
    have told : status? down = some 503 := rfl
    have readable : ∀ response, (.ok down : Except ActionError Value) = .ok response →
        status? response ≠ none := by
      rintro _ ⟨⟩
      exact told ▸ nofun
    obtain ⟨⟨⟩, n, same, ok⟩ := (only readable response).1 launched
    cases told.symm.trans same
    exact absurd ok (by decide)
  refine ⟨evaluates bare, rfl, by decide, ?_, ?_, rfl, by decide, unsuccessful, bad, ?_, ?_⟩
  · rw [ok]
    rfl
  · rw [ok]
    decide +kernel
  · rw [refused]
    rfl
  · rw [refused]
    decide +kernel

/-- A response that tells a status of text, though it is no success, has the
flow for success run. -/
theorem unreadable_status_succeeds :
    let ex : Executor := ⟨Registry.builtIn, .default, Registry.missing?_builtIn, rfl⟩
    let copy (text : String) : Option Flow :=
      some ⟨[.simple (.copyToClipboard (.literal text)) none], false⟩
    let response : Value := .ofEntries [("statusCode", .string "500")]
    let host : Host := .agreed [("httpRequest", response)] [] 0
    let source : DataSource := ⟨none, .literal "https://a", .null, .null⟩
    let a : Action := .request source (copy "ok") (copy "bad") none
    let inv : Invocation := ⟨host, Scope.root "flow", none, "id-1", "id-2"⟩
    let w : World := ⟨0, [], [], .ofCapacity 1, [], [], [], 2⟩
    response.field? "statusCode" = some (.string "500") ∧ status? response = none ∧
    (Processor.outcome .callRestApi inv a w).1 = .ok (some ⟨.onSuccess, [("response", response)]⟩) ∧
    ((ex.process inv (.ofBuiltIn .callRestApi) a).run World.pass w).2.performed =
      [.copyToClipboard "ok", .httpRequest .get "https://a" .null .null] := by
  exact ⟨by decide +kernel, by decide +kernel, rfl, by decide +kernel⟩

end Executor

end StepFlow
