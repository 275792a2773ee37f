/-!
# Tasks

A task is a program over a world: it looks at the world, changes it, or waits, and ends with
a result. Time passes only while a task waits. A task can be run by itself, under a time
limit, or beside others; each of these is again a function on tasks, so nothing about the
world is assumed here.
-/

namespace StepFlow

/-- A program over a world `σ` with a result in `α`. -/
inductive Task (σ : Type) (α : Type) : Type where
  | done (result : α)
  | look (next : σ → Task σ α)
  | update (change : σ → σ) (next : Task σ α)
  /-- Waits so many milliseconds. -/
  | wait (ms : Nat) (next : Task σ α)

namespace Task

variable {σ α β γ : Type}

def bind : Task σ α → (α → Task σ β) → Task σ β
  | .done a, f => f a
  | .look next, f => .look fun s => bind (next s) f
  | .update change next, f => .update change (bind next f)
  | .wait ms next, f => .wait ms (bind next f)

instance : Monad (Task σ) where
  pure := .done
  bind := bind

def mapResult (f : α → β) (t : Task σ α) : Task σ β := t.bind fun a => .done (f a)

def read (f : σ → α) : Task σ α := .look fun s => .done (f s)

def modify (change : σ → σ) : Task σ Unit := .update change (.done ())

/-- Changes the world and gives the result that the change comes with. -/
def modifyGet (change : σ → α × σ) : Task σ α :=
  .look fun s => .update (fun _ => (change s).2) (.done (change s).1)

def sleep (ms : Nat) : Task σ Unit := .wait ms (.done ())

/-- Runs a task, given how a world changes as time passes. -/
def run (pass : Nat → σ → σ) : Task σ α → σ → α × σ
  | .done a, s => (a, s)
  | .look next, s => run pass (next s) s
  | .update change next, s => run pass next (change s)
  | .wait ms next, s => run pass next (pass ms s)

section Run

variable (pass : Nat → σ → σ)

@[simp] theorem run_pure (a : α) (s : σ) : (pure a : Task σ α).run pass s = (a, s) := rfl

/-- A sequence of tasks runs one after the other: the second goes on in the world
that the first leaves. -/
theorem run_bind (t : Task σ α) (f : α → Task σ β) (s : σ) :
    (t.bind f).run pass s = (f (t.run pass s).1).run pass (t.run pass s).2 := by
  induction t generalizing s with
  | done a => rfl
  | look next ih => exact ih s s
  | update change next ih => exact ih (change s)
  | wait ms next ih => exact ih (pass ms s)

@[simp] theorem run_mapResult (f : α → β) (t : Task σ α) (s : σ) :
    (t.mapResult f).run pass s = (f (t.run pass s).1, (t.run pass s).2) :=
  run_bind pass t _ s

@[simp] theorem run_read (f : σ → α) (s : σ) : (read f).run pass s = (f s, s) := rfl

@[simp] theorem run_modify (change : σ → σ) (s : σ) :
    (modify change).run pass s = ((), change s) := rfl

@[simp] theorem run_modifyGet (change : σ → α × σ) (s : σ) :
    (modifyGet change).run pass s = change s := rfl

@[simp] theorem run_sleep (ms : Nat) (s : σ) : (sleep ms).run pass s = ((), pass ms s) := rfl

end Run

/-- Runs a task for at most so many milliseconds; none if it would take longer. A task that is cut
off is left where it waits. One that needs no more than the limit to the millisecond is finished. -/
def limit : Nat → Task σ α → Task σ (Option α)
  | _, .done a => .done (some a)
  | ms, .look next => .look fun s => limit ms (next s)
  | ms, .update change next => .update change (limit ms next)
  | ms, .wait span next =>
    if span ≤ ms then .wait span (limit (ms - span) next) else .wait ms (.done none)

/-- A task that still waits for some time, beside a second task: `resume` goes on with both when the
first is done waiting, `alone` with the first when the second has ended. -/
def beside (resume : Task σ β → Task σ γ) (alone : β → Task σ γ) : Nat → Task σ β → Task σ γ
  | ms, .done b => .wait ms (alone b)
  | ms, .look next => .look fun s => beside resume alone ms (next s)
  | ms, .update change next => .update change (beside resume alone ms next)
  | ms, .wait span next =>
    if span = 0 then beside resume alone ms next
    else if ms ≤ span then .wait ms (resume (.wait (span - ms) next))
    else .wait span (beside resume alone (ms - span) next)

/-- Two tasks beside each other. Each runs until it waits, the first one first, and where both go on
at the same moment the first one goes on first. -/
def both : Task σ α → Task σ β → Task σ (α × β)
  | .done a, other => other.mapResult fun b => (a, b)
  | .look next, other => .look fun s => both (next s) other
  | .update change next, other => .update change (both next other)
  | .wait ms next, other =>
    if ms = 0 then both next other
    else beside (fun rest => both next rest) (fun b => next.mapResult fun a => (a, b)) ms other

/-- Several tasks beside each other, as with `both`. -/
def all : List (Task σ α) → Task σ (List α)
  | [] => .done []
  | t :: rest => (both t (all rest)).mapResult fun r => r.1 :: r.2

end Task

end StepFlow
