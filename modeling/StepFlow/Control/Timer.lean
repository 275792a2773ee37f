import StepFlow.ActionError

/-!
# Timers

A timer counts ticks. While it runs, a tick is due at every full period after its start; a tick that
is due while the timer is paused is passed over. A timer with a limit stops by itself at the tick
that brings the count to the limit or beyond it. Times are milliseconds of a clock that never goes
back, and whoever acts at the moment when a tick is due acts before the tick.
-/

namespace StepFlow

structure Timer where
  /-- The time between ticks. -/
  period : Nat
  /-- The count at which the timer stops by itself. -/
  maxTicks : Option Nat
  ticks : Nat
  paused : Bool
  /-- While the timer runs, when the next tick is due. -/
  due : Option Nat
  /-- How often the count was published. -/
  version : Nat
deriving DecidableEq, Repr

namespace Timer

def ofPeriod (period : Nat) (maxTicks : Option Nat) : Timer :=
  ⟨period, maxTicks, 0, false, none, 0⟩

def isRunning (t : Timer) : Bool := t.due.isSome

/-- Starts a timer that does not run and tells whether it did. Only a start that
counts ends a pause. -/
def start (t : Timer) (now : Nat) : Except ActionError (Bool × Timer) :=
  if t.period = 0 then .error (.invalidParameters .zeroPeriod)
  else if t.isRunning then .ok (false, t)
  else .ok (true, { t with paused := false, due := some (now + t.period) })

/-- Passes over ticks from now on. -/
def pause (t : Timer) : Timer := { t with paused := true }

/-- Counts ticks again. -/
def resume (t : Timer) : Timer := { t with paused := false }

/-- Brings the count back to zero; a timer that runs goes on. -/
def reset (t : Timer) : Timer := { t with ticks := 0, version := t.version + 1 }

/-- Stops a timer and tells whether it was running. -/
def cancel (t : Timer) : Bool × Timer := (t.isRunning, { t with due := none })

/-- The number of ticks due from `due` on and before `now`. -/
def dueBefore (period due now : Nat) : Nat :=
  if due < now then (now - 1 - due) / period + 1 else 0

/-- How many more ticks a timer counts before it stops by itself. -/
def remaining (t : Timer) : Option Nat :=
  t.maxTicks.map fun limit => max 1 (limit - t.ticks)

/-- The timer when all ticks due before `now` have taken place. -/
def advance (t : Timer) (now : Nat) : Timer :=
  match t.due with
  | none => t
  | some due =>
    let count := dueBefore t.period due now
    let later := { t with due := some (due + count * t.period) }
    if t.paused then later
    else
      match t.remaining with
      | some left =>
        if left ≤ count then
          { t with ticks := t.ticks + left, version := t.version + left, due := none }
        else { later with ticks := t.ticks + count, version := t.version + count }
      | none => { later with ticks := t.ticks + count, version := t.version + count }

end Timer

end StepFlow
