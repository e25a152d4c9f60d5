/-
This file is a small library of programs that are made of calls, any of which may
fail. The state of such a program is the log of its calls so far. What the calls do
is not up to the program: their fates say of each, by its number, whether it fails
and how much it does if it does not.

A plan is a list of calls that all succeed and do all they are asked to. A program
tracks a set of plans if a run of it without a fault is a run of such a plan, and if
the fates let it carry out such a plan then it does just that and returns zero.
There is one rule for each way a program is put together.

Nothing here depends on what the calls are.
-/

import Hdfmonkey.Program

/-- A call of a log, and the code it failed with. -/
structure LogEntry (Call Code : Type) where
  call : Call
  code : Option Code

/-- The calls so far, newest first. -/
abbrev CallLog (Call Code : Type) := List (LogEntry Call Code)

/-- Which calls fail, and how much each of the others does at most. -/
structure Fates (Code : Type) where
  code : Nat → Option Code
  most : Nat → Nat

/-- Calls that may do less than they are asked to: whether a call has done all of it, and whether it
can if it does at most so much. -/
class Partly (Call : Type) where
  full : Call → Prop
  fits : Call → Nat → Prop

namespace CallLog

section Calls

variable {Call Code Result First : Type}

/-- The entries of calls that succeeded. -/
def recorded (calls : List Call) : CallLog Call Code := (calls.map (⟨·, none⟩)).reverse

/-- Whatever the program does, it only adds to the log. -/
def Grows (program : Program (CallLog Call Code) Result) : Prop :=
  ∀ log result after, program.Outcome log result after → log <:+ after

end Calls

/-! ### Plans -/

section Plans

variable {Call Code Result : Type} [Partly Call]

/-- No call of the log failed or did less than it was asked to. -/
def Clean (log : CallLog Call Code) : Prop :=
  ∀ entry ∈ log, entry.code = none ∧ Partly.full entry.call

/-- From a number on, the fates let the calls succeed and do all they are asked to. -/
def Allowed (fates : Fates Code) : Nat → List Call → Prop
  | _, [] => True
  | number, call :: calls =>
    (fates.code number = none ∧ Partly.fits call (fates.most number)) ∧
      Allowed fates (number + 1) calls

/-- A set of plans for what a program does and returns. -/
structure Tracks (fates : Fates Code) (program : Program (CallLog Call Code) Int)
    (plan : List Call → Prop) : Prop where
  grows : Grows program
  planned : ∀ log result after, program.Outcome log result after → Clean after →
    ∃ calls, plan calls ∧ Allowed fates log.length calls
  carried : ∀ log result after calls, program.Outcome log result after → plan calls →
    Allowed fates log.length calls → result = 0 ∧ after = recorded calls ++ log

/-- The plans that begin with a call. -/
def First (call : Call) (plan : List Call → Prop) (calls : List Call) : Prop :=
  ∃ rest, calls = call :: rest ∧ plan rest

/-- The plans that are two plans one after the other. -/
def After (first second : List Call → Prop) (calls : List Call) : Prop :=
  ∃ begun ended, calls = begun ++ ended ∧ first begun ∧ second ended

variable {fates : Fates Code} {plan : List Call → Prop}

theorem Tracks.congr {program : Program (CallLog Call Code) Int} {other : List Call → Prop}
    (tracks : Tracks fates program plan) (same : ∀ calls, plan calls ↔ other calls) :
    Tracks fates program other := by
  have : plan = other := funext fun calls => propext (same calls)
  exact this ▸ tracks

end Plans

end CallLog
