/-
This file is a small library of programs over a state. A program takes a state and
either returns a result with a new state or stops in a state on its way: the run goes
on for longer than it is followed, or it does something whose effect the language
leaves undefined.

Four readings of a program are used. `Outcome` is the equation that a run ends with
a result in a state; sequencing splits it in two. `Comes` adds the runs that stop.
`Ensures` is the partial correctness triple over outcomes, and `Guards` the triple over
both, of which `Keeps` is the case of an invariant. There is one rule for each way a
program is put together.

Nothing here depends on the state or on what the programs do.
-/

import Mathlib.Algebra.Ring.Nat
import Mathlib.Tactic.SplitIfs

/-- A program with a state and a result, which may stop on its way. -/
abbrev Program (State Result : Type) := StateT State (Except State) Result

/-- A call whose failure is cleaned up after and ends the function with -1. -/
def orFail {State Code First : Type} (call : Program State (Except Code First))
    (cleanup : Program State PUnit) (next : First → Program State Int) : Program State Int := do
  match ← call with
  | .error _ =>
    cleanup
    return -1
  | .ok value => next value

namespace Program

variable {State First Second Result : Type}

/-- A run of the program from a state ends with a result in a state. -/
def Outcome (program : Program State Result) (start : State) (result : Result)
    (finish : State) : Prop := program start = .ok (result, finish)

/-- A run of the program from a state comes to a state, with a result or without one. -/
def Comes (program : Program State Result) (start finish : State) : Prop :=
  (∃ result, program.Outcome start result finish) ∨ program start = .error finish

/-- The program without an outcome. -/
def undefined : Program State Result := fun state => .error state

/-- Whenever the program starts in a state of the first kind and ends, its result and the state it
ends in are of the second. -/
def Ensures (before : State → Prop) (program : Program State Result)
    (after : Result → State → Prop) : Prop :=
  ∀ start result finish, before start → program.Outcome start result finish →
    after result finish

/-! ### Outcomes -/

section Outcomes

variable {start finish : State}

theorem outcome_pure {result value : Result} :
    Outcome (pure value) start result finish ↔ result = value ∧ finish = start := by
  constructor
  · intro run
    obtain ⟨rfl, rfl⟩ := Prod.mk.inj (Except.ok.inj run)
    exact ⟨rfl, rfl⟩
  · rintro ⟨rfl, rfl⟩
    rfl

/-- A sequence ends when its first part ends and its second part ends from there. -/
theorem outcome_bind {first : Program State First} {second : First → Program State Second}
    {result : Second} :
    Outcome (first >>= second) start result finish ↔
      ∃ value middle, first.Outcome start value middle ∧
        (second value).Outcome middle result finish := by
  change Except.bind (first start) (fun done => second done.1 done.2) = .ok (result, finish) ↔ _
  cases begun : first start with
  | error state =>
    simp only [Except.bind, reduceCtorEq, false_iff, not_exists, not_and]
    intro value middle ran
    exact absurd (begun.symm.trans ran) (by simp)
  | ok done =>
    constructor
    · intro run
      exact ⟨done.1, done.2, begun, run⟩
    · rintro ⟨value, middle, ran, ended⟩
      obtain rfl := Except.ok.inj (begun.symm.trans ran)
      exact ended

theorem outcome_get {result : State} :
    Outcome (get : Program State State) start result finish ↔
      result = start ∧ finish = start := outcome_pure

theorem outcome_modify {change : State → State} {result : PUnit} :
    Outcome (modify change : Program State PUnit) start result finish ↔
      finish = change start := by
  constructor
  · intro run
    exact (Prod.mk.inj (Except.ok.inj run)).2.symm
  · rintro rfl
    rfl

theorem outcome_undefined {result : Result} :
    ¬ Outcome (undefined : Program State Result) start result finish := nofun

/-- A result other than the error is reached only through a first part that came out good. -/
theorem outcome_checked [DecidableEq First] {first : Program State First} {good : First}
    {second : Program State Result} {error result : Result} (different : result ≠ error) :
    Outcome (first >>= fun value => if value ≠ good then pure error else second) start result
        finish ↔
      ∃ middle, first.Outcome start good middle ∧ second.Outcome middle result finish := by
  constructor
  · intro run
    obtain ⟨value, middle, begun, ended⟩ := outcome_bind.mp run
    by_cases wrong : value ≠ good
    · rw [if_pos wrong] at ended
      exact absurd (outcome_pure.mp ended).1 different
    · rw [if_neg wrong] at ended
      rw [not_not.mp wrong] at begun
      exact ⟨middle, begun, ended⟩
  · rintro ⟨middle, begun, ended⟩
    refine outcome_bind.mpr ⟨good, middle, begun, ?_⟩
    rwa [if_neg (not_not.mpr rfl)]

/-- A function that does not end with -1 had its call succeed. -/
theorem outcome_orFail {Code : Type} {call : Program State (Except Code First)}
    {cleanup : Program State PUnit} {next : First → Program State Int} {result : Int}
    (good : result ≠ -1) :
    Outcome (orFail call cleanup next) start result finish ↔
      ∃ value middle, call.Outcome start (.ok value) middle ∧
        (next value).Outcome middle result finish := by
  constructor
  · intro run
    obtain ⟨outcome, middle, begun, ended⟩ := outcome_bind.mp run
    cases outcome with
    | error code =>
      obtain ⟨_, _, _, failed⟩ := outcome_bind.mp ended
      exact absurd (outcome_pure.mp failed).1 good
    | ok value => exact ⟨value, middle, begun, ended⟩
  · rintro ⟨value, middle, begun, ended⟩
    exact outcome_bind.mpr ⟨_, middle, begun, ended⟩

/-- A program has at most one outcome. -/
theorem Outcome.unique {program : Program State Result} {first second : Result}
    {middle : State} (one : program.Outcome start first middle)
    (other : program.Outcome start second finish) : first = second ∧ middle = finish := by
  obtain ⟨rfl, rfl⟩ := Prod.mk.inj (Except.ok.inj (one.symm.trans other))
  exact ⟨rfl, rfl⟩

/-- A run is found by what is seen of its outcome. -/
theorem outcome_of_observed {Seen : Type} {program : Program State Result}
    {observe : Result × State → Seen} {seen : Seen}
    (run : (program start).toOption.map observe = some seen) :
    ∃ result finish, program.Outcome start result finish ∧ observe (result, finish) = seen := by
  obtain ⟨⟨result, finish⟩, done, same⟩ := Option.map_eq_some_iff.mp run
  cases ended : program start with
  | error state =>
    rw [ended] at done
    exact absurd done (by simp [Except.toOption])
  | ok outcome =>
    rw [ended] at done
    obtain rfl := Option.some.inj done
    exact ⟨result, finish, ended, same⟩

end Outcomes

/-! ### Triples -/

section Triples

variable {before : State → Prop}

theorem ensures_pure {value : Result} {after : Result → State → Prop}
    (holds : ∀ state, before state → after value state) :
    Ensures before (pure value) after := by
  intro start result finish ready run
  obtain ⟨rfl, rfl⟩ := outcome_pure.mp run
  exact holds _ ready

theorem ensures_bind {first : Program State First} {second : First → Program State Second}
    {between : First → State → Prop} {after : Second → State → Prop}
    (begins : Ensures before first between)
    (ends : ∀ value, Ensures (between value) (second value) after) :
    Ensures before (first >>= second) after := by
  intro start result finish ready run
  obtain ⟨value, middle, begun, ended⟩ := outcome_bind.mp run
  exact ends value _ _ _ (begins _ _ _ ready begun) ended

theorem Ensures.mono {program : Program State Result} {stronger : State → Prop}
    {after weaker : Result → State → Prop} (triple : Ensures before program after)
    (start : ∀ state, stronger state → before state)
    (finish : ∀ result state, after result state → weaker result state) :
    Ensures stronger program weaker :=
  fun _ _ _ ready run => finish _ _ (triple _ _ _ (start _ ready) run)

theorem ensures_ite {condition : Prop} [Decidable condition]
    {first second : Program State Result} {after : Result → State → Prop}
    (holds : condition → Ensures before first after)
    (fails : ¬ condition → Ensures before second after) :
    Ensures before (if condition then first else second) after := by
  split_ifs with taken
  · exact holds taken
  · exact fails taken

theorem ensures_undefined {after : Result → State → Prop} :
    Ensures before (undefined : Program State Result) after :=
  fun _ _ _ _ run => absurd run outcome_undefined

end Triples

/-! ### Runs that stop -/

/-- Whenever the program starts in a state of the first kind, it stops in a state of the second or
ends with its result and a state of the third. -/
def Guards (before during : State → Prop) (program : Program State Result)
    (after : Result → State → Prop) : Prop :=
  ∀ start, before start → match program start with
    | .ok (result, finish) => after result finish
    | .error finish => during finish

section Guards

variable {before during : State → Prop}

theorem guards_of_comes {program : Program State Result} {after : Result → State → Prop}
    (ends : Ensures before program after)
    (stops : ∀ start finish, before start → program start = .error finish → during finish) :
    Guards before during program after := by
  intro start ready
  cases run : program start with
  | ok done => exact ends start done.1 done.2 ready run
  | error finish => exact stops start finish ready run

theorem Guards.ensures {program : Program State Result} {after : Result → State → Prop}
    (guards : Guards before during program after) : Ensures before program after := by
  intro start result finish ready run
  have holds := guards start ready
  rwa [show program start = .ok (result, finish) from run] at holds

theorem Guards.stops {program : Program State Result} {after : Result → State → Prop}
    (guards : Guards before during program after) {start finish : State} (ready : before start)
    (run : program start = .error finish) : during finish := by
  have holds := guards start ready
  rwa [run] at holds

theorem guards_pure {value : Result} {after : Result → State → Prop}
    (holds : ∀ state, before state → after value state) :
    Guards before during (pure value) after := holds

theorem guards_bind {first : Program State First} {second : First → Program State Second}
    {between : First → State → Prop} {after : Second → State → Prop}
    (begins : Guards before during first between)
    (ends : ∀ value, Guards (between value) during (second value) after) :
    Guards before during (first >>= second) after := by
  intro start ready
  have begun := begins start ready
  change match Except.bind (first start) (fun done => second done.1 done.2) with
    | .ok (result, finish) => after result finish
    | .error finish => during finish
  cases ran : first start with
  | error state =>
    rw [ran] at begun
    exact begun
  | ok done =>
    rw [ran] at begun
    exact ends done.1 done.2 begun

theorem Guards.mono {program : Program State Result} {stronger weaker : State → Prop}
    {after other : Result → State → Prop} (guards : Guards before during program after)
    (start : ∀ state, stronger state → before state)
    (stop : ∀ state, during state → weaker state)
    (finish : ∀ result state, after result state → other result state) :
    Guards stronger weaker program other :=
  guards_of_comes (Ensures.mono guards.ensures start finish) fun _ _ ready run =>
    stop _ (guards.stops (start _ ready) run)

theorem guards_ite {condition : Prop} [Decidable condition]
    {first second : Program State Result} {after : Result → State → Prop}
    (holds : condition → Guards before during first after)
    (fails : ¬ condition → Guards before during second after) :
    Guards before during (if condition then first else second) after := by
  split_ifs with taken
  · exact holds taken
  · exact fails taken

theorem guards_undefined {after : Result → State → Prop}
    (holds : ∀ state, before state → during state) :
    Guards before during (undefined : Program State Result) after := holds

/-- A program that looks at its state first. -/
theorem guards_get_bind {rest : State → Program State Result} {after : Result → State → Prop}
    (holds : ∀ state, before state → Guards (· = state) during (rest state) after) :
    Guards before during (get >>= rest) after := fun state ready => holds state ready state rfl

theorem guards_modify {change : State → State} {after : PUnit → State → Prop}
    (holds : ∀ state, before state → after () (change state)) :
    Guards before during (modify change : Program State PUnit) after := holds

/-- A triple for each of the states that a program may start in. -/
theorem guards_each {program : Program State Result} {after : Result → State → Prop}
    (each : ∀ state, before state → Guards (· = state) during program after) :
    Guards before during program after := fun state ready => each state ready state rfl

/-- A function that cleans up after a failed call and ends with -1. -/
theorem guards_orFail {Code : Type} {call : Program State (Except Code First)}
    {cleanup : Program State PUnit} {next : First → Program State Int}
    {between : Except Code First → State → Prop} {after : Int → State → Prop}
    (calls : Guards before during call between)
    (cleans : ∀ code, Guards (between (.error code)) during cleanup fun _ => after (-1))
    (goesOn : ∀ value, Guards (between (.ok value)) during (next value) after) :
    Guards before during (orFail call cleanup next) after := by
  refine guards_bind calls fun outcome => ?_
  cases outcome with
  | error code => exact guards_bind (cleans code) fun _ => guards_pure fun _ => id
  | ok value => exact goesOn value

/-- Whatever a guarded run comes to. -/
theorem Guards.comes {program : Program State Result} (guards : Guards before during program
    fun _ => during) {start finish : State} (ready : before start)
    (run : program.Comes start finish) : during finish := by
  rcases run with ⟨result, ended⟩ | stopped
  · exact guards.ensures _ _ _ ready ended
  · exact guards.stops ready stopped

end Guards

/-! ### Invariants -/

/-- A run that starts where the invariant holds comes to a state where it holds, and if it ends then
with a result of a kind. -/
def Keeps (invariant : State → Prop) (program : Program State Result) (kind : Result → Prop) :
    Prop :=
  Guards invariant invariant program fun result state => invariant state ∧ kind result

section Invariants

variable {invariant : State → Prop} {kind : Result → Prop}

theorem keeps_pure {value : Result} (holds : kind value) : Keeps invariant (pure value) kind :=
  guards_pure fun _ ready => ⟨ready, holds⟩

theorem keeps_bind {first : Program State First} {second : First → Program State Second}
    {between : First → Prop} {kind : Second → Prop} (begins : Keeps invariant first between)
    (ends : ∀ value, between value → Keeps invariant (second value) kind) :
    Keeps invariant (first >>= second) kind :=
  guards_bind begins fun value start ready => ends value ready.2 start ready.1

theorem Keeps.mono {program : Program State Result} {weaker : Result → Prop}
    (keeps : Keeps invariant program kind) (implies : ∀ value, kind value → weaker value) :
    Keeps invariant program weaker :=
  Guards.mono keeps (fun _ => id) (fun _ => id) fun _ _ holds => ⟨holds.1, implies _ holds.2⟩

theorem keeps_ite {condition : Prop} [Decidable condition] {first second : Program State Result}
    (holds : condition → Keeps invariant first kind)
    (fails : ¬ condition → Keeps invariant second kind) :
    Keeps invariant (if condition then first else second) kind := guards_ite holds fails

theorem keeps_undefined : Keeps invariant (undefined : Program State Result) kind :=
  guards_undefined fun _ => id

theorem keeps_get : Keeps invariant (get : Program State State) invariant :=
  fun _ ready => ⟨ready, ready⟩

theorem keeps_modify {change : State → State} (step : ∀ state, invariant state →
    invariant (change state)) :
    Keeps invariant (modify change : Program State PUnit) fun _ => True :=
  guards_modify fun _ ready => ⟨step _ ready, trivial⟩

theorem keeps_of_comes {program : Program State Result}
    (step : ∀ start finish, invariant start → program.Comes start finish → invariant finish) :
    Keeps invariant program fun _ => True :=
  guards_of_comes (fun _ _ _ ready run => ⟨step _ _ ready (Or.inl ⟨_, run⟩), trivial⟩)
    fun _ _ ready run => step _ _ ready (Or.inr run)

/-- Whatever a run comes to. -/
theorem Keeps.comes {program : Program State Result} (keeps : Keeps invariant program kind)
    {start finish : State} (ready : invariant start) (run : program.Comes start finish) :
    invariant finish :=
  Guards.comes (Guards.mono keeps (fun _ => id) (fun _ => id) fun _ _ holds => holds.1) ready run

/-- A function that cleans up after a failed call keeps what all its calls keep. -/
theorem keeps_orFail {Code : Type} {call : Program State (Except Code First)}
    {cleanup : Program State PUnit} {next : First → Program State Int}
    {between : First → Prop} (calls : Keeps invariant call fun outcome =>
      ∀ value, outcome = .ok value → between value)
    (cleans : Keeps invariant cleanup fun _ => True)
    (goesOn : ∀ value, between value → Keeps invariant (next value) fun _ => True) :
    Keeps invariant (orFail call cleanup next) fun _ => True := by
  refine keeps_bind calls fun outcome fine => ?_
  cases outcome with
  | error code => exact keeps_bind cleans fun _ _ => keeps_pure trivial
  | ok value => exact goesOn value (fine value rfl)

end Invariants

end Program
