/-
This file fixes the machine integers of a C program. A signed 32-bit `int` is
what is left of an integer when it is stored in one: the representative of its
class modulo `2 ^ 32` nearest to zero. The unsigned types that change width
between builds (`unsigned long` and everything defined from it) are naturals
read modulo the build's own word.
-/

import Mathlib.Algebra.Ring.Int.Defs
import Mathlib.Algebra.Ring.Nat
import Mathlib.Order.Basic

/-! ### Signed 32-bit integers -/

/-- An integer as an `int` variable holds it: two's complement, 32 bits. -/
def int32 (value : Int) : Int := Int.bmod value (2 ^ 32)

/-- A value in the range of `int` is stored unchanged. -/
theorem int32_of_range {value : Int} (lower : -2 ^ 31 ≤ value) (upper : value < 2 ^ 31) :
    int32 value = value := by
  simp only [int32, Int.bmod]
  split_ifs <;> omega

theorem int32_lt (value : Int) : int32 value < 2 ^ 31 := by
  simp only [int32, Int.bmod]
  split_ifs <;> omega

/-- Storing a natural number in an `int` gives a negative value exactly when bit 31 is set. -/
theorem int32_natCast_neg (value : Nat) : int32 value < 0 ↔ 2 ^ 31 ≤ value % 2 ^ 32 := by
  simp only [int32, Int.bmod]
  split_ifs <;> omega

theorem int32_natCast_nonneg (value : Nat) : 0 ≤ int32 value ↔ value % 2 ^ 32 < 2 ^ 31 := by
  have neg := int32_natCast_neg value
  omega

/-! ### Builds and their words -/

/-- The two builds of the program: 64-bit Unix (LP64) and 32-bit Windows through MinGW. -/
inductive Build where
  | lp64
  | mingw
  deriving DecidableEq, Repr

/-- The number of values of `unsigned long`, hence of every type defined from it. -/
def Build.word : Build → Nat
  | .lp64 => 2 ^ 64
  | .mingw => 2 ^ 32

/-- Unsigned subtraction: it wraps around below zero. -/
def Build.sub (build : Build) (first second : Nat) : Nat :=
  (first + (build.word - second % build.word)) % build.word

/-- Unsigned multiplication: it keeps the low word. -/
def Build.mul (build : Build) (first second : Nat) : Nat := first * second % build.word

/-- Unsigned addition: it keeps the low word. -/
def Build.add (build : Build) (first second : Nat) : Nat := (first + second) % build.word

theorem Build.le_word (build : Build) : 2 ^ 32 ≤ build.word := by
  cases build <;> decide

theorem Build.word_pos (build : Build) : 0 < build.word :=
  Nat.lt_of_lt_of_le (by decide) build.le_word

/-- A subtraction that does not go below zero is the mathematical one. -/
theorem Build.sub_of_le (build : Build) {first second : Nat} (small : first < build.word)
    (le : second ≤ first) : build.sub first second = first - second := by
  have width : second % build.word = second := Nat.mod_eq_of_lt (Nat.lt_of_le_of_lt le small)
  have total : first + (build.word - second) = first - second + build.word := by omega
  rw [Build.sub, width, total, Nat.add_mod_right, Nat.mod_eq_of_lt (by omega)]

theorem Build.mul_of_lt (build : Build) {first second : Nat}
    (small : first * second < build.word) : build.mul first second = first * second :=
  Nat.mod_eq_of_lt small

theorem Build.add_of_lt (build : Build) {first second : Nat}
    (small : first + second < build.word) : build.add first second = first + second :=
  Nat.mod_eq_of_lt small

/-- An `unsigned long` stored in an `off_t`, a signed type of 64 bits in either build. -/
def offT (value : Nat) : Int := Int.bmod value (2 ^ 64)

theorem offT_of_lt {value : Nat} (small : value < 2 ^ 63) : offT value = value :=
  Int.bmod_eq_of_le (by omega) (by omega)
