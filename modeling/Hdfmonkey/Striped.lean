/-
This file is a small library of runs of bytes that are laid over blocks of one length,
which lie at places of a store and need not be next to each other.

Putting a block changes the bytes of the run that it holds and no others, provided that no
two blocks of the run lie at one place.

Nothing here depends on what the places are.
-/

import Hdfmonkey.Buffer

/-- The bytes of a run whose blocks lie at some places of a store. -/
def striped {Place : Type} (length : Nat) (store : Place → Buffer) (place : Nat → Place) : Buffer :=
  fun index => store (place (index / length)) (index % length)

namespace Striped

variable {Place : Type} {length count number index : Nat} {store other : Place → Buffer}
  {place : Nat → Place}

/-- The bytes of a run depend on its own blocks. -/
theorem striped_congr (same : ∀ number, number < count →
    store (place number) = other (place number))
    (inside : index < count * length) :
    striped length store place index = striped length other place index := by
  have block : index / length < count := Nat.div_lt_of_lt_mul (Nat.mul_comm count length ▸ inside)
  rw [striped, striped, same _ block]

variable [DecidableEq Place]

/-- A block that is put is seen in its own bytes. -/
theorem striped_update (apart : ∀ other, other < count → place other = place number →
    other = number)
    (block : Buffer) (inside : index < count * length) :
    striped length (Function.update store (place number) block) place index =
      if index / length = number then block (index % length)
      else striped length store place index := by
  have within : index / length < count := Nat.div_lt_of_lt_mul (Nat.mul_comm count length ▸ inside)
  rw [striped]
  split_ifs with here
  · rw [here, Function.update_self]
  · rw [Function.update_of_ne fun same => here (apart _ within same)]
    rfl

end Striped
