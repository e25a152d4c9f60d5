/-
This file is a small library of byte buffers: memory seen as a function from
addresses to bytes. A buffer is written by overlaying a run of bytes
(`blit`, `fill`) or by storing one byte, and 16- and 32-bit values are stored
and loaded in little-endian order. Two facts carry most uses: an overlay is
read back inside its run and is invisible outside it, and a stored word or
double word is loaded back modulo its width.

Nothing here depends on what the bytes mean.
-/

import Mathlib.Algebra.Ring.Nat
import Mathlib.Logic.Function.Basic
import Mathlib.Tactic.SplitIfs

/-- Memory: the byte at every address. -/
abbrev Buffer := Nat → UInt8

namespace Buffer

/-- The buffer of zero bytes. -/
def zero : Buffer := fun _ => 0

/-- Overlay `count` bytes of `source` at address `start`. -/
def blit (buffer : Buffer) (start count : Nat) (source : Buffer) : Buffer := fun index =>
  if start ≤ index ∧ index < start + count then source (index - start) else buffer index

/-- Overlay `count` copies of one byte at address `start`. -/
def fill (buffer : Buffer) (start count : Nat) (value : UInt8) : Buffer :=
  buffer.blit start count fun _ => value

/-- Store one byte. -/
def store (buffer : Buffer) (place : Nat) (value : UInt8) : Buffer := fun index =>
  if index = place then value else buffer index

/-- Overlay the bytes of a list at address `start`. -/
def storeList (buffer : Buffer) (start : Nat) (values : List UInt8) : Buffer :=
  buffer.blit start values.length fun index => values.getD index 0

/-- Store a 16-bit value, low byte first. -/
def storeWord (buffer : Buffer) (place value : Nat) : Buffer :=
  (buffer.store place (UInt8.ofNat value)).store (place + 1) (UInt8.ofNat (value / 2 ^ 8))

/-- Store a 32-bit value, low byte first. -/
def storeDword (buffer : Buffer) (place value : Nat) : Buffer :=
  (buffer.storeWord place value).storeWord (place + 2) (value / 2 ^ 16)

/-- Load a 16-bit value, low byte first. -/
def loadWord (buffer : Buffer) (place : Nat) : Nat :=
  (buffer place).toNat + 2 ^ 8 * (buffer (place + 1)).toNat

/-- Load a 32-bit value, low byte first. -/
def loadDword (buffer : Buffer) (place : Nat) : Nat :=
  buffer.loadWord place + 2 ^ 16 * buffer.loadWord (place + 2)

/-- The `count` bytes from address `start` on, as a list. -/
def slice (buffer : Buffer) (start count : Nat) : List UInt8 :=
  (List.range count).map fun index => buffer (start + index)

/-! ### Reading an overlay -/

theorem blit_inside (buffer source : Buffer) (start count : Nat) {index : Nat}
    (lower : start ≤ index) (upper : index < start + count) :
    buffer.blit start count source index = source (index - start) := by
  rw [blit, if_pos ⟨lower, upper⟩]

theorem blit_below (buffer source : Buffer) (start count : Nat) {index : Nat}
    (below : index < start) : buffer.blit start count source index = buffer index := by
  rw [blit, if_neg fun inside => absurd inside.1 (Nat.not_le.mpr below)]

theorem blit_above (buffer source : Buffer) (start count : Nat) {index : Nat}
    (above : start + count ≤ index) : buffer.blit start count source index = buffer index := by
  rw [blit, if_neg fun inside => absurd inside.2 (Nat.not_lt.mpr above)]

theorem blit_zero_count (buffer source : Buffer) (start : Nat) :
    buffer.blit start 0 source = buffer := by
  funext index
  rw [blit, if_neg (by omega)]

/-- Overlaying the two halves of a run one after the other overlays the run. -/
theorem blit_blit_append (buffer source : Buffer) (start first second : Nat) :
    (buffer.blit start first source).blit (start + first) second
        (fun index => source (first + index)) =
      buffer.blit start (first + second) source := by
  funext index
  simp only [blit]
  split_ifs with inner outer outer <;> first
    | rfl
    | omega
    | (congr 1; omega)

/-- An overlay depends on its source only inside the run. -/
theorem blit_congr (buffer first second : Buffer) (start count : Nat)
    (agree : ∀ index, index < count → first index = second index) :
    buffer.blit start count first = buffer.blit start count second := by
  funext index
  simp only [blit]
  split_ifs with inside
  · exact agree _ (by omega)
  · rfl

theorem fill_inside (buffer : Buffer) (start count : Nat) (value : UInt8) {index : Nat}
    (lower : start ≤ index) (upper : index < start + count) :
    buffer.fill start count value index = value :=
  blit_inside buffer _ start count lower upper

theorem store_self (buffer : Buffer) (place : Nat) (value : UInt8) :
    buffer.store place value place = value := if_pos rfl

theorem store_of_ne (buffer : Buffer) {place index : Nat} (value : UInt8)
    (different : index ≠ place) : buffer.store place value index = buffer index :=
  if_neg different

/-! ### Words -/

theorem loadWord_lt (buffer : Buffer) (place : Nat) : buffer.loadWord place < 2 ^ 16 := by
  have low := (buffer place).toNat_lt
  have high := (buffer (place + 1)).toNat_lt
  rw [loadWord]
  omega

theorem loadDword_lt (buffer : Buffer) (place : Nat) : buffer.loadDword place < 2 ^ 32 := by
  have low := buffer.loadWord_lt place
  have high := buffer.loadWord_lt (place + 2)
  rw [loadDword]
  omega

/-- The same bytes at two places are the same word. -/
theorem loadWord_shift {first second : Buffer} {place other : Nat}
    (agree : ∀ index, index < 2 → first (place + index) = second (other + index)) :
    first.loadWord place = second.loadWord other := by
  have low := agree 0 (by decide)
  have high := agree 1 (by decide)
  rw [Nat.add_zero, Nat.add_zero] at low
  rw [loadWord, loadWord, low, high]

theorem loadDword_shift {first second : Buffer} {place other : Nat}
    (agree : ∀ index, index < 4 → first (place + index) = second (other + index)) :
    first.loadDword place = second.loadDword other := by
  have low : first.loadWord place = second.loadWord other :=
    loadWord_shift fun index inside => agree index (by omega)
  have high : first.loadWord (place + 2) = second.loadWord (other + 2) :=
    loadWord_shift fun index inside => by
      rw [Nat.add_assoc, Nat.add_assoc]
      exact agree (2 + index) (by omega)
  rw [loadDword, loadDword, low, high]

/-- A word depends only on its two bytes. -/
theorem loadWord_congr {first second : Buffer} {place : Nat}
    (low : first place = second place) (high : first (place + 1) = second (place + 1)) :
    first.loadWord place = second.loadWord place := by
  rw [loadWord, loadWord, low, high]

/-- A double word depends only on its four bytes. -/
theorem loadDword_congr {first second : Buffer} {place : Nat}
    (agree : ∀ index, place ≤ index → index < place + 4 → first index = second index) :
    first.loadDword place = second.loadDword place := by
  rw [loadDword, loadDword,
    loadWord_congr (agree place (by omega) (by omega)) (agree (place + 1) (by omega) (by omega)),
    loadWord_congr (agree (place + 2) (by omega) (by omega))
      (agree (place + 2 + 1) (by omega) (by omega))]

theorem loadWord_storeWord (buffer : Buffer) (place value : Nat) :
    (buffer.storeWord place value).loadWord place = value % 2 ^ 16 := by
  have low : buffer.storeWord place value place = UInt8.ofNat value := by
    rw [storeWord, store_of_ne _ _ (by omega), store_self]
  have high : buffer.storeWord place value (place + 1) = UInt8.ofNat (value / 2 ^ 8) := by
    rw [storeWord, store_self]
  rw [loadWord, low, high, UInt8.toNat_ofNat', UInt8.toNat_ofNat']
  omega

theorem storeWord_of_outside (buffer : Buffer) {place value index : Nat}
    (outside : index < place ∨ place + 2 ≤ index) :
    buffer.storeWord place value index = buffer index := by
  rw [storeWord, store_of_ne _ _ (by omega), store_of_ne _ _ (by omega)]

theorem storeDword_of_outside (buffer : Buffer) {place value index : Nat}
    (outside : index < place ∨ place + 4 ≤ index) :
    buffer.storeDword place value index = buffer index := by
  rw [storeDword, storeWord_of_outside _ (by omega), storeWord_of_outside _ (by omega)]

theorem loadDword_storeDword (buffer : Buffer) (place value : Nat) :
    (buffer.storeDword place value).loadDword place = value % 2 ^ 32 := by
  have low : (buffer.storeDword place value).loadWord place = value % 2 ^ 16 := by
    rw [← loadWord_storeWord buffer place value]
    exact loadWord_congr (storeWord_of_outside _ (by omega)) (storeWord_of_outside _ (by omega))
  rw [loadDword, low, storeDword, loadWord_storeWord]
  omega

/-! ### Loading past a store -/

section Past

variable (buffer : Buffer) {place other count value : Nat}

theorem loadWord_store_past (byte : UInt8) (apart : other < place ∨ place + 1 < other) :
    (buffer.store other byte).loadWord place = buffer.loadWord place :=
  loadWord_congr (store_of_ne _ _ (by omega)) (store_of_ne _ _ (by omega))

theorem loadWord_storeWord_past (apart : other + 2 ≤ place ∨ place + 2 ≤ other) :
    (buffer.storeWord other value).loadWord place = buffer.loadWord place :=
  loadWord_congr (storeWord_of_outside _ (by omega)) (storeWord_of_outside _ (by omega))

theorem loadWord_storeDword_past (apart : other + 4 ≤ place ∨ place + 2 ≤ other) :
    (buffer.storeDword other value).loadWord place = buffer.loadWord place :=
  loadWord_congr (storeDword_of_outside _ (by omega)) (storeDword_of_outside _ (by omega))

theorem loadDword_store_past (byte : UInt8) (apart : other < place ∨ place + 3 < other) :
    (buffer.store other byte).loadDword place = buffer.loadDword place :=
  loadDword_congr fun _ _ _ => store_of_ne _ _ (by omega)

theorem loadDword_storeWord_past (apart : other + 2 ≤ place ∨ place + 4 ≤ other) :
    (buffer.storeWord other value).loadDword place = buffer.loadDword place :=
  loadDword_congr fun _ _ _ => storeWord_of_outside _ (by omega)

theorem loadDword_storeDword_past (apart : other + 4 ≤ place ∨ place + 4 ≤ other) :
    (buffer.storeDword other value).loadDword place = buffer.loadDword place :=
  loadDword_congr fun _ _ _ => storeDword_of_outside _ (by omega)

variable (source : Buffer)

theorem blit_outside {index : Nat} (outside : index < other ∨ other + count ≤ index) :
    buffer.blit other count source index = buffer index := by
  rcases outside with below | above
  · exact blit_below _ _ _ _ below
  · exact blit_above _ _ _ _ above

theorem loadWord_blit_past (apart : other + count ≤ place ∨ place + 2 ≤ other) :
    (buffer.blit other count source).loadWord place = buffer.loadWord place :=
  loadWord_congr (blit_outside _ _ (by omega)) (blit_outside _ _ (by omega))

theorem loadDword_blit_past (apart : other + count ≤ place ∨ place + 4 ≤ other) :
    (buffer.blit other count source).loadDword place = buffer.loadDword place :=
  loadDword_congr fun _ _ _ => blit_outside _ _ (by omega)

end Past

/-! ### Slices -/

theorem slice_length (buffer : Buffer) (start count : Nat) :
    (buffer.slice start count).length = count := by
  rw [slice, List.length_map, List.length_range]

/-- A run of bytes is one run of them and the next. -/
theorem slice_add (buffer : Buffer) (start first second : Nat) :
    buffer.slice start (first + second) =
      buffer.slice start first ++ buffer.slice (start + first) second := by
  rw [slice, slice, slice, List.range_add, List.map_append, List.map_map]
  refine congrArg _ (List.map_congr_left fun index _ => ?_)
  rw [Function.comp_apply, Nat.add_assoc]

theorem slice_getElem? (buffer : Buffer) (start : Nat) {count index : Nat}
    (inside : index < count) : (buffer.slice start count)[index]? =
    some (buffer (start + index)) := by
  rw [slice, List.getElem?_map, List.getElem?_range inside, Option.map_some]

theorem take_slice (buffer : Buffer) (start count limit : Nat) :
    (buffer.slice start count).take limit = buffer.slice start (min limit count) := by
  rw [slice, slice, ← List.map_take, List.take_range]

theorem drop_slice (buffer : Buffer) (start count limit : Nat) :
    (buffer.slice start count).drop limit =
      buffer.slice (start + min limit count) (count - min limit count) := by
  have split := slice_add buffer start (min limit count) (count - min limit count)
  rw [Nat.add_sub_cancel' (Nat.min_le_right _ _)] at split
  rw [split]
  rcases Nat.le_total limit count with inside | beyond
  · rw [Nat.min_eq_left inside, List.drop_left' (slice_length _ _ _)]
  · rw [Nat.min_eq_right beyond, Nat.sub_self]
    exact List.drop_of_length_le (by rw [List.length_append, slice_length, slice_length]; omega)

/-- Bytes that are put behind a run of them follow it. -/
theorem slice_extend {first second : Buffer} {front more : List UInt8} {taken : Nat}
    (start : first.slice 0 front.length = front) (most : taken ≤ more.length)
    (same : ∀ index, index < front.length → second index = first index)
    (behind : ∀ index, index < taken → second (front.length + index) = more.getD index 0) :
    second.slice 0 (front.length + taken) = front ++ more.take taken := by
  have kept : second.slice 0 front.length = front := by
    rw [← start, slice_length, slice, slice]
    exact List.map_congr_left fun index member => by
      rw [Nat.zero_add, same index (List.mem_range.mp member)]
  rw [slice_add, kept, Nat.zero_add]
  refine congrArg _ (List.ext_getElem? fun index => ?_)
  by_cases inside : index < taken
  · rw [slice_getElem? _ _ inside, behind index inside, List.getElem?_take_of_lt inside,
      List.getD_eq_getElem?_getD, List.getElem?_eq_getElem (Nat.lt_of_lt_of_le inside most),
      Option.getD_some]
  · rw [List.getElem?_eq_none (by rw [slice_length]; omega),
      List.getElem?_eq_none (by rw [List.length_take]; omega)]

/-- Two slices are equal exactly when they agree byte by byte. -/
theorem slice_eq_iff (first second : Buffer) (start other count : Nat) :
    first.slice start count = second.slice other count ↔
      ∀ index, index < count → first (start + index) = second (other + index) := by
  constructor
  · intro same index inside
    have here := congrArg (fun bytes : List UInt8 => bytes[index]?) same
    simp only [slice_getElem? _ _ inside] at here
    exact Option.some_inj.mp here
  · intro agree
    refine List.map_congr_left fun index member => ?_
    exact agree index (List.mem_range.mp member)

end Buffer
