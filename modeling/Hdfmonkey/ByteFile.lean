/-
This file is a small library of files: a length and a byte at every offset, with
the invariant that no byte is set past the length. The invariant makes a file
extensional (two files with one length and the same bytes are equal) and gives
holes their meaning: extending a file, by a truncation upwards or by a write past
its end, exposes zero bytes.

Nothing here depends on what is stored in the file or on who writes it.
-/

import Hdfmonkey.Buffer

/-- A file: its length and its bytes. Past the length every byte is zero. -/
structure ByteFile where
  size : Nat
  byte : Buffer
  beyond : ∀ index, size ≤ index → byte index = 0

namespace ByteFile

/-- Files are determined by their length and their bytes. -/
theorem ext {first second : ByteFile} (size : first.size = second.size)
    (byte : ∀ index, first.byte index = second.byte index) : first = second := by
  obtain ⟨firstSize, firstByte, firstBeyond⟩ := first
  obtain ⟨secondSize, secondByte, secondBeyond⟩ := second
  obtain rfl : firstSize = secondSize := size
  obtain rfl : firstByte = secondByte := funext byte
  rfl

/-- The empty file. -/
def empty : ByteFile where
  size := 0
  byte := Buffer.zero
  beyond _ _ := rfl

/-- Cut the file to a length, or extend it to that length with zero bytes. -/
def truncate (file : ByteFile) (size : Nat) : ByteFile where
  size := size
  byte index := if index < size then file.byte index else 0
  beyond _ above := if_neg (Nat.not_lt.mpr above)

/-- Write `count` bytes at an offset. Writing past the end extends the file; writing no
bytes changes nothing. -/
def write (file : ByteFile) (start count : Nat) (source : Buffer) : ByteFile where
  size := if count = 0 then file.size else max file.size (start + count)
  byte := file.byte.blit start count source
  beyond index above := by
    split_ifs at above with none
    · subst none
      rw [Buffer.blit_zero_count]
      exact file.beyond index above
    · rw [Buffer.blit_above _ _ _ _ (Nat.le_trans (Nat.le_max_right _ _) above)]
      exact file.beyond index (Nat.le_trans (Nat.le_max_left _ _) above)

/-- The bytes a read of `count` bytes at an offset finds: it stops at the end of the file. -/
def available (file : ByteFile) (start count : Nat) : Nat := min count (file.size - start)

/-- The file that holds exactly the first `count` bytes of a buffer. -/
def ofBuffer (count : Nat) (source : Buffer) : ByteFile := empty.write 0 count source

/-! ### Lengths -/

theorem size_truncate (file : ByteFile) (size : Nat) : (file.truncate size).size = size := rfl

theorem size_write_pos (file : ByteFile) (start : Nat) {count : Nat} (source : Buffer)
    (positive : 0 < count) :
    (file.write start count source).size = max file.size (start + count) :=
  if_neg (Nat.pos_iff_ne_zero.mp positive)

/-- A write inside the file keeps its length. -/
theorem size_write_inside (file : ByteFile) {start count : Nat} (source : Buffer)
    (inside : start + count ≤ file.size) : (file.write start count source).size = file.size := by
  rw [write]
  split_ifs
  · rfl
  · exact Nat.max_eq_left inside

theorem size_le_write (file : ByteFile) (start count : Nat) (source : Buffer) :
    file.size ≤ (file.write start count source).size := by
  rw [write]
  split_ifs
  · exact Nat.le_refl _
  · exact Nat.le_max_left _ _

theorem size_write_le (file : ByteFile) (start count : Nat) (source : Buffer) :
    (file.write start count source).size ≤ max file.size (start + count) := by
  rw [write]
  split_ifs
  · exact Nat.le_max_left _ _
  · exact Nat.le_refl _

theorem le_size_write (file : ByteFile) (start : Nat) {count : Nat} (source : Buffer)
    (positive : 0 < count) : start + count ≤ (file.write start count source).size := by
  rw [size_write_pos _ _ _ positive]
  exact Nat.le_max_right _ _

theorem available_inside (file : ByteFile) {start count : Nat}
    (inside : start + count ≤ file.size) : file.available start count = count :=
  Nat.min_eq_left (by omega)

/-! ### Bytes -/

theorem byte_write (file : ByteFile) (start count : Nat) (source : Buffer) :
    (file.write start count source).byte = file.byte.blit start count source := rfl

theorem byte_truncate_below (file : ByteFile) {size index : Nat} (below : index < size) :
    (file.truncate size).byte index = file.byte index := if_pos below

/-- A fresh file extended to any length reads zero everywhere. -/
theorem byte_truncate_empty (size index : Nat) : (empty.truncate size).byte index = 0 :=
  ite_self 0

theorem write_zero_count (file : ByteFile) (start : Nat) (source : Buffer) :
    file.write start 0 source = file :=
  ext rfl fun index =>
    congrFun (Buffer.blit_zero_count file.byte source start) index

/-- Writing the two halves of a run one after the other writes the run. -/
theorem write_write_append (file : ByteFile) (start first second : Nat) (source : Buffer) :
    (file.write start first source).write (start + first) second
        (fun index => source (first + index)) =
      file.write start (first + second) source := by
  refine ext ?_ fun index => congrFun (Buffer.blit_blit_append file.byte source start first second)
    index
  simp only [write]
  split_ifs <;> omega

/-- A write depends on its source only inside the run. -/
theorem write_congr (file : ByteFile) (start count : Nat) {first second : Buffer}
    (agree : ∀ index, index < count → first index = second index) :
    file.write start count first = file.write start count second :=
  ext rfl fun index => congrFun (Buffer.blit_congr file.byte first second start count agree) index

end ByteFile
