/-
This file models the two transfer functions of `image_file.c`, the ones every
image volume has as its `read` and `write`: seek to the displaced position, then
ask the kernel again and again until the whole count has moved.

The kernel is a schedule: what it does with the first system call of the
transfer, with the second, and so on. A call may fail, and a call that succeeds
may move fewer bytes than asked. The counters are the source's own: `count` is a
`size_t`, but `res` and `done` are `int`s, and so is the variable that receives
the 64-bit offset `lseek` returns.

The two spec lemmas say what a transfer that ends has done under any schedule,
whole or cut short; the two steady lemmas say that it ends and is whole when
every call succeeds and makes progress.
-/

import Hdfmonkey.ByteFile
import Hdfmonkey.CInt

namespace Hdfmonkey

/-- What the kernel does with one system call: it fails, or it succeeds and, if it transfers
bytes, moves at most `limit` of them. -/
inductive SysResult where
  | fail
  | done (limit : Nat)
  deriving DecidableEq, Repr

/-- What the kernel does with the calls of one library function, in order. -/
abbrev Schedule := Nat → SysResult

/-- Every call succeeds and moves at least one byte. -/
def Schedule.Steady (sys : Schedule) : Prop := ∀ call, ∃ limit, sys call = .done (limit + 1)

/-- No call fails. -/
def Schedule.Succeeds (sys : Schedule) : Prop := ∀ call, sys call ≠ .fail

/-- Every call succeeds and moves `count` bytes if there are so many to move. -/
def Schedule.Moves (sys : Schedule) (count : Nat) : Prop :=
  ∀ call, ∃ limit, count ≤ limit ∧ sys call = .done limit

/-- The kernel that moves all it is asked for, up to a limit of its own. -/
def Schedule.kernel : Schedule := fun _ => .done 0x7ffff000

/-- An open file description: the file it refers to, and whether it may be written. -/
structure Fd where
  node : Nat
  writeable : Bool
  deriving DecidableEq, Repr

/-- A `volume_container` over an image file: the union member `data.file`, the sector size and
the sector count. Its `read`, `write` and `close` are always the functions below. -/
structure VolumeContainer where
  fd : Fd
  dataOffset : Nat
  bytesPerSector : Nat
  sectorCount : Nat
  deriving DecidableEq, Repr

/-- `lseek(fd, offset, SEEK_SET)`: the offset itself, or failure for a negative one. -/
def lseek (result : SysResult) (offset : Int) : Option Nat :=
  match result with
  | .fail => none
  | .done _ => if offset < 0 then none else some offset.toNat

/-- The loop of `image_file_read`. The result is the returned value and the buffer; there is
none while the loop is still running after `fuel` calls, nor when `done` has overflowed and
`buf + done` lies before the buffer. -/
def imageFileReadLoop (sys : Schedule) (file : ByteFile) :
    (fuel call offset : Nat) → Buffer → (done : Int) → (count : Nat) → Option (Int × Buffer)
  | 0, _, _, buf, done, count => if count = 0 then some (done, buf) else none
  | fuel + 1, call, offset, buf, done, count =>
    if count = 0 then some (done, buf)
    else if done < 0 then none
    else match sys call with
      | .fail => some (-1, buf)
      | .done limit =>
        let moved := min limit (file.available offset count)
        let res := int32 moved
        let filled := buf.blit done.toNat moved fun index => file.byte (offset + index)
        if res ≤ 0 then some (-1, filled)
        else imageFileReadLoop sys file fuel (call + 1) (offset + moved) filled
          (int32 (done + res)) (count - res.toNat)

/-- `image_file_read`. -/
def imageFileRead (sys : Schedule) (volume : VolumeContainer) (file : ByteFile) (position : Int)
    (buf : Buffer) (count : Nat) : Option (Int × Buffer) :=
  match lseek (sys 0) (position + volume.dataOffset) with
  | none => some (-1, buf)
  | some offset =>
    let res := int32 offset
    if res < 0 then some (res, buf)
    else imageFileReadLoop sys file count 1 offset buf 0 count

/-- The loop of `image_file_write`. Unlike the reading loop it does not stop at a call that
moves nothing, so it may run for ever. -/
def imageFileWriteLoop (sys : Schedule) (writeable : Bool) (buf : Buffer) :
    (fuel call offset : Nat) → ByteFile → (done : Int) → (count : Nat) → Option (Int × ByteFile)
  | 0, _, _, file, done, count => if count = 0 then some (done, file) else none
  | fuel + 1, call, offset, file, done, count =>
    if count = 0 then some (done, file)
    else if done < 0 then none
    else match sys call with
      | .fail => some (-1, file)
      | .done limit =>
        if writeable then
          let moved := min limit count
          let res := int32 moved
          let written := file.write offset moved fun index => buf (done.toNat + index)
          if res < 0 then some (-1, written)
          else imageFileWriteLoop sys writeable buf fuel (call + 1) (offset + moved) written
            (int32 (done + res)) (count - res.toNat)
        else some (-1, file)

/-- `image_file_write`, given up after `fuel` calls of `write`. -/
def imageFileWrite (fuel : Nat) (sys : Schedule) (volume : VolumeContainer) (file : ByteFile)
    (position : Int) (buf : Buffer) (count : Nat) : Option (Int × ByteFile) :=
  match lseek (sys 0) (position + volume.dataOffset) with
  | none => some (-1, file)
  | some offset =>
    let res := int32 offset
    if res < 0 then some (res, file)
    else imageFileWriteLoop sys volume.fd.writeable buf fuel 1 offset file 0 count

/-! ### What one call moves -/

theorem Schedule.kernel_moves {count : Nat} (small : count ≤ 0x7ffff000) :
    Schedule.kernel.Moves count := fun _ => ⟨_, small, rfl⟩

theorem Schedule.kernel_steady : Schedule.kernel.Steady := fun _ => ⟨0x7fffefff, rfl⟩

theorem Schedule.Steady.succeeds {sys : Schedule} (steady : sys.Steady) : sys.Succeeds := by
  intro call
  obtain ⟨limit, result⟩ := steady call
  simp [result]

theorem lseek_steady {sys : Schedule} (steady : sys.Steady) (call offset : Nat) :
    lseek (sys call) offset = some offset := by
  obtain ⟨limit, result⟩ := steady call
  simp only [lseek, result, if_neg (Int.not_lt.mpr (Int.natCast_nonneg offset)),
    Int.toNat_natCast]

/-- The number of bytes a call moves fits an `int` when the count does. -/
theorem int32_moved {moved count : Nat} (le : moved ≤ count) (small : count < 2 ^ 31) :
    int32 moved = moved :=
  int32_of_range (by omega) (by omega)

/-- The running total fits an `int` when the whole count does. -/
theorem int32_total {done moved count : Nat} (le : moved ≤ count)
    (small : done + count < 2 ^ 31) : int32 ((done : Int) + moved) = (done + moved : Nat) := by
  rw [int32_of_range] <;> omega

/-! ### The reading loop -/

/-- A reading loop that ends has read the whole run, or has returned `-1` and changed the
buffer inside the run only. -/
theorem imageFileReadLoop_spec (sys : Schedule) (file : ByteFile) (fuel : Nat) :
    ∀ (call offset : Nat) (buf : Buffer) (done count : Nat) (result : Int) (filled : Buffer),
      done + count < 2 ^ 31 →
      imageFileReadLoop sys file fuel call offset buf done count = some (result, filled) →
      (result = (done + count : Nat) ∧ (0 < count → offset + count ≤ file.size) ∧
          filled = buf.blit done count fun index => file.byte (offset + index)) ∨
        (result = -1 ∧ ∀ index, index < done ∨ done + count ≤ index →
          filled index = buf index) := by
  induction fuel with
  | zero =>
    intro call offset buf done count result filled small run
    rw [imageFileReadLoop] at run
    split_ifs at run with finished
    simp only [Option.some.injEq, Prod.mk.injEq] at run
    obtain ⟨rfl, rfl⟩ := run
    left
    subst finished
    exact ⟨rfl, fun positive => absurd positive (Nat.lt_irrefl 0),
      (Buffer.blit_zero_count _ _ _).symm⟩
  | succ fuel inductionHypothesis =>
    intro call offset buf done count result filled small run
    rw [imageFileReadLoop] at run
    split_ifs at run with finished
    · simp only [Option.some.injEq, Prod.mk.injEq] at run
      obtain ⟨rfl, rfl⟩ := run
      left
      subst finished
      exact ⟨rfl, fun positive => absurd positive (Nat.lt_irrefl 0),
        (Buffer.blit_zero_count _ _ _).symm⟩
    · cases outcome : sys call with
      | fail =>
        simp only [outcome, Option.some.injEq, Prod.mk.injEq] at run
        obtain ⟨rfl, rfl⟩ := run
        exact Or.inr ⟨rfl, fun _ _ => rfl⟩
      | done limit =>
        simp only [outcome] at run
        generalize movedIs : min limit (file.available offset count) = moved at run
        have movedLe : moved ≤ count := by
          rw [← movedIs]
          exact Nat.le_trans (Nat.min_le_right _ _) (Nat.min_le_left _ _)
        have movedInside : moved ≤ file.size - offset := by
          rw [← movedIs]
          exact Nat.le_trans (Nat.min_le_right _ _) (Nat.min_le_right _ _)
        rw [int32_moved movedLe (by omega)] at run
        split_ifs at run with stopped
        · simp only [Option.some.injEq, Prod.mk.injEq] at run
          obtain ⟨rfl, rfl⟩ := run
          obtain rfl : moved = 0 := by omega
          rw [Buffer.blit_zero_count]
          exact Or.inr ⟨rfl, fun _ _ => rfl⟩
        · rw [int32_total movedLe small, Int.toNat_natCast] at run
          have next := inductionHypothesis _ _ _ (done + moved) (count - moved) _ _ (by omega) run
          rcases next with ⟨rfl, inside, rfl⟩ | ⟨rfl, outside⟩
          · left
            refine ⟨by omega, fun _ => ?_, ?_⟩
            · by_cases rest : count = moved
              · omega
              · have := inside (by omega)
                omega
            · have joined := Buffer.blit_blit_append buf (fun index => file.byte (offset + index))
                done moved (count - moved)
              rw [Nat.add_sub_cancel' movedLe] at joined
              rw [← joined]
              simp only [Nat.add_assoc]
          · right
            refine ⟨rfl, fun index away => ?_⟩
            rw [outside index (by omega)]
            rcases away with below | above
            · exact Buffer.blit_below _ _ _ _ below
            · exact Buffer.blit_above _ _ _ _ (by omega)

/-- The reading loop returns an `int`. -/
theorem imageFileReadLoop_lt (sys : Schedule) (file : ByteFile) (fuel : Nat) :
    ∀ (call offset : Nat) (buf : Buffer) (done : Int) (count : Nat) (result : Int)
      (filled : Buffer), done < 2 ^ 31 →
      imageFileReadLoop sys file fuel call offset buf done count = some (result, filled) →
      result < 2 ^ 31 := by
  induction fuel with
  | zero =>
    intro call offset buf done count result filled small run
    rw [imageFileReadLoop] at run
    split_ifs at run with finished
    simp only [Option.some.injEq, Prod.mk.injEq] at run
    omega
  | succ fuel inductionHypothesis =>
    intro call offset buf done count result filled small run
    rw [imageFileReadLoop] at run
    split_ifs at run with finished
    · simp only [Option.some.injEq, Prod.mk.injEq] at run
      omega
    · cases outcome : sys call with
      | fail =>
        simp only [outcome, Option.some.injEq, Prod.mk.injEq] at run
        omega
      | done limit =>
        simp only [outcome] at run
        split_ifs at run with stopped
        · simp only [Option.some.injEq, Prod.mk.injEq] at run
          omega
        · exact inductionHypothesis _ _ _ _ _ _ _ (int32_lt _) run

/-- When every call makes progress and the run lies inside the file, the reading loop ends with
the whole run. -/
theorem imageFileReadLoop_steady {sys : Schedule} (steady : sys.Steady) (file : ByteFile)
    (fuel : Nat) :
    ∀ (call offset : Nat) (buf : Buffer) (done count : Nat), done + count < 2 ^ 31 →
      offset + count ≤ file.size → count ≤ fuel →
      imageFileReadLoop sys file fuel call offset buf done count =
        some (((done + count : Nat) : Int),
          buf.blit done count fun index => file.byte (offset + index)) := by
  induction fuel with
  | zero =>
    intro call offset buf done count small inside enough
    obtain rfl : count = 0 := by omega
    rw [imageFileReadLoop, if_pos rfl, Buffer.blit_zero_count]
    rfl
  | succ fuel inductionHypothesis =>
    intro call offset buf done count small inside enough
    rw [imageFileReadLoop]
    split_ifs with finished overflow
    · subst finished
      rw [Buffer.blit_zero_count]
      rfl
    · exact absurd overflow (Int.not_lt.mpr (Int.natCast_nonneg done))
    · obtain ⟨limit, result⟩ := steady call
      rw [file.available_inside inside]
      simp only [result]
      generalize movedIs : min (limit + 1) count = moved
      have movedLe : moved ≤ count := by omega
      have progress : 0 < moved := by omega
      rw [int32_moved movedLe (by omega), if_neg (by omega), int32_total movedLe small,
        Int.toNat_natCast, Int.toNat_natCast,
        inductionHypothesis _ _ _ _ _ (by omega) (by omega) (by omega)]
      have joined := Buffer.blit_blit_append buf (fun index => file.byte (offset + index))
        done moved (count - moved)
      rw [Nat.add_sub_cancel' movedLe] at joined
      rw [← joined]
      simp only [Nat.add_assoc, Nat.add_sub_cancel' movedLe]

/-! ### The writing loop -/

/-- A writing loop that ends has written the whole run, or has returned `-1` after writing an
initial part of it. -/
theorem imageFileWriteLoop_spec (sys : Schedule) (writeable : Bool) (buf : Buffer) (fuel : Nat) :
    ∀ (call offset : Nat) (file : ByteFile) (done count : Nat) (result : Int)
      (written : ByteFile), done + count < 2 ^ 31 →
      imageFileWriteLoop sys writeable buf fuel call offset file done count =
        some (result, written) →
      (result = (done + count : Nat) ∧ (0 < count → writeable = true) ∧
          written = file.write offset count fun index => buf (done + index)) ∨
        (result = -1 ∧ ∃ part ≤ count,
          written = file.write offset part fun index => buf (done + index)) := by
  induction fuel with
  | zero =>
    intro call offset file done count result written small run
    rw [imageFileWriteLoop] at run
    split_ifs at run with finished
    simp only [Option.some.injEq, Prod.mk.injEq] at run
    obtain ⟨rfl, rfl⟩ := run
    left
    subst finished
    exact ⟨rfl, fun positive => absurd positive (Nat.lt_irrefl 0),
      (ByteFile.write_zero_count _ _ _).symm⟩
  | succ fuel inductionHypothesis =>
    intro call offset file done count result written small run
    rw [imageFileWriteLoop] at run
    by_cases finished : count = 0
    · rw [if_pos finished] at run
      simp only [Option.some.injEq, Prod.mk.injEq] at run
      obtain ⟨rfl, rfl⟩ := run
      left
      subst finished
      exact ⟨rfl, fun positive => absurd positive (Nat.lt_irrefl 0),
        (ByteFile.write_zero_count _ _ _).symm⟩
    · rw [if_neg finished, if_neg (Int.not_lt.mpr (Int.natCast_nonneg done))] at run
      have unchanged : file = file.write offset 0 fun index => buf (done + index) :=
        (ByteFile.write_zero_count _ _ _).symm
      cases outcome : sys call with
      | fail =>
        simp only [outcome, Option.some.injEq, Prod.mk.injEq] at run
        obtain ⟨rfl, rfl⟩ := run
        exact Or.inr ⟨rfl, 0, Nat.zero_le _, unchanged⟩
      | done limit =>
        cases writeable with
        | false =>
          simp only [outcome, Bool.false_eq_true, if_false, Option.some.injEq,
            Prod.mk.injEq] at run
          obtain ⟨rfl, rfl⟩ := run
          exact Or.inr ⟨rfl, 0, Nat.zero_le _, unchanged⟩
        | true =>
          simp only [outcome, if_true, Int.toNat_natCast] at run
          generalize movedIs : min limit count = moved at run
          have movedLe : moved ≤ count := by omega
          rw [int32_moved movedLe (by omega), if_neg (by omega), int32_total movedLe small,
            Int.toNat_natCast] at run
          have joined (rest : Nat) := ByteFile.write_write_append file offset moved rest
            fun index => buf (done + index)
          have next := inductionHypothesis _ _ _ (done + moved) (count - moved) _ _ (by omega) run
          rcases next with ⟨rfl, _, rfl⟩ | ⟨rfl, part, partLe, rfl⟩
          · left
            refine ⟨by omega, fun _ => rfl, ?_⟩
            have whole := joined (count - moved)
            rw [Nat.add_sub_cancel' movedLe] at whole
            rw [← whole]
            simp only [Nat.add_assoc]
          · right
            refine ⟨rfl, moved + part, by omega, ?_⟩
            rw [← joined part]
            simp only [Nat.add_assoc]

/-- Through a descriptor that may not be written the loop stores nothing. -/
theorem imageFileWriteLoop_readOnly (sys : Schedule) (buf : Buffer) (fuel call offset : Nat)
    {file written : ByteFile} {done result : Int} {count : Nat}
    (run : imageFileWriteLoop sys false buf fuel call offset file done count =
      some (result, written)) : written = file := by
  cases fuel with
  | zero =>
    rw [imageFileWriteLoop] at run
    split_ifs at run with finished
    exact (Prod.mk.inj (Option.some.inj run)).2.symm
  | succ fuel =>
    rw [imageFileWriteLoop] at run
    by_cases finished : count = 0
    · rw [if_pos finished] at run
      exact (Prod.mk.inj (Option.some.inj run)).2.symm
    · rw [if_neg finished] at run
      by_cases overflow : done < 0
      · exact absurd ((if_pos overflow).symm.trans run) (by simp)
      · rw [if_neg overflow] at run
        cases outcome : sys call with
        | fail =>
          simp only [outcome] at run
          exact (Prod.mk.inj (Option.some.inj run)).2.symm
        | done limit =>
          simp only [outcome, Bool.false_eq_true, if_false] at run
          exact (Prod.mk.inj (Option.some.inj run)).2.symm

/-- A writing loop that ends and sees no call fail has written the whole run. -/
theorem imageFileWriteLoop_succeeds {sys : Schedule} (succeeds : sys.Succeeds) (buf : Buffer)
    (fuel : Nat) :
    ∀ (call offset : Nat) (file : ByteFile) (done count : Nat) (result : Int)
      (written : ByteFile), done + count < 2 ^ 31 →
      imageFileWriteLoop sys true buf fuel call offset file done count =
        some (result, written) →
      result = (done + count : Nat) := by
  induction fuel with
  | zero =>
    intro call offset file done count result written small run
    rw [imageFileWriteLoop] at run
    split_ifs at run with finished
    simp only [Option.some.injEq, Prod.mk.injEq] at run
    omega
  | succ fuel inductionHypothesis =>
    intro call offset file done count result written small run
    rw [imageFileWriteLoop] at run
    by_cases finished : count = 0
    · rw [if_pos finished] at run
      simp only [Option.some.injEq, Prod.mk.injEq] at run
      omega
    · rw [if_neg finished, if_neg (Int.not_lt.mpr (Int.natCast_nonneg done))] at run
      cases outcome : sys call with
      | fail => exact absurd outcome (succeeds call)
      | done limit =>
        simp only [outcome, if_true] at run
        generalize movedIs : min limit count = moved at run
        have movedLe : moved ≤ count := by omega
        rw [int32_moved movedLe (by omega), if_neg (by omega), int32_total movedLe small,
          Int.toNat_natCast] at run
        have next := inductionHypothesis _ _ _ (done + moved) (count - moved) _ _ (by omega) run
        omega

/-- When every call makes progress, the writing loop ends with the whole run written. -/
theorem imageFileWriteLoop_steady {sys : Schedule} (steady : sys.Steady) (buf : Buffer)
    (fuel : Nat) :
    ∀ (call offset : Nat) (file : ByteFile) (done count : Nat), done + count < 2 ^ 31 →
      count ≤ fuel →
      imageFileWriteLoop sys true buf fuel call offset file done count =
        some (((done + count : Nat) : Int),
          file.write offset count fun index => buf (done + index)) := by
  induction fuel with
  | zero =>
    intro call offset file done count small enough
    obtain rfl : count = 0 := by omega
    rw [imageFileWriteLoop, if_pos rfl, ByteFile.write_zero_count]
    rfl
  | succ fuel inductionHypothesis =>
    intro call offset file done count small enough
    rw [imageFileWriteLoop]
    by_cases finished : count = 0
    · subst finished
      rw [if_pos rfl, ByteFile.write_zero_count]
      rfl
    · rw [if_neg finished, if_neg (Int.not_lt.mpr (Int.natCast_nonneg done))]
      obtain ⟨limit, result⟩ := steady call
      simp only [result, if_true, Int.toNat_natCast]
      generalize movedIs : min (limit + 1) count = moved
      have movedLe : moved ≤ count := by omega
      have progress : 0 < moved := by omega
      rw [int32_moved movedLe (by omega), if_neg (by omega), int32_total movedLe small,
        Int.toNat_natCast, inductionHypothesis _ _ _ _ _ (by omega) (by omega)]
      have joined := ByteFile.write_write_append file offset moved (count - moved)
        fun index => buf (done + index)
      rw [Nat.add_sub_cancel' movedLe] at joined
      rw [← joined]
      simp only [Nat.add_assoc, Nat.add_sub_cancel' movedLe]

/-! ### Whole transfers -/

section Whole

variable {sys : Schedule} {volume : VolumeContainer} {file : ByteFile} {position count : Nat}

/-- A read that ends has delivered the whole run, or it has returned a negative value and
changed nothing past the run. -/
theorem imageFileRead_spec {buf filled : Buffer} {result : Int} (small : count < 2 ^ 31)
    (run : imageFileRead sys volume file position buf count = some (result, filled)) :
    (result = count ∧ (position + volume.dataOffset) % 2 ^ 32 < 2 ^ 31 ∧
        (0 < count → position + volume.dataOffset + count ≤ file.size) ∧
        filled = buf.blit 0 count fun index =>
          file.byte (position + volume.dataOffset + index)) ∨
      (result < 0 ∧ ∀ index, count ≤ index → filled index = buf index) := by
  rw [imageFileRead] at run
  cases outcome : sys 0 with
  | fail =>
    simp only [lseek, outcome, Option.some.injEq, Prod.mk.injEq] at run
    obtain ⟨rfl, rfl⟩ := run
    exact Or.inr ⟨by decide, fun _ _ => rfl⟩
  | done limit =>
    have sum : (position : Int) + volume.dataOffset = (position + volume.dataOffset : Nat) := by
      omega
    simp only [lseek, outcome, sum, if_neg (Int.not_lt.mpr (Int.natCast_nonneg _)),
      Int.toNat_natCast] at run
    split_ifs at run with negative
    · simp only [Option.some.injEq, Prod.mk.injEq] at run
      obtain ⟨rfl, rfl⟩ := run
      exact Or.inr ⟨negative, fun _ _ => rfl⟩
    · have clear := (int32_natCast_nonneg _).mp (Int.not_lt.mp negative)
      have ended := imageFileReadLoop_spec sys file count 1 _ buf 0 count result filled
        (by omega) run
      rw [Nat.zero_add] at ended
      rcases ended with ⟨whole, inside, bytes⟩ | ⟨rfl, outside⟩
      · exact Or.inl ⟨whole, clear, inside, bytes⟩
      · exact Or.inr ⟨by decide, fun index above => outside index (Or.inr above)⟩

/-- A read, at any position, leaves the buffer behind the run as it was. -/
theorem imageFileRead_behind {place : Int} {buf filled : Buffer} {result : Int}
    (small : count < 2 ^ 31)
    (run : imageFileRead sys volume file place buf count = some (result, filled)) (index : Nat)
    (behind : count ≤ index) : filled index = buf index := by
  rw [imageFileRead] at run
  split at run
  · simp only [Option.some.injEq, Prod.mk.injEq] at run
    rw [run.2]
  · rename_i offset seek
    dsimp only at run
    split_ifs at run with negative
    · simp only [Option.some.injEq, Prod.mk.injEq] at run
      rw [run.2]
    · have ended := imageFileReadLoop_spec sys file count 1 offset buf 0 count result filled
        (by omega) run
      rw [Nat.zero_add] at ended
      rcases ended with ⟨_, _, rfl⟩ | ⟨_, outside⟩
      · exact Buffer.blit_above _ _ _ _ (by omega)
      · exact outside index (Or.inr behind)

/-- A read returns an `int`. -/
theorem imageFileRead_lt {buf filled : Buffer} {result : Int}
    (run : imageFileRead sys volume file position buf count = some (result, filled)) :
    result < 2 ^ 31 := by
  rw [imageFileRead] at run
  split at run
  · simp only [Option.some.injEq, Prod.mk.injEq] at run
    omega
  · dsimp only at run
    split_ifs at run with negative
    · simp only [Option.some.injEq, Prod.mk.injEq] at run
      omega
    · exact imageFileReadLoop_lt _ _ _ _ _ _ _ _ _ _ (by decide) run

/-- A write that ends has stored the whole run, or it has returned a negative value after
storing an initial part of it. -/
theorem imageFileWrite_spec {fuel : Nat} {buf : Buffer} {written : ByteFile} {result : Int}
    (small : count < 2 ^ 31)
    (run : imageFileWrite fuel sys volume file position buf count = some (result, written)) :
    (result = count ∧ (position + volume.dataOffset) % 2 ^ 32 < 2 ^ 31 ∧
        (0 < count → volume.fd.writeable = true) ∧
        written = file.write (position + volume.dataOffset) count buf) ∨
      (result < 0 ∧ ∃ part ≤ count,
        written = file.write (position + volume.dataOffset) part buf) := by
  rw [imageFileWrite] at run
  have nothing : file = file.write (position + volume.dataOffset) 0 buf :=
    (ByteFile.write_zero_count _ _ _).symm
  cases outcome : sys 0 with
  | fail =>
    simp only [lseek, outcome, Option.some.injEq, Prod.mk.injEq] at run
    obtain ⟨rfl, rfl⟩ := run
    exact Or.inr ⟨by decide, 0, Nat.zero_le _, nothing⟩
  | done limit =>
    have sum : (position : Int) + volume.dataOffset = (position + volume.dataOffset : Nat) := by
      omega
    simp only [lseek, outcome, sum, if_neg (Int.not_lt.mpr (Int.natCast_nonneg _)),
      Int.toNat_natCast] at run
    split_ifs at run with negative
    · simp only [Option.some.injEq, Prod.mk.injEq] at run
      obtain ⟨rfl, rfl⟩ := run
      exact Or.inr ⟨negative, 0, Nat.zero_le _, nothing⟩
    · have clear := (int32_natCast_nonneg _).mp (Int.not_lt.mp negative)
      have ended := imageFileWriteLoop_spec sys _ buf fuel 1 _ file 0 count result written
        (by omega) run
      simp only [Nat.zero_add] at ended
      rcases ended with ⟨whole, mode, bytes⟩ | ⟨rfl, part⟩
      · exact Or.inl ⟨whole, clear, mode, bytes⟩
      · exact Or.inr ⟨by decide, part⟩

/-- A write through a descriptor that may not be written stores nothing, wherever it is meant to
go. -/
theorem imageFileWrite_readOnly {fuel : Nat} {place : Int} {buf : Buffer} {written : ByteFile}
    {result : Int} (mode : volume.fd.writeable = false)
    (run : imageFileWrite fuel sys volume file place buf count = some (result, written)) :
    written = file := by
  rw [imageFileWrite, mode] at run
  cases sought : lseek (sys 0) (place + volume.dataOffset) with
  | none =>
    simp only [sought] at run
    exact (Prod.mk.inj (Option.some.inj run)).2.symm
  | some offset =>
    simp only [sought] at run
    split_ifs at run
    · exact (Prod.mk.inj (Option.some.inj run)).2.symm
    · exact imageFileWriteLoop_readOnly _ _ _ _ _ run

/-- A write through a descriptor that may not be written, or at an offset that looks like a failed
seek, stores nothing. -/
theorem imageFileWrite_refused {fuel : Nat} {buf : Buffer} {written : ByteFile} {result : Int}
    (refused : volume.fd.writeable = true → 2 ^ 31 ≤ (position + volume.dataOffset) % 2 ^ 32)
    (run : imageFileWrite fuel sys volume file position buf count = some (result, written)) :
    written = file := by
  have sum : (position : Int) + volume.dataOffset = (position + volume.dataOffset : Nat) := by
    omega
  rw [imageFileWrite, sum] at run
  cases outcome : sys 0 with
  | fail =>
    simp only [lseek, outcome] at run
    exact (Prod.mk.inj (Option.some.inj run)).2.symm
  | done limit =>
    simp only [lseek, outcome, if_neg (Int.not_lt.mpr (Int.natCast_nonneg _)),
      Int.toNat_natCast] at run
    split_ifs at run with negative
    · exact (Prod.mk.inj (Option.some.inj run)).2.symm
    · cases mode : volume.fd.writeable with
      | true => exact absurd ((int32_natCast_neg _).mpr (refused mode)) negative
      | false =>
        rw [mode] at run
        exact imageFileWriteLoop_readOnly _ _ _ _ _ run

/-- A write that ends and sees no call fail has stored the whole run, or its offset looked like a
failed seek and it has stored nothing. -/
theorem imageFileWrite_whole {fuel : Nat} {buf : Buffer} {written : ByteFile} {result : Int}
    (succeeds : sys.Succeeds) (mode : volume.fd.writeable = true) (small : count < 2 ^ 31)
    (run : imageFileWrite fuel sys volume file position buf count = some (result, written)) :
    (result = count ∧ written = file.write (position + volume.dataOffset) count buf) ∨
      (result < 0 ∧ written = file) := by
  have sum : (position : Int) + volume.dataOffset = (position + volume.dataOffset : Nat) := by
    omega
  have ended := imageFileWrite_spec small run
  rw [imageFileWrite, sum] at run
  cases outcome : sys 0 with
  | fail => exact absurd outcome (succeeds 0)
  | done limit =>
    simp only [lseek, outcome, if_neg (Int.not_lt.mpr (Int.natCast_nonneg _)),
      Int.toNat_natCast] at run
    split_ifs at run with negative
    · simp only [Option.some.injEq, Prod.mk.injEq] at run
      obtain ⟨rfl, rfl⟩ := run
      exact Or.inr ⟨negative, rfl⟩
    · rw [mode] at run
      have whole := imageFileWriteLoop_succeeds succeeds buf fuel 1 _ file 0 count result written
        (by omega) run
      rcases ended with ⟨result, _, _, bytes⟩ | ⟨negative, _⟩
      · exact Or.inl ⟨result, bytes⟩
      · omega

/-- With a steady kernel, a read of a run inside the file delivers it, provided that bit 31 of
its offset is clear. -/
theorem imageFileRead_steady (steady : sys.Steady) (buf : Buffer) (small : count < 2 ^ 31)
    (clear : (position + volume.dataOffset) % 2 ^ 32 < 2 ^ 31)
    (inside : position + volume.dataOffset + count ≤ file.size) :
    imageFileRead sys volume file position buf count =
      some ((count : Int), buf.blit 0 count fun index =>
        file.byte (position + volume.dataOffset + index)) := by
  have sum : (position : Int) + volume.dataOffset = (position + volume.dataOffset : Nat) := by
    omega
  have ended := imageFileReadLoop_steady steady file count 1 (position + volume.dataOffset) buf 0
    count (by omega) inside (Nat.le_refl _)
  rw [Nat.zero_add] at ended
  rw [imageFileRead, sum, lseek_steady steady]
  simp only [if_neg (Int.not_lt.mpr ((int32_natCast_nonneg _).mpr clear))]
  exact ended

/-- With a steady kernel, a write through a writeable descriptor stores the whole run, provided
that bit 31 of its offset is clear. -/
theorem imageFileWrite_steady {fuel : Nat} (steady : sys.Steady) (buf : Buffer)
    (small : count < 2 ^ 31) (enough : count ≤ fuel) (mode : volume.fd.writeable = true)
    (clear : (position + volume.dataOffset) % 2 ^ 32 < 2 ^ 31) :
    imageFileWrite fuel sys volume file position buf count =
      some ((count : Int), file.write (position + volume.dataOffset) count buf) := by
  have sum : (position : Int) + volume.dataOffset = (position + volume.dataOffset : Nat) := by
    omega
  have ended := imageFileWriteLoop_steady steady buf fuel 1 (position + volume.dataOffset) file 0
    count (by omega) enough
  simp only [Nat.zero_add] at ended
  rw [imageFileWrite, sum, lseek_steady steady]
  simp only [if_neg (Int.not_lt.mpr ((int32_natCast_nonneg _).mpr clear)), mode]
  exact ended

/-- At an offset whose bit 31 is set a read returns the truncated offset, a negative number, and
reads nothing. -/
theorem imageFileRead_truncated (steady : sys.Steady) (buf : Buffer)
    (set : 2 ^ 31 ≤ (position + volume.dataOffset) % 2 ^ 32) :
    imageFileRead sys volume file position buf count =
      some (int32 (position + volume.dataOffset : Nat), buf) := by
  have sum : (position : Int) + volume.dataOffset = (position + volume.dataOffset : Nat) := by
    omega
  rw [imageFileRead, sum, lseek_steady steady]
  simp only [if_pos ((int32_natCast_neg _).mpr set)]

/-- At an offset whose bit 31 is set a write returns the truncated offset and writes nothing. -/
theorem imageFileWrite_truncated {fuel : Nat} (steady : sys.Steady) (buf : Buffer)
    (set : 2 ^ 31 ≤ (position + volume.dataOffset) % 2 ^ 32) :
    imageFileWrite fuel sys volume file position buf count =
      some (int32 (position + volume.dataOffset : Nat), file) := by
  have sum : (position : Int) + volume.dataOffset = (position + volume.dataOffset : Nat) := by
    omega
  rw [imageFileWrite, sum, lseek_steady steady]
  simp only [if_pos ((int32_natCast_neg _).mpr set)]

end Whole

end Hdfmonkey
