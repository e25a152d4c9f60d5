/-
This file asks whether the three loops that move bytes to or from an image file
are exact when the kernel moves less than it is asked for: `image_file_read`,
`image_file_write` and the loop of `hdf_write_header`.

A call that is asked for some bytes returns `-1` or any number from zero to what
it was asked for. The reading loop takes a zero for a failure, so it stops after
at most as many calls as there are bytes. The two writing loops do not: a call
that moves nothing costs a turn and changes nothing, so they are exact only when
the calls keep up with the count, and run on when they do not.
-/

import Hdfmonkey.HdfHeader

namespace Hdfmonkey

/-- What the call returns if there are at most `most` bytes for it to move. -/
def SysResult.res (result : SysResult) (most : Nat) : Int :=
  match result with
  | .fail => -1
  | .done limit => (min limit most : Nat)

/-- The bytes the call may move. -/
def SysResult.limit : SysResult → Nat
  | .fail => 0
  | .done limit => limit

/-- The results of the calls of a loop that has `left` bytes to move from an offset on, each call
asked for what the ones before it have left, up to the first result the loop stops at. -/
def callResults (sys : Schedule) (most : Nat → Nat → Nat) (stops : Int → Bool) :
    (fuel call offset left : Nat) → List Int
  | 0, _, _, _ => []
  | fuel + 1, call, offset, left =>
    if left = 0 then []
    else
      let res := (sys call).res (most offset left)
      if stops res then [res]
      else res :: callResults sys most stops fuel (call + 1) (offset + res.toNat)
        (left - res.toNat)

/-- The results a reading loop sees: a call finds what the file has, and the loop stops at the
first that is not positive. -/
def readResults (sys : Schedule) (file : ByteFile) : (fuel call offset left : Nat) → List Int :=
  callResults sys file.available (· ≤ 0)

/-- The results a writing loop sees: it stops at the first that is negative. -/
def writeResults (sys : Schedule) : (fuel call offset left : Nat) → List Int :=
  callResults sys (fun _ left => left) (· < 0)

/-- What the kernel answers to writes through a descriptor. -/
def Fd.answers (fd : Fd) (sys : Schedule) : Schedule := if fd.writeable then sys else fun _ => .fail

/-- A transfer that made these calls has stopped: with success and the whole run moved if the
results add up to the count, with a negative value if they do not. -/
def Exact {After : Type} (count : Nat) (results : List Int) (success : Int) (whole : After)
    (outcome : Option (Int × After)) : Prop :=
  ∃ result after, outcome = some (result, after) ∧
    (results.sum = count ∧ result = success ∧ after = whole ∨ results.sum ≠ count ∧ result < 0)

/-- Among so many calls one fails, or together they move the count. -/
def Schedule.KeepsUp (sys : Schedule) (call calls count : Nat) : Prop :=
  (∃ turn ∈ List.range' call calls, sys turn = .fail) ∨
    count ≤ ((List.range' call calls).map fun turn => (sys turn).limit).sum

/-! ### The loops -/

theorem not_exact_none {After : Type} {count : Nat} {results : List Int} {success : Int}
    {whole : After} : ¬Exact count results success whole none := by
  rintro ⟨_, _, run, _⟩
  cases run

theorem exact_some {After : Type} {count : Nat} {results : List Int} {success res : Int}
    {whole after : After} : Exact count results success whole (some (res, after)) ↔
      results.sum = count ∧ res = success ∧ after = whole ∨ results.sum ≠ count ∧ res < 0 := by
  constructor
  · rintro ⟨_, _, run, judged⟩
    obtain ⟨rfl, rfl⟩ := Prod.mk.inj (Option.some.inj run)
    exact judged
  · exact fun judged => ⟨res, after, rfl, judged⟩

/-- What a call has moved need not be moved by the calls after it. -/
theorem exact_cons {After : Type} {count moved : Nat} {results : List Int} {success : Int}
    {whole : After} {outcome : Option (Int × After)} (movedLe : moved ≤ count) :
    Exact count (moved :: results) success whole outcome ↔
      Exact (count - moved) results success whole outcome := by
  have total : ((moved :: results : List Int).sum = count) =
      (results.sum = ((count - moved : Nat) : Int)) := by
    rw [List.sum_cons]
    exact propext ⟨fun sum => by omega, fun sum => by omega⟩
  simp only [Exact, ne_eq, total]

/-- The reading loop is exact under every schedule, after at most `count` calls. -/
theorem imageFileReadLoop_exact (sys : Schedule) (file : ByteFile) (fuel : Nat) :
    ∀ (call offset : Nat) (buf : Buffer) (done count : Nat), done + count < 2 ^ 31 →
      count ≤ fuel →
      Exact count (readResults sys file fuel call offset count) (done + count : Nat)
        (buf.blit done count fun index => file.byte (offset + index))
        (imageFileReadLoop sys file fuel call offset buf done count) := by
  induction fuel with
  | zero =>
    intro call offset buf done count small enough
    obtain rfl := Nat.le_zero.mp enough
    exact ⟨_, _, rfl, .inl ⟨rfl, rfl, (Buffer.blit_zero_count _ _ _).symm⟩⟩
  | succ fuel inductionHypothesis =>
    intro call offset buf done count small enough
    rw [readResults, callResults, imageFileReadLoop]
    split_ifs with finished overflow
    · subst finished
      exact ⟨_, _, rfl, .inl ⟨rfl, rfl, (Buffer.blit_zero_count _ _ _).symm⟩⟩
    · exact absurd overflow (Int.not_lt.mpr (Int.natCast_nonneg done))
    · cases sys call with
      | fail =>
        exact ⟨-1, buf, rfl, .inr ⟨show (-1 + 0 : Int) ≠ count by omega, by decide⟩⟩
      | done limit =>
        dsimp only [SysResult.res]
        generalize movedIs : min limit (file.available offset count) = moved
        have movedLe : moved ≤ count := by
          rw [← movedIs]
          exact Nat.le_trans (Nat.min_le_right _ _) (Nat.min_le_left _ _)
        rw [int32_moved movedLe (by omega), int32_total movedLe small, Int.toNat_natCast,
          Int.toNat_natCast]
        by_cases stopped : (moved : Int) ≤ 0
        · rw [if_pos stopped, if_pos (decide_eq_true stopped)]
          exact ⟨-1, _, rfl, .inr ⟨show (moved + 0 : Int) ≠ count by omega, by decide⟩⟩
        · rw [if_neg stopped, if_neg (by simpa using stopped)]
          have joined := Buffer.blit_blit_append buf (fun index => file.byte (offset + index))
            done moved (count - moved)
          rw [Nat.add_sub_cancel' movedLe] at joined
          rw [exact_cons movedLe, ← joined, show done + count =
            done + moved + (count - moved) by omega]
          have rest := inductionHypothesis (call + 1) (offset + moved)
            (buf.blit done moved fun index => file.byte (offset + index)) (done + moved)
            (count - moved) (by omega) (by omega)
          simpa only [Nat.add_assoc, readResults] using rest

theorem Schedule.keepsUp_zero {sys : Schedule} {call count : Nat} :
    sys.KeepsUp call 0 count ↔ count = 0 := by
  simp [Schedule.KeepsUp]

theorem Schedule.keepsUp_fail {sys : Schedule} {call calls count : Nat}
    (failed : sys call = .fail) : sys.KeepsUp call (calls + 1) count :=
  .inl ⟨call, by simp [List.range'_succ], failed⟩

theorem Schedule.keepsUp_done {sys : Schedule} {call calls count limit : Nat}
    (outcome : sys call = .done limit) : sys.KeepsUp call (calls + 1) count ↔
      sys.KeepsUp (call + 1) calls (count - min limit count) := by
  have later : (∃ turn ∈ List.range' call (calls + 1), sys turn = .fail) ↔
      ∃ turn ∈ List.range' (call + 1) calls, sys turn = .fail := by
    simp only [List.range'_succ, List.mem_cons, exists_eq_or_imp, outcome, reduceCtorEq, false_or]
  rw [Schedule.KeepsUp, Schedule.KeepsUp, later, List.range'_succ, List.map_cons, List.sum_cons,
    outcome]
  refine or_congr Iff.rfl ?_
  rw [SysResult.limit]
  omega

/-- The writing loop is exact after a number of calls if and only if these keep up with the
count. -/
theorem imageFileWriteLoop_exact (sys : Schedule) (buf : Buffer) (fuel : Nat) :
    ∀ (call offset : Nat) (file : ByteFile) (done count : Nat), done + count < 2 ^ 31 →
      (Exact count (writeResults sys fuel call offset count) (done + count : Nat)
          (file.write offset count fun index => buf (done + index))
          (imageFileWriteLoop sys true buf fuel call offset file done count) ↔
        sys.KeepsUp call fuel count) := by
  induction fuel with
  | zero =>
    intro call offset file done count small
    rw [Schedule.keepsUp_zero, imageFileWriteLoop]
    by_cases finished : count = 0
    · subst finished
      exact iff_of_true
        ⟨_, _, rfl, .inl ⟨rfl, rfl, (ByteFile.write_zero_count _ _ _).symm⟩⟩ rfl
    · rw [if_neg finished]
      refine iff_of_false ?_ finished
      rintro ⟨_, _, run, _⟩
      exact absurd run (by simp)
  | succ fuel inductionHypothesis =>
    intro call offset file done count small
    rw [writeResults, callResults, imageFileWriteLoop]
    by_cases finished : count = 0
    · subst finished
      exact iff_of_true
        ⟨_, _, rfl, .inl ⟨rfl, rfl, (ByteFile.write_zero_count _ _ _).symm⟩⟩ (.inr (Nat.zero_le _))
    · rw [if_neg finished, if_neg finished, if_neg (Int.not_lt.mpr (Int.natCast_nonneg done))]
      cases outcome : sys call with
      | fail =>
        exact iff_of_true
          ⟨-1, file, rfl, .inr ⟨show (-1 + 0 : Int) ≠ count by omega, by decide⟩⟩
          (Schedule.keepsUp_fail outcome)
      | done limit =>
        dsimp only [SysResult.res]
        rw [Schedule.keepsUp_done outcome]
        generalize movedIs : min limit count = moved
        have movedLe : moved ≤ count := movedIs ▸ Nat.min_le_right _ _
        rw [int32_moved movedLe (by omega), int32_total movedLe small, Int.toNat_natCast,
          Int.toNat_natCast, if_neg (by simp),
          if_neg (show ¬(moved : Int) < 0 by omega), exact_cons movedLe]
        have joined := ByteFile.write_write_append file offset moved (count - moved)
          fun index => buf (done + index)
        rw [Nat.add_sub_cancel' movedLe] at joined
        rw [← joined, show done + count = done + moved + (count - moved) by omega]
        have rest := inductionHypothesis (call + 1) (offset + moved)
          (file.write offset moved fun index => buf (done + index)) (done + moved) (count - moved)
          (by omega)
        simpa only [Nat.add_assoc, writeResults, if_true] using rest

/-! ### The functions -/

/-- The offset from which a transfer runs, if `lseek` gives one that the `int` it is kept in
shows as valid. -/
def seeks (sys : Schedule) (volume : VolumeContainer) (position : Int) : Option Nat :=
  (lseek (sys 0) (position + volume.dataOffset)).filter (0 ≤ int32 ·)

/-- `image_file_read` is exact after at most `count` calls of `read`. -/
structure ReadsExactly (sys : Schedule) (volume : VolumeContainer) (file : ByteFile)
    (position : Int) (buf : Buffer) (count : Nat) : Prop where
  reads : ∀ offset, seeks sys volume position = some offset →
    Exact count (readResults sys file count 1 offset count) count
      (buf.blit 0 count fun index => file.byte (offset + index))
      (imageFileRead sys volume file position buf count)
  fails : seeks sys volume position = none →
    ∃ result < 0, imageFileRead sys volume file position buf count = some (result, buf)

/-- `image_file_write` is exact after at most `count` calls of `write`. -/
structure WritesExactly (sys : Schedule) (volume : VolumeContainer) (file : ByteFile)
    (position : Int) (buf : Buffer) (count : Nat) : Prop where
  writes : ∀ offset, seeks sys volume position = some offset →
    Exact count (writeResults (volume.fd.answers sys) count 1 offset count) count
      (file.write offset count buf) (imageFileWrite count sys volume file position buf count)
  fails : seeks sys volume position = none →
    ∃ result < 0, imageFileWrite count sys volume file position buf count = some (result, file)

/-- `hdf_write_header` is exact after at most as many calls of `write` as the header has bytes. -/
def WritesHeaderExactly (sys : Schedule) (fd : Fd) (file : ByteFile) (sectorCount : Nat) : Prop :=
  Exact hdfHeaderSize (writeResults (fd.answers sys) hdfHeaderSize 0 0 hdfHeaderSize) 0
    (file.write 0 hdfHeaderSize (hdfHeader sectorCount))
    (hdfWriteHeader hdfHeaderSize sys fd file sectorCount)

/-- A descriptor that may not be written is one whose writes fail. -/
theorem imageFileWriteLoop_answers (sys : Schedule) (fd : Fd) (buf : Buffer)
    (fuel call offset : Nat) (file : ByteFile) (done : Int) (count : Nat) :
    imageFileWriteLoop sys fd.writeable buf fuel call offset file done count =
      imageFileWriteLoop (fd.answers sys) true buf fuel call offset file done count := by
  rw [Fd.answers]
  cases fd.writeable with
  | true => rfl
  | false =>
    cases fuel with
    | zero => rfl
    | succ fuel =>
      rw [imageFileWriteLoop, imageFileWriteLoop]
      cases sys call <;> rfl

section Transfers

variable {sys : Schedule} {volume : VolumeContainer} {file : ByteFile} {position : Int}
  {buf : Buffer} {count : Nat}

theorem seeks_some {offset : Nat} (seen : seeks sys volume position = some offset) :
    lseek (sys 0) (position + volume.dataOffset) = some offset ∧ ¬int32 offset < 0 := by
  obtain ⟨sought, nonneg⟩ := Option.filter_eq_some_iff.mp seen
  exact ⟨sought, Int.not_lt.mpr (of_decide_eq_true nonneg)⟩

theorem seeks_none (none : seeks sys volume position = none) :
    lseek (sys 0) (position + volume.dataOffset) = .none ∨
      ∃ offset, lseek (sys 0) (position + volume.dataOffset) = some offset ∧ int32 offset < 0 := by
  rw [seeks] at none
  revert none
  cases lseek (sys 0) (position + volume.dataOffset) with
  | none => exact fun _ => .inl rfl
  | some offset =>
    intro none
    have negative := Option.filter_eq_none_iff.mp none offset rfl
    exact .inr ⟨offset, rfl, by simpa using negative⟩

/-- A read is exact under every schedule. -/
theorem readsExactly (small : count < 2 ^ 31) :
    ReadsExactly sys volume file position buf count where
  reads offset seen := by
    obtain ⟨sought, nonneg⟩ := seeks_some seen
    have loop := imageFileReadLoop_exact sys file count 1 offset buf 0 count (by omega)
      (Nat.le_refl _)
    simp only [Nat.zero_add] at loop
    simp only [imageFileRead, sought, if_neg nonneg]
    exact loop
  fails none := by
    rcases seeks_none none with failed | ⟨offset, sought, negative⟩
    · simp only [imageFileRead, failed]
      exact ⟨-1, by decide, rfl⟩
    · simp only [imageFileRead, sought, if_pos negative]
      exact ⟨_, negative, rfl⟩

/-- A write is exact if and only if the calls it makes keep up with the count. -/
theorem writesExactly_iff (small : count < 2 ^ 31) :
    WritesExactly sys volume file position buf count ↔
      ∀ offset, seeks sys volume position = some offset →
        (volume.fd.answers sys).KeepsUp 1 count count := by
  have loop (offset : Nat) (seen : seeks sys volume position = some offset) :
      Exact count (writeResults (volume.fd.answers sys) count 1 offset count) count
          (file.write offset count buf) (imageFileWrite count sys volume file position buf count) ↔
        (volume.fd.answers sys).KeepsUp 1 count count := by
    obtain ⟨sought, nonneg⟩ := seeks_some seen
    have loop := imageFileWriteLoop_exact (volume.fd.answers sys) buf count 1 offset file 0 count
      (by omega)
    simp only [Nat.zero_add] at loop
    simp only [imageFileWrite, sought, if_neg nonneg, imageFileWriteLoop_answers]
    exact loop
  constructor
  · exact fun exact offset seen => (loop offset seen).mp (exact.writes offset seen)
  · refine fun keeps => ⟨fun offset seen => (loop offset seen).mpr (keeps offset seen),
      fun none => ?_⟩
    rcases seeks_none none with failed | ⟨offset, sought, negative⟩
    · simp only [imageFileWrite, failed]
      exact ⟨-1, by decide, rfl⟩
    · simp only [imageFileWrite, sought, if_pos negative]
      exact ⟨_, negative, rfl⟩

/-- So is the writing of a header. -/
theorem writesHeaderExactly_iff {fd : Fd} {sectorCount : Nat} :
    WritesHeaderExactly sys fd file sectorCount ↔
      (fd.answers sys).KeepsUp 0 hdfHeaderSize hdfHeaderSize := by
  have loop := imageFileWriteLoop_exact (fd.answers sys) (hdfHeader sectorCount) hdfHeaderSize 0 0
    file 0 hdfHeaderSize (by decide)
  have ends := imageFileWriteLoop_spec (fd.answers sys) true (hdfHeader sectorCount) hdfHeaderSize
    0 0 file 0 hdfHeaderSize
  simp only [Nat.zero_add] at loop ends
  rw [WritesHeaderExactly, hdfWriteHeader, imageFileWriteLoop_answers, ← loop]
  cases run : imageFileWriteLoop (fd.answers sys) true (hdfHeader sectorCount) hdfHeaderSize 0 0
      file 0 hdfHeaderSize with
  | none => exact iff_of_false not_exact_none not_exact_none
  | some outcome =>
    obtain ⟨res, written⟩ := outcome
    -- only the sign of the loop's result is kept, and the loop gives the count or `-1`
    rcases ends res written (by decide) run with ⟨rfl, _⟩ | ⟨rfl, _⟩
    · refine Iff.trans (b := Exact hdfHeaderSize _ 0 _ (some (0, written))) Iff.rfl ?_
      rw [exact_some, exact_some]
      simp [show ¬(hdfHeaderSize : Int) < 0 by decide]
    · refine Iff.trans (b := Exact hdfHeaderSize _ 0 _ (some (-1, written))) Iff.rfl ?_
      rw [exact_some, exact_some]
      simp [hdfHeaderSize]

/-- Under any schedule of partial results reading is exact; writing, of data or of a header, is
exact if and only if among the calls allowed one fails or together they move the count. -/
theorem transfers_exact {fd : Fd} {sectorCount : Nat} (small : count < 2 ^ 31) :
    ReadsExactly sys volume file position buf count ∧
      (WritesExactly sys volume file position buf count ↔
        ∀ offset, seeks sys volume position = some offset →
          (volume.fd.answers sys).KeepsUp 1 count count) ∧
      (WritesHeaderExactly sys fd file sectorCount ↔
        (fd.answers sys).KeepsUp 0 hdfHeaderSize hdfHeaderSize) :=
  ⟨readsExactly small, writesExactly_iff small, writesHeaderExactly_iff⟩

end Transfers

/-- A kernel that moves one byte a call. -/
theorem transfers_exact_bytewise :
    ReadsExactly (fun _ => .done 1) ⟨⟨0, true⟩, 0, 512, 1⟩ .empty 0 .zero 3 ∧
      WritesExactly (fun _ => .done 1) ⟨⟨0, true⟩, 0, 512, 1⟩ .empty 0 .zero 3 ∧
      WritesHeaderExactly (fun _ => .done 1) ⟨0, true⟩ .empty 1 := by
  have gives := @transfers_exact (fun _ => .done 1) ⟨⟨0, true⟩, 0, 512, 1⟩ .empty 0 .zero 3
    ⟨0, true⟩ 1 (by decide)
  exact ⟨gives.1, gives.2.1.mpr fun _ _ => .inr (by decide),
    gives.2.2.mpr (.inr (by decide +kernel))⟩

/-- A kernel that moves nothing and does not fail is asked for ever. -/
theorem not_writesExactly :
    ¬WritesExactly (fun _ => .done 0) ⟨⟨0, true⟩, 0, 512, 1⟩ .empty 0 .zero 1 := by
  rintro ⟨writes, _⟩
  exact not_exact_none (writes 0 rfl)

end Hdfmonkey
