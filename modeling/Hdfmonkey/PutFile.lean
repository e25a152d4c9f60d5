/-
This file proves when `put_file` has stored a local file completely if it returns zero.

The volume is the one the driver promises its callers: a write takes as many bytes as
the clusters of the file and the free clusters have room for and reports success even
if that is fewer than it was given; closing a file records its length in 32 bits and
may fail, and what is found on the volume then is anything. `put_file` looks at neither
the number of bytes taken nor the result of the closing.
-/

import Hdfmonkey.FatFs

namespace Hdfmonkey

/-! ### The function -/

/-- A local file open for reading: the bytes not yet read, and whether each call of `fread` to come
raises the error indicator. -/
structure LocalFile where
  rest : List UInt8
  failing : List Bool

section Function

variable {State File : Type} (fat : FatFiles State File)

/-- The loop of `put_file`. A short `fread` without an error is the end of the file. -/
def putContents : (fuel : Nat) → LocalFile → File → Program State Int
  | 0, _, _ => Program.undefined
  | fuel + 1, inputFile, outputFile => do
    let buffer := inputFile.rest.take bufferSize
    if inputFile.failing.headD false then return -1
    let inputFile := ⟨inputFile.rest.drop bufferSize, inputFile.failing.tail⟩
    match ← (if buffer = [] then return .ok (0, outputFile) else fat.fWrite outputFile buffer) with
    | .error _ =>
      let _ ← fat.fClose outputFile
      return -1
    | .ok (_, outputFile) =>
      if buffer.length = bufferSize then putContents fuel inputFile outputFile
      else
        let _ ← fat.fClose outputFile
        return 0

/-- `put_file` for a regular file. `none` is a file that cannot be opened. -/
def putFile (fuel : Nat) (inputFile : Option LocalFile) (destFilename : FatPath) :
    Program State Int := do
  match inputFile with
  | none => return -1
  | some inputFile =>
    match ← fat.fOpen destFilename .createAlways with
    | .error _ => return -1
    | .ok outputFile => putContents fat fuel inputFile outputFile

end Function

/-! ### The reads of a local file -/

/-- No call of `fread` that comes before the end of the file and before a write that fails raises
the error indicator. -/
def LocalFile.ReadsOn (inputFile : LocalFile) (writing : Nat → Except FResult Nat) (first : Nat) :
    Prop :=
  ∀ block, block * bufferSize ≤ inputFile.rest.length →
    (∀ earlier < block, ∃ bw, writing (first + earlier) = .ok bw) →
    inputFile.failing.getD block false = false

/-- No call of `fread` that comes before the end of the file raises the error indicator. -/
def LocalFile.Readable (inputFile : LocalFile) : Prop :=
  ∀ block, block * bufferSize ≤ inputFile.rest.length → inputFile.failing.getD block false = false

namespace LocalFile

variable {inputFile : LocalFile} {writing : Nat → Except FResult Nat} {first : Nat}

/-- The reads go on if the first is served and, where a full block has been read and written, those
behind it go on. -/
theorem readsOn_iff :
    inputFile.ReadsOn writing first ↔ inputFile.failing.headD false = false ∧
      (bufferSize ≤ inputFile.rest.length → (∃ bw, writing first = .ok bw) →
        ReadsOn ⟨inputFile.rest.drop bufferSize, inputFile.failing.tail⟩ writing
          (first + 1)) := by
  have behind (block : Nat) : inputFile.failing.tail.getD block false =
      inputFile.failing.getD (block + 1) false := by
    cases inputFile.failing <;> rfl
  constructor
  · intro reads
    refine ⟨?_, fun full written block inside earlier => ?_⟩
    · rw [List.headD_eq_getD]
      exact reads 0 (by omega) fun _ none => absurd none (Nat.not_lt_zero _)
    · rw [behind]
      refine reads (block + 1) ?_ fun turn before => ?_
      · rw [List.length_drop] at inside
        rw [Nat.succ_mul]
        omega
      · cases turn with
        | zero => exact written
        | succ turn =>
          have done := earlier turn (Nat.lt_of_succ_lt_succ before)
          rwa [Nat.add_right_comm] at done
  · rintro ⟨served, others⟩ block inside earlier
    cases block with
    | zero => rwa [← List.headD_eq_getD]
    | succ block =>
      rw [← behind]
      rw [Nat.succ_mul] at inside
      refine others (by omega) (earlier 0 (Nat.succ_pos _)) block ?_ fun turn before => ?_
      · rw [List.length_drop]
        omega
      · have done := earlier (turn + 1) (Nat.succ_lt_succ before)
        rwa [← Nat.add_assoc, Nat.add_right_comm] at done

/-- Where no write fails the reads go on if none fails. -/
theorem readsOn_iff_readable (good : ∀ call, ∃ bw, writing call = .ok bw) :
    inputFile.ReadsOn writing first ↔ inputFile.Readable :=
  ⟨fun reads block inside => reads block inside fun _ _ => good _,
    fun readable block inside _ => readable block inside⟩

theorem readable_iff :
    inputFile.Readable ↔ inputFile.failing.headD false = false ∧
      (bufferSize ≤ inputFile.rest.length →
        Readable ⟨inputFile.rest.drop bufferSize, inputFile.failing.tail⟩) := by
  have good : ∀ call : Nat, ∃ bw, (fun _ => .ok 0 : Nat → Except FResult Nat) call = .ok bw :=
    fun _ => ⟨0, rfl⟩
  rw [← @readsOn_iff_readable _ _ 0 good, readsOn_iff, readsOn_iff_readable good]
  exact and_congr_right fun _ => forall_congr' fun _ =>
    ⟨fun goes => goes ⟨0, rfl⟩, fun goes _ => goes⟩

end LocalFile

/-! ### A volume as the driver promises it -/

/-- A volume: the bytes that a look-up of each path finds, and the free clusters. -/
structure FatVolume where
  build : Build
  clusterBytes : Nat
  positive : 0 < clusterBytes
  freeClusters : Nat
  file : FatPath → Option (List UInt8)
  calls : Nat

/-- A file open for writing: its length, its clusters and the bytes in them. -/
structure OutputFile where
  path : FatPath
  fsize : Nat
  clusters : Nat
  stored : List UInt8

/-- What is not up to the caller: the code with which each call fails, the clusters a directory
takes for a new entry, and what is found after a file could not be closed. -/
structure Faults where
  code : Nat → Option FResult
  registered : Nat
  residue : Option (List UInt8)

/-- The clusters that a number of bytes takes. -/
def clustersFor (clusterBytes bytes : Nat) : Nat := (bytes + clusterBytes - 1) / clusterBytes

/-- The free clusters once a path has been opened for writing from scratch: those of the file it
referred to are given back. -/
def FatVolume.freeAfterOpen (volume : FatVolume) (faults : Faults) (path : FatPath) : Nat :=
  volume.freeClusters + clustersFor volume.clusterBytes ((volume.file path).getD []).length -
    faults.registered

/-- A call that fails with its code or does its work. -/
def FatVolume.call {Result : Type} (faults : Faults) (failed : FatVolume → FatVolume)
    (work : FatVolume → Result × FatVolume) : Program FatVolume (Except FResult Result) :=
  fun volume =>
  let begun := { volume with calls := volume.calls + 1 }
  match faults.code volume.calls with
  | some code => .ok (.error code, failed begun)
  | none => .ok (.ok (work begun).1, (work begun).2)

/-- The bytes that a write takes. A length that wraps around takes none; otherwise it is up to the
room in the clusters of the file and the free ones. -/
def bytesTaken (volume : FatVolume) (file : OutputFile) (btw : Nat) : Nat :=
  if volume.build.add file.fsize btw < file.fsize then 0
  else min btw ((file.clusters + volume.freeClusters) * volume.clusterBytes - file.fsize)

/-- The file after a number of bytes of the buffer were written to it. -/
def OutputFile.extend (file : OutputFile) (clusterBytes : Nat) (buff : List UInt8) (bw : Nat) :
    OutputFile :=
  { file with
    fsize := file.fsize + bw
    clusters := clustersFor clusterBytes (file.fsize + bw)
    stored := file.stored ++ buff.take bw }

/-- The driver on such a volume. -/
def promised (faults : Faults) : FatFiles FatVolume OutputFile where
  fOpen path mode := FatVolume.call faults id fun volume =>
    match mode with
    | .read => (⟨path, 0, 0, (volume.file path).getD []⟩, volume)
    | .createAlways => (⟨path, 0, 0, []⟩, { volume with
        freeClusters := volume.freeAfterOpen faults path
        file := Function.update volume.file path (some []) })
  fRead file btr := FatVolume.call faults id fun volume =>
    ((file.stored.take btr, { file with stored := file.stored.drop btr }), volume)
  fWrite file buff := FatVolume.call faults id fun volume =>
    let bw := bytesTaken volume file buff.length
    let extended := file.extend volume.clusterBytes buff bw
    ((bw, extended), { volume with
      freeClusters := volume.freeClusters + file.clusters - extended.clusters })
  fClose file := FatVolume.call faults
    (fun volume => { volume with file := Function.update volume.file file.path faults.residue })
    fun volume => ((), { volume with
      file := Function.update volume.file file.path
        (some (file.stored.take (file.fsize % 2 ^ 32))) })

/-! ### What the writes of a file leave -/

/-- An open file whose clusters are those its bytes take, on a volume with room for them. -/
structure OutputFile.Kept (file : OutputFile) (volume : FatVolume) (capacity : Nat) : Prop where
  length : file.fsize = file.stored.length
  clusters : file.clusters = clustersFor volume.clusterBytes file.fsize
  room : (file.clusters + volume.freeClusters) * volume.clusterBytes = capacity
  inside : file.fsize ≤ capacity

section Writes

variable {volume after : FatVolume} {file : OutputFile} {capacity : Nat} {faults : Faults}

theorem clustersFor_le {clusterBytes bytes clusters : Nat} (positive : 0 < clusterBytes) :
    clustersFor clusterBytes bytes ≤ clusters ↔ bytes ≤ clusters * clusterBytes := by
  rw [clustersFor, ← Nat.lt_succ_iff, Nat.div_lt_iff_lt_mul positive, Nat.succ_mul]
  omega

/-- What a successful write leaves. -/
def FatVolume.written (volume : FatVolume) (file : OutputFile) (buff : List UInt8) : FatVolume :=
  { volume with
    calls := volume.calls + 1
    freeClusters := volume.freeClusters + file.clusters -
      (file.extend volume.clusterBytes buff (bytesTaken volume file buff.length)).clusters }

theorem bytesTaken_le (file : OutputFile) (btw : Nat) : bytesTaken volume file btw ≤ btw := by
  rw [bytesTaken]
  split_ifs
  · exact Nat.zero_le _
  · exact Nat.min_le_left _ _

theorem bytesTaken_fits (kept : file.Kept volume capacity) {btw : Nat}
    (fits : file.fsize + btw ≤ capacity) (short : file.fsize + btw < 2 ^ 32) :
    bytesTaken volume file btw = btw := by
  have word := volume.build.le_word
  have sum : volume.build.add file.fsize btw = file.fsize + btw :=
    volume.build.add_of_lt (by omega)
  rw [bytesTaken, sum, if_neg (by omega), kept.room]
  omega

/-- A write keeps the file and the volume in step. -/
theorem OutputFile.Kept.extend (kept : file.Kept volume capacity) (buff : List UInt8) :
    (file.extend volume.clusterBytes buff (bytesTaken volume file buff.length)).Kept
      (volume.written file buff) capacity := by
  have taken : bytesTaken volume file buff.length ≤ buff.length := bytesTaken_le file _
  have inside : file.fsize + bytesTaken volume file buff.length ≤ capacity := by
    have start := kept.inside
    rw [bytesTaken, kept.room]
    split_ifs <;> omega
  have clusters : clustersFor volume.clusterBytes
      (file.fsize + bytesTaken volume file buff.length) ≤ file.clusters + volume.freeClusters := by
    rw [clustersFor_le volume.positive, kept.room]
    exact inside
  refine ⟨?_, rfl, ?_, inside⟩
  · have start := kept.length
    rw [OutputFile.extend, List.length_append, List.length_take]
    show file.fsize + _ = _
    omega
  · rw [← kept.room]
    refine congrArg (· * volume.clusterBytes) ?_
    show clustersFor _ _ + (volume.freeClusters + file.clusters - clustersFor _ _) = _
    omega

theorem fWrite_ok {buff : List UInt8} {bw : Nat} {extended : OutputFile}
    (run : ((promised faults).fWrite file buff).Outcome volume (.ok (bw, extended)) after) :
    extended = file.extend volume.clusterBytes buff (bytesTaken volume file buff.length) ∧
      after = volume.written file buff := by
  unfold Program.Outcome promised FatVolume.call at run
  dsimp only at run
  split at run
  · simp at run
  · simp only [Except.ok.injEq, Prod.mk.injEq] at run
    obtain ⟨⟨_, rfl⟩, rfl⟩ := run
    exact ⟨rfl, rfl⟩

theorem fClose_file {result : Except FResult PUnit}
    (run : ((promised faults).fClose file).Outcome volume result after) :
    after.file file.path = match faults.code volume.calls with
      | none => some (file.stored.take (file.fsize % 2 ^ 32))
      | some _ => faults.residue := by
  unfold Program.Outcome promised FatVolume.call at run
  dsimp only at run
  split at run <;> rename_i code <;> rw [code] <;>
    obtain ⟨_, rfl⟩ := Prod.mk.inj (Except.ok.inj run) <;> exact Function.update_self _ _ _

/-- The calls of `f_write` for a number of bytes. -/
def writesFor (bytes : Nat) : Nat := (bytes + bufferSize - 1) / bufferSize

theorem writesFor_full {bytes : Nat} (full : bufferSize ≤ bytes) :
    writesFor bytes = writesFor (bytes - bufferSize) + 1 := by
  rw [writesFor, writesFor, bufferSize] at *
  omega

/-- The step of the loop: a buffer is written unless it is empty. -/
theorem putBuffer_ok {buffer : List UInt8} {bw : Nat} {outputFile : OutputFile}
    (kept : file.Kept volume capacity) (short : buffer.length ≤ bufferSize)
    (run : (if buffer = [] then (return .ok (0, file)) else
      (promised faults).fWrite file buffer : Program FatVolume _).Outcome volume
        (.ok (bw, outputFile)) after) :
    outputFile.Kept after capacity ∧ outputFile.path = file.path ∧
      after.calls = volume.calls + writesFor buffer.length ∧
      (file.fsize + buffer.length ≤ capacity → file.fsize + buffer.length < 2 ^ 32 →
        outputFile.fsize = file.fsize + buffer.length ∧
          outputFile.stored = file.stored ++ buffer) := by
  by_cases empty : buffer = []
  · rw [if_pos empty] at run
    obtain ⟨same, rfl⟩ := Program.outcome_pure.mp run
    obtain ⟨_, rfl⟩ := Prod.mk.inj (Except.ok.inj same)
    rw [empty]
    exact ⟨kept, rfl, rfl, fun _ _ => ⟨rfl, (List.append_nil _).symm⟩⟩
  · rw [if_neg empty] at run
    obtain ⟨rfl, rfl⟩ := fWrite_ok run
    have some : 0 < buffer.length := List.length_pos_iff.mpr empty
    have one : writesFor buffer.length = 1 := by
      rw [writesFor, bufferSize] at *
      omega
    refine ⟨kept.extend buffer, rfl, ?_, fun fits word => ?_⟩
    · rw [one]
      rfl
    · have all := bytesTaken_fits kept fits word
      refine ⟨congrArg (file.fsize + ·) all, ?_⟩
      show file.stored ++ buffer.take _ = _
      rw [all, List.take_length]

/-- A loop that returns zero has stored a part of the file, all of it if there was room, and what is
found afterwards is what closing it leaves. -/
theorem putContents_spec {fuel : Nat} {inputFile : LocalFile}
    (kept : file.Kept volume capacity)
    (run : (putContents (promised faults) fuel inputFile file).Outcome volume 0 after) :
    ∃ stored : List UInt8, stored.length ≤ capacity ∧
      (file.fsize + inputFile.rest.length ≤ capacity →
        file.fsize + inputFile.rest.length < 2 ^ 32 → stored = file.stored ++ inputFile.rest) ∧
      after.file file.path =
        match faults.code (volume.calls + writesFor inputFile.rest.length) with
        | none => some (stored.take (stored.length % 2 ^ 32))
        | some _ => faults.residue := by
  induction fuel generalizing volume file inputFile with
  | zero => exact absurd run Program.outcome_undefined
  | succ fuel inductionHypothesis =>
    rw [putContents] at run
    by_cases failed : inputFile.failing.headD false
    · rw [if_pos failed] at run
      exact absurd (Program.outcome_pure.mp run).1 (by decide)
    rw [if_neg failed] at run
    obtain ⟨result, middle, written, rest⟩ := Program.outcome_bind.mp run
    have size : (inputFile.rest.take bufferSize).length = min bufferSize inputFile.rest.length :=
      List.length_take
    cases result with
    | error code =>
      obtain ⟨_, closed, _, returned⟩ := Program.outcome_bind.mp rest
      exact absurd (Program.outcome_pure.mp returned).1 (by decide)
    | ok output =>
      obtain ⟨keeps, path, calls, complete⟩ := putBuffer_ok kept (by omega) written
      dsimp only at rest
      by_cases full : (inputFile.rest.take bufferSize).length = bufferSize
      · -- a full buffer: the loop goes on with what is left
        rw [if_pos full] at rest
        obtain ⟨stored, inside, all, found⟩ := inductionHypothesis keeps rest
        have split := List.take_append_drop bufferSize inputFile.rest
        have left : (inputFile.rest.drop bufferSize).length =
            inputFile.rest.length - bufferSize := List.length_drop
        refine ⟨stored, inside, fun fits word => ?_, ?_⟩
        · obtain ⟨length, begun⟩ := complete (by omega) (by omega)
          rw [all (by dsimp only; omega) (by dsimp only; omega), begun, List.append_assoc, split]
        · rw [← path, found, calls, full]
          dsimp only
          rw [left, writesFor_full (by omega : bufferSize ≤ inputFile.rest.length), Nat.add_assoc,
            Nat.add_comm _ 1]
          rfl
      · -- a short one: it was the rest of the file
        rw [if_neg full] at rest
        obtain ⟨_, closed, close, returned⟩ := Program.outcome_bind.mp rest
        obtain ⟨_, rfl⟩ := Program.outcome_pure.mp returned
        have last : inputFile.rest.take bufferSize = inputFile.rest :=
          List.take_of_length_le (by omega)
        rw [last] at complete calls
        refine ⟨output.2.stored, ?_, fun fits word => (complete fits word).2, ?_⟩
        · rw [← keeps.length]
          exact keeps.inside
        · rw [← path, fClose_file close, calls, keeps.length]

theorem FatVolume.call_returns {Result : Type} {failed : FatVolume → FatVolume}
    {work : FatVolume → Result × FatVolume} :
    ∃ result after, (FatVolume.call faults failed work).Outcome volume result after := by
  unfold Program.Outcome FatVolume.call
  dsimp only
  split <;> exact ⟨_, _, rfl⟩

/-- The loop returns: a turn of it leaves less of the file. -/
theorem putContents_returns {fuel : Nat} {inputFile : LocalFile}
    (enough : inputFile.rest.length / bufferSize < fuel) :
    ∃ result after, (putContents (promised faults) fuel inputFile file).Outcome volume result
      after := by
  induction fuel generalizing volume file inputFile with
  | zero => exact absurd enough (Nat.not_lt_zero _)
  | succ fuel inductionHypothesis =>
    rw [putContents]
    by_cases failed : inputFile.failing.headD false
    · rw [if_pos failed]
      exact ⟨_, _, rfl⟩
    rw [if_neg failed]
    obtain ⟨written, middle, write⟩ : ∃ written middle, Program.Outcome
        (if inputFile.rest.take bufferSize = [] then (return .ok (0, file)) else
          (promised faults).fWrite file (inputFile.rest.take bufferSize) : Program FatVolume _)
        volume written middle := by
      split_ifs
      · exact ⟨_, _, rfl⟩
      · dsimp only [promised]
        exact FatVolume.call_returns
    cases written with
    | error code =>
      have close : ∃ result after, ((promised faults).fClose file).Outcome middle result after := by
        dsimp only [promised]
        exact FatVolume.call_returns
      obtain ⟨_, _, close⟩ := close
      exact ⟨-1, _, Program.outcome_bind.mpr
        ⟨_, _, write, Program.outcome_bind.mpr ⟨_, _, close, rfl⟩⟩⟩
    | ok output =>
      by_cases full : (inputFile.rest.take bufferSize).length = bufferSize
      · have size : bufferSize ≤ inputFile.rest.length := by
          rw [List.length_take] at full
          omega
        have less : (inputFile.rest.drop bufferSize).length / bufferSize < fuel := by
          rw [List.length_drop]
          rw [bufferSize] at *
          omega
        obtain ⟨result, after, rest⟩ := @inductionHypothesis middle output.2
          ⟨inputFile.rest.drop bufferSize, inputFile.failing.tail⟩ less
        refine ⟨result, after, Program.outcome_bind.mpr ⟨_, _, write, ?_⟩⟩
        dsimp only
        rwa [if_pos full]
      · have close : ∃ result after,
            ((promised faults).fClose output.2).Outcome middle result after := by
          dsimp only [promised]
          exact FatVolume.call_returns
        obtain ⟨_, after, close⟩ := close
        refine ⟨0, after, Program.outcome_bind.mpr ⟨_, _, write, ?_⟩⟩
        dsimp only
        rw [if_neg full]
        exact Program.outcome_bind.mpr ⟨_, _, close, rfl⟩

end Writes

/-! ### When zero means complete -/

section Complete

variable {start after : FatVolume} {faults : Faults} {inputFile : LocalFile}
  {destFilename : FatPath} {fuel : Nat}

theorem fOpen_ok {outputFile : OutputFile}
    (run : ((promised faults).fOpen destFilename .createAlways).Outcome start (.ok outputFile)
      after) :
    outputFile = ⟨destFilename, 0, 0, []⟩ ∧ after.calls = start.calls + 1 ∧
      outputFile.Kept after (start.freeAfterOpen faults destFilename * start.clusterBytes) := by
  unfold Program.Outcome promised FatVolume.call at run
  dsimp only at run
  split at run
  · simp at run
  · simp only [Except.ok.injEq, Prod.mk.injEq] at run
    obtain ⟨rfl, rfl⟩ := run
    refine ⟨rfl, rfl, rfl, ?_, ?_, Nat.zero_le _⟩
    · exact (Nat.div_eq_of_lt (by dsimp only; have := start.positive; omega)).symm
    · exact congrArg (· * start.clusterBytes) (Nat.zero_add _)

/-- `put_file` returns, whatever fails. -/
theorem putFile_returns (enough : inputFile.rest.length / bufferSize < fuel) :
    ∃ result after, (putFile (promised faults) fuel (some inputFile) destFilename).Outcome start
      result after := by
  have opened : ∃ result after,
      ((promised faults).fOpen destFilename .createAlways).Outcome start result after := by
    dsimp only [promised]
    exact FatVolume.call_returns
  obtain ⟨opened, middle, open'⟩ := opened
  cases opened with
  | error code => exact ⟨-1, middle, Program.outcome_bind.mpr ⟨_, _, open', rfl⟩⟩
  | ok outputFile =>
    have rest : ∃ result after, (putContents (promised faults) fuel inputFile outputFile).Outcome
        middle result after := putContents_returns enough
    obtain ⟨result, after, rest⟩ := rest
    exact ⟨result, after, Program.outcome_bind.mpr ⟨_, _, open', rest⟩⟩

/-- A `put_file` that returns zero has stored the file completely exactly if the file can be closed,
the clusters that are free for it have room for all of it and its length has 32 bits. -/
theorem putFile_complete_iff
    (run : (putFile (promised faults) fuel (some inputFile) destFilename).Outcome start 0 after) :
    after.file destFilename = some inputFile.rest ↔
      match faults.code (start.calls + 1 + writesFor inputFile.rest.length) with
      | none =>
        inputFile.rest.length ≤ start.freeAfterOpen faults destFilename * start.clusterBytes ∧
          inputFile.rest.length < 2 ^ 32
      | some _ => faults.residue = some inputFile.rest := by
  obtain ⟨opened, middle, open', rest⟩ := Program.outcome_bind.mp run
  cases opened with
  | error code => exact absurd (Program.outcome_pure.mp rest).1 (by decide)
  | ok outputFile =>
    obtain ⟨rfl, calls, kept⟩ := fOpen_ok open'
    obtain ⟨stored, inside, all, found⟩ := putContents_spec kept rest
    dsimp only at all found
    rw [found, calls]
    split
    · constructor
      · intro complete
        have length := congrArg List.length (Option.some.inj complete)
        rw [List.length_take] at length
        omega
      · rintro ⟨fits, word⟩
        rw [all (by omega) (by omega), List.nil_append, Nat.mod_eq_of_lt word, List.take_length]
    · exact Iff.rfl

/-- A volume without files that nothing goes wrong on. -/
def blankVolume (freeClusters : Nat) : FatVolume :=
  ⟨.lp64, 512, by decide, freeClusters, fun _ => none, 0⟩

def noFaults : Faults := ⟨fun _ => none, 0, none⟩

/-- A file of three bytes put on a volume with a free cluster. -/
theorem putFile_complete_iff_three :
    ∃ after, (putFile (promised noFaults) 1 (some ⟨[1, 2, 3], []⟩) [0x61]).Outcome
      (blankVolume 1) 0 after ∧ after.file [0x61] = some [1, 2, 3] := by
  obtain ⟨result, after, run⟩ : ∃ result after, (putFile (promised noFaults) 1
      (some ⟨[1, 2, 3], []⟩) [0x61]).Outcome (blankVolume 1) result after :=
    putFile_returns (by decide)
  obtain rfl : result = 0 := (congrArg (·.map Prod.fst) run).symm.trans rfl |> Except.ok.inj
  exact ⟨after, run, (putFile_complete_iff run).mpr ⟨by decide, by decide⟩⟩

/-- One byte put on a full volume: `put_file` returns zero and the file is empty. -/
theorem putFile_not_complete_full :
    ¬ ∀ (start after : FatVolume) (faults : Faults) (inputFile : LocalFile)
      (destFilename : FatPath) (fuel : Nat),
      (putFile (promised faults) fuel (some inputFile) destFilename).Outcome start 0 after →
        after.file destFilename = some inputFile.rest := by
  intro complete
  have stored := complete (blankVolume 0) _ noFaults ⟨[1], []⟩ [0x61] 1 rfl
  exact absurd stored (by decide)

end Complete

end Hdfmonkey
