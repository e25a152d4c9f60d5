/-
This file asks whether `get` has delivered the whole file if it returns zero.

The output is a stream of the C library. A call of `fwrite` may store fewer bytes than
it is given, and closing the stream may fail, which loses bytes that were stored
before. `cmd_get` looks at the result of neither.

The file is read through the interface of the driver. At the end the loop is compared
with that of the command over the sectors of the volume.
-/

import Hdfmonkey.PutFile
import Hdfmonkey.ReadOnly

namespace Hdfmonkey

/-! ### The output -/

/-- What the output stream does: the bytes that each `fwrite` stores at most, by its number, and
those that are left of all if it cannot be closed. -/
structure Output where
  stores : Nat → Nat
  closing : Option Nat

/-- The output stream: the bytes it has accepted and the number of calls of `fwrite`. -/
structure OutputStream where
  accepted : List UInt8
  calls : Nat

namespace OutputStream

def blank : OutputStream := ⟨[], 0⟩

/-- `fwrite(buffer, 1, bytes_read, output_stream)`. -/
def fwrite (output : Output) (buffer : List UInt8) (stream : OutputStream) : OutputStream :=
  ⟨stream.accepted ++ buffer.take (output.stores stream.calls), stream.calls + 1⟩

/-- `fclose(output_stream)`. -/
def fclose (output : Output) (stream : OutputStream) : OutputStream :=
  match output.closing with
  | none => stream
  | some kept => { stream with accepted := stream.accepted.take kept }

end OutputStream

/-! ### The function -/

section Function

variable {State File : Type} (fat : FatFiles State File) (output : Output) (named : Bool)

/-- The loop of `cmd_get`, and what follows it. The output is closed if it is a named file. -/
def getContents : (fuel : Nat) → File → OutputStream → Program State (Int × OutputStream)
  | 0, _, _ => Program.undefined
  | fuel + 1, inputFile, outputStream => do
    match ← fat.fRead inputFile bufferSize with
    | .error _ =>
      let _ ← fat.fClose inputFile
      return (-1, outputStream)
    | .ok (buffer, inputFile) =>
      let outputStream := outputStream.fwrite output buffer
      if buffer.length = bufferSize then getContents fuel inputFile outputStream
      else
        let _ ← fat.fClose inputFile
        return (0, if named then outputStream.fclose output else outputStream)

/-- `cmd_get` behind the opening of the output and of the image. -/
def getFile (fuel : Nat) (sourceFilename : FatPath) : Program State (Int × OutputStream) := do
  match ← fat.fOpen sourceFilename .read with
  | .error _ => return (-1, .blank)
  | .ok inputFile => getContents fat output named fuel inputFile .blank

end Function

/-! ### What is delivered -/

/-- Each `fwrite` stores its part of the file, and closing a named output loses nothing of it. -/
def Output.Delivers (output : Output) (named : Bool) (content : List UInt8) : Prop :=
  (∀ call, call * bufferSize < content.length →
    min bufferSize (content.length - call * bufferSize) ≤ output.stores call) ∧
  (named = true → ∀ kept, output.closing = some kept → content.length ≤ kept)

/-- A driver whose reads deliver a file in order: where some bytes are left of it, a read that
succeeds delivers the first of them. -/
def FatFiles.ReadsInOrder {State File : Type} (fat : FatFiles State File)
    (left : State → File → List UInt8 → Prop) : Prop :=
  ∀ state file rest btr buffer next after, left state file rest →
    (fat.fRead file btr).Outcome state (.ok (buffer, next)) after →
    buffer = rest.take btr ∧ left after next (rest.drop btr)

theorem promised_readsInOrder (faults : Faults) :
    (promised faults).ReadsInOrder fun _ file rest => file.stored = rest := by
  rintro volume file _ btr buffer next after rfl run
  unfold Program.Outcome promised FatVolume.call at run
  dsimp only at run
  split at run
  · simp at run
  · simp only [Except.ok.injEq, Prod.mk.injEq] at run
    obtain ⟨⟨rfl, rfl⟩, _⟩ := run
    exact ⟨rfl, rfl⟩

section Delivery

variable {State File : Type} {fat : FatFiles State File} {left : State → File → List UInt8 → Prop}
  {output : Output} {named : Bool} {fuel : Nat} {state after : State} {file : File}
  {rest : List UInt8} {stream finish : OutputStream}

/-- The bytes of a block and those behind it are all there exactly if none is missing of either. -/
theorem append_take_eq_iff {rest more : List UInt8} {size limit : Nat}
    (few : more.length ≤ (rest.drop size).length) :
    (rest.take size).take limit ++ more = rest ↔
      min size rest.length ≤ limit ∧ more = rest.drop size := by
  have length : (rest.take size).length = min size rest.length := List.length_take
  constructor
  · intro same
    have total := congrArg List.length same
    rw [List.length_append, List.length_take, length] at total
    rw [List.length_drop] at few
    have whole : (rest.take size).take limit = rest.take size :=
      List.take_of_length_le (by omega)
    refine ⟨by omega, ?_⟩
    rw [whole] at same
    exact List.append_cancel_left (same.trans (List.take_append_drop size rest).symm)
  · rintro ⟨enough, rfl⟩
    rw [List.take_of_length_le (by omega), List.take_append_drop]

/-- The calls for the blocks of a file are the first and those for what is behind it. -/
theorem forall_blocks_iff {size limit : Nat} {stores : Nat → Nat} (positive : 0 < size) :
    (∀ call, call * size < limit → min size (limit - call * size) ≤ stores call) ↔
      min size limit ≤ stores 0 ∧ ∀ call, call * size < limit - size →
        min size (limit - size - call * size) ≤ stores (call + 1) := by
  constructor
  · refine fun all => ⟨?_, fun call inside => ?_⟩
    · by_cases some : 0 < limit
      · have first := all 0 (by omega)
        rwa [Nat.zero_mul, Nat.sub_zero] at first
      · omega
    · have next := all (call + 1) (by rw [Nat.succ_mul]; omega)
      rw [Nat.succ_mul] at next
      omega
  · rintro ⟨first, others⟩ call inside
    cases call with
    | zero => rwa [Nat.zero_mul, Nat.sub_zero]
    | succ call =>
      rw [Nat.succ_mul] at inside ⊢
      have next := others call (by omega)
      omega

/-- The bytes that a loop that returns zero has stored before the output is closed, by induction on
its turns. -/
theorem getContents_stores (reads : fat.ReadsInOrder left) (begins : left state file rest)
    (run : (getContents fat output named fuel file stream).Outcome state (0, finish) after) :
    ∃ bytes calls, bytes.length ≤ rest.length ∧
      (bytes = rest ↔ ∀ call, call * bufferSize < rest.length →
        min bufferSize (rest.length - call * bufferSize) ≤ output.stores (stream.calls + call)) ∧
      finish = if named then OutputStream.fclose output ⟨stream.accepted ++ bytes, calls⟩
        else ⟨stream.accepted ++ bytes, calls⟩ := by
  have positive : 0 < bufferSize := by decide
  induction fuel generalizing state file stream rest with
  | zero => exact absurd run Program.outcome_undefined
  | succ fuel inductionHypothesis =>
    obtain ⟨outcome, middle, reading, goesOn⟩ := Program.outcome_bind.mp run
    cases outcome with
    | error code =>
      obtain ⟨_, closed, _, returned⟩ := Program.outcome_bind.mp goesOn
      exact absurd (Prod.mk.inj (Program.outcome_pure.mp returned).1).1 (by decide)
    | ok delivered =>
      obtain ⟨buffer, next⟩ := delivered
      obtain ⟨rfl, behind⟩ := reads _ _ _ _ _ _ _ begins reading
      have size : (rest.take bufferSize).length = min bufferSize rest.length := List.length_take
      dsimp only at goesOn
      by_cases full : (rest.take bufferSize).length = bufferSize
      · -- a full buffer: the bytes behind it are stored by the turns to come
        rw [if_pos full] at goesOn
        obtain ⟨bytes, calls, few, all, last⟩ := inductionHypothesis behind goesOn
        refine ⟨(rest.take bufferSize).take (output.stores stream.calls) ++ bytes, calls,
          ?_, ?_, ?_⟩
        · rw [List.length_append, List.length_take]
          rw [List.length_drop] at few
          omega
        · rw [append_take_eq_iff few, all, List.length_drop]
          refine Iff.trans ?_ (forall_blocks_iff positive).symm
          simp only [OutputStream.fwrite, Nat.add_assoc, Nat.add_comm 1, Nat.add_zero]
        · rw [← List.append_assoc]
          exact last
      · -- a short one: nothing is behind it
        rw [if_neg full] at goesOn
        obtain ⟨_, closed, _, returned⟩ := Program.outcome_bind.mp goesOn
        obtain ⟨_, rfl⟩ := Prod.mk.inj (Program.outcome_pure.mp returned).1
        have short : rest.length < bufferSize := by omega
        refine ⟨(rest.take bufferSize).take (output.stores stream.calls), stream.calls + 1, ?_, ?_,
          rfl⟩
        · rw [List.length_take]
          omega
        · have nothing := @append_take_eq_iff rest [] bufferSize (output.stores stream.calls)
            (Nat.zero_le _)
          rw [List.append_nil] at nothing
          rw [nothing, forall_blocks_iff positive, Nat.sub_eq_zero_of_le (Nat.le_of_lt short),
            List.drop_of_length_le (Nat.le_of_lt short)]
          simp

/-- The output of a run that returns zero is the file if and only if every call stores what it is
given. -/
theorem getContents_complete_iff (reads : fat.ReadsInOrder left) (begins : left state file rest)
    (run : (getContents fat output named fuel file .blank).Outcome state (0, finish) after) :
    finish.accepted = rest ↔ output.Delivers named rest := by
  obtain ⟨bytes, calls, few, all, rfl⟩ := getContents_stores reads begins run
  simp only [OutputStream.blank, List.nil_append, Nat.zero_add] at all ⊢
  rw [Output.Delivers, ← all]
  cases named with
  | false => simp
  | true =>
    rw [if_pos rfl, OutputStream.fclose]
    cases closing : output.closing with
    | none => simp
    | some kept =>
      constructor
      · intro same
        have total := congrArg List.length same
        rw [List.length_take] at total
        have whole : bytes.take kept = bytes := List.take_of_length_le (by omega)
        refine ⟨whole.symm.trans same, fun _ _ same => ?_⟩
        obtain rfl := Option.some.inj same
        omega
      · rintro ⟨rfl, enough⟩
        exact List.take_of_length_le (enough rfl _ rfl)

end Delivery

/-- Where `get` returns zero, the output has accepted exactly the bytes of the file if and only if
each `fwrite` stored all it was given and, for a named output, closing it lost nothing. -/
theorem getFile_complete_iff (faults : Faults) (output : Output) (named : Bool) (fuel : Nat)
    (sourceFilename : FatPath) (content : List UInt8) (volume after : FatVolume)
    (finish : OutputStream) (present : volume.file sourceFilename = some content)
    (run : (getFile (promised faults) output named fuel sourceFilename).Outcome volume (0, finish)
      after) :
    finish.accepted = content ↔ output.Delivers named content := by
  obtain ⟨outcome, middle, opening, rest⟩ := Program.outcome_bind.mp run
  cases outcome with
  | error code => exact absurd (Prod.mk.inj (Program.outcome_pure.mp rest).1).1 (by decide)
  | ok inputFile =>
    obtain rfl : content = inputFile.stored := by
      unfold Program.Outcome promised FatVolume.call at opening
      dsimp only at opening
      split at opening
      · simp at opening
      · simp only [present, Option.getD_some, Except.ok.injEq, Prod.mk.injEq] at opening
        exact congrArg OutputFile.stored opening.1
    exact getContents_complete_iff (promised_readsInOrder faults) rfl rest

/-- A volume with a file. -/
def volumeOf (content : List UInt8) : FatVolume :=
    ⟨.lp64, 512, Nat.succ_pos 511, 0, fun _ => content, 0⟩

/-- No call of the driver fails. -/
def faultless : Faults := ⟨fun _ => none, 0, none⟩

/-- A file of one block, read to its end by a read of nothing, is stored by calls that store a block
each. -/
theorem getFile_complete_iff_block : ∃ finish after,
    (getFile (promised faultless) ⟨fun _ => bufferSize, none⟩ true 2 []).Outcome
      (volumeOf (List.replicate bufferSize 0)) (0, finish) after ∧
      finish.accepted = List.replicate bufferSize 0 := by
  have returns : (getFile (promised faultless) ⟨fun _ => bufferSize, none⟩ true 2 []
      (volumeOf (List.replicate bufferSize 0))).toOption.map (·.1.1) = some 0 := by decide +kernel
  obtain ⟨⟨_, finish⟩, after, run, rfl⟩ := Program.outcome_of_observed returns
  refine ⟨finish, after, run, (getFile_complete_iff _ _ _ _ _ _ _ _ _ rfl run).mpr ?_⟩
  exact ⟨fun _ _ => Nat.min_le_left _ _, fun _ _ none => absurd none (by simp)⟩

/-- A call that stores nothing is not noticed. -/
theorem not_getFile_complete :
    ¬ ∀ (faults : Faults) (output : Output) (named : Bool) (fuel : Nat) (sourceFilename : FatPath)
      (content : List UInt8) (volume after : FatVolume) (finish : OutputStream),
      volume.file sourceFilename = some content →
      (getFile (promised faults) output named fuel sourceFilename).Outcome volume
      (0, finish) after → finish.accepted = content := by
  intro always
  have returns : (getFile (promised faultless) ⟨fun _ => 0, none⟩ true 1 []
      (volumeOf [0x61])).toOption.map (fun done => (done.1.1, done.1.2.accepted)) =
        some (0, []) := by decide +kernel
  obtain ⟨⟨_, finish⟩, after, run, same⟩ := Program.outcome_of_observed returns
  obtain ⟨rfl, nothing⟩ := Prod.mk.inj same
  have whole := always _ _ _ _ _ [0x61] (volumeOf [0x61]) after finish rfl run
  exact absurd (nothing.symm.trans whole) (by decide)

/-! ### The loop over the sectors of a volume -/

namespace Ff

open Program

/-- The library whose streams behave in this way. What closing loses is not seen by the command. -/
def outputStdio (output : Output) : Stdio where
  Stream := OutputStream
  stdout := .blank
  fopen _ := return some .blank
  fwrite buffer stream := return stream.fwrite output buffer
  fclose _ := return
  fopen_files _ := filesOnly_pure _
  fwrite_files _ _ := filesOnly_pure _
  fclose_files _ := filesOnly_pure _

section Sectors

variable {Result : Type} {state finish : Driver} {file : Nat} {fp : Fil}

theorem outcome_onMachine {call : Program Machine Result} {result : Result} :
    (onMachine call).Outcome state result finish ↔
      ∃ machine, call.Outcome state.machine result machine ∧ finish = { state with machine } := by
  unfold Outcome onMachine
  cases call state.machine with
  | error machine => simp
  | ok done =>
    simp only [Except.ok.injEq, Prod.mk.injEq]
    constructor
    · rintro ⟨rfl, rfl⟩
      exact ⟨done.2, Prod.ext rfl rfl, rfl⟩
    · rintro ⟨machine, rfl, rfl⟩
      exact ⟨rfl, rfl⟩

/-- A call on a file object in memory. -/
theorem outcome_onFil {call : Fil → Program Machine (FResult × Result × Fil)}
    {outcome : Except FResult Result} (present : state.fils[file]? = some fp) :
    (onFil file call).Outcome state outcome finish ↔ ∃ done machine,
      (call fp).Outcome state.machine done machine ∧
        outcome = (if done.1 = .ok then .ok done.2.1 else .error done.1) ∧
        finish = ⟨machine, state.fils.set file done.2.2⟩ := by
  rw [onFil, outcome_bind]
  constructor
  · rintro ⟨_, _, got, run⟩
    obtain ⟨rfl, rfl⟩ := outcome_get.mp got
    simp only [present] at run
    obtain ⟨done, _, lifted, rest⟩ := outcome_bind.mp run
    obtain ⟨machine, called, rfl⟩ := outcome_onMachine.mp lifted
    obtain ⟨_, _, stored, returned⟩ := outcome_bind.mp rest
    obtain rfl := outcome_modify.mp stored
    obtain ⟨rfl, rfl⟩ := outcome_pure.mp returned
    exact ⟨done, machine, called, rfl, rfl⟩
  · rintro ⟨done, machine, called, rfl, rfl⟩
    refine ⟨state, state, outcome_get.mpr ⟨rfl, rfl⟩, ?_⟩
    simp only [present]
    refine outcome_bind.mpr ⟨done, _, outcome_onMachine.mpr ⟨machine, called, rfl⟩, ?_⟩
    exact outcome_bind.mpr ⟨(), _, outcome_modify.mpr rfl, outcome_pure.mpr ⟨rfl, rfl⟩⟩

theorem fRead_driver {btr : Nat} {outcome : Except FResult (List UInt8 × Nat)}
    (present : state.fils[file]? = some fp) :
    (driver.fRead file btr).Outcome state outcome finish ↔ ∃ done machine,
      (fRead fp btr).Outcome state.machine done machine ∧
        outcome = (if done.1 = .ok then .ok (done.2.1, file) else .error done.1) ∧
        finish = ⟨machine, state.fils.set file done.2.2⟩ := by
  refine (outcome_onFil present).trans ⟨?_, ?_⟩
  · rintro ⟨_, machine, called, same, rest⟩
    obtain ⟨done, _, read, returned⟩ := outcome_bind.mp called
    obtain ⟨rfl, rfl⟩ := outcome_pure.mp returned
    exact ⟨done, _, read, same, rest⟩
  · rintro ⟨done, machine, read, same, rest⟩
    exact ⟨_, machine, outcome_bind.mpr ⟨done, machine, read, outcome_pure.mpr ⟨rfl, rfl⟩⟩,
      same, rest⟩

theorem fClose_driver {outcome : Except FResult PUnit} (present : state.fils[file]? = some fp) :
    (driver.fClose file).Outcome state outcome finish ↔ ∃ done machine,
      (fClose fp).Outcome state.machine done machine ∧
        outcome = (if done.1 = .ok then .ok () else .error done.1) ∧
        finish = ⟨machine, state.fils.set file done.2⟩ := by
  refine (outcome_onFil present).trans ⟨?_, ?_⟩
  · rintro ⟨_, machine, called, same, rest⟩
    obtain ⟨done, _, closed, returned⟩ := outcome_bind.mp called
    obtain ⟨rfl, rfl⟩ := outcome_pure.mp returned
    exact ⟨done, _, closed, same, rest⟩
  · rintro ⟨done, machine, closed, same, rest⟩
    exact ⟨_, machine, outcome_bind.mpr ⟨done, machine, closed, outcome_pure.mpr ⟨rfl, rfl⟩⟩,
      same, rest⟩

theorem closeOutput_same {output : Output} {outputFilename : Option FileName}
    {stream : OutputStream}
    {machine after : Machine} {result : PUnit}
    (run : (closeOutput (outputStdio output) outputFilename stream).Outcome machine result after) :
    after = machine := by
  unfold closeOutput at run
  split_ifs at run
  · exact (outcome_pure.mp run).2
  · exact (outcome_pure.mp run).2

/-- The loop of the command over the sectors of a volume goes on as this one does over the driver
for them, by induction on its turns. -/
theorem getContents_of_getLoop {output : Output} {outputFilename : Option FileName} {fuel : Nat}
    {stream : OutputStream} {result : Int} {machine : Machine}
    (present : state.fils[file]? = some fp)
    (run : (getLoop (outputStdio output) outputFilename fuel fp stream).Outcome state.machine result
        machine) :
    ∃ last fils, (getContents driver.toFatFiles output outputFilename.isSome fuel file
      stream).Outcome state (result, last) ⟨machine, fils⟩ := by
  induction fuel generalizing state fp stream with
  | zero => exact absurd run outcome_undefined
  | succ fuel inductionHypothesis =>
    have inside : file < state.fils.length := (List.getElem?_eq_some_iff.mp present).1
    have again (fp : Fil) : (state.fils.set file fp)[file]? = some fp :=
      List.getElem?_set_self inside
    obtain ⟨read, middle, reading, rest⟩ := outcome_bind.mp run
    have begun := (fRead_driver present).mpr ⟨read, middle, reading, rfl, rfl⟩
    by_cases failed : read.1 ≠ .ok
    · rw [if_pos failed] at rest
      rw [if_neg failed] at begun
      obtain ⟨closed, _, closing, returned⟩ := outcome_bind.mp rest
      obtain ⟨rfl, rfl⟩ := outcome_pure.mp returned
      have ended := (@fClose_driver ⟨_, _⟩ _ _ _ _ (again _)).mpr
        ⟨closed, machine, closing, rfl, rfl⟩
      exact ⟨stream, _, outcome_bind.mpr ⟨_, _, begun, outcome_bind.mpr ⟨_, _, ended,
        outcome_pure.mpr ⟨rfl, rfl⟩⟩⟩⟩
    · rw [if_neg failed] at rest
      rw [if_pos (not_not.mp failed)] at begun
      obtain ⟨next, _, stored, goesOn⟩ := outcome_bind.mp rest
      obtain ⟨rfl, rfl⟩ := outcome_pure.mp stored
      by_cases full : read.2.1.length = bufferSize
      · rw [if_pos full] at goesOn
        obtain ⟨last, fils, looped⟩ := @inductionHypothesis ⟨_, _⟩ _ _ (again _) goesOn
        refine ⟨last, fils, outcome_bind.mpr ⟨_, _, begun, ?_⟩⟩
        dsimp only
        rw [if_pos full]
        exact looped
      · rw [if_neg full] at goesOn
        obtain ⟨closed, _, closing, ending⟩ := outcome_bind.mp goesOn
        have ended := (@fClose_driver ⟨_, _⟩ _ _ _ _ (again _)).mpr ⟨closed, _, closing, rfl, rfl⟩
        obtain ⟨_, _, shut, returned⟩ := outcome_bind.mp ending
        obtain ⟨rfl, rfl⟩ := outcome_pure.mp returned
        obtain rfl := closeOutput_same shut
        let stored := stream.fwrite output read.2.1
        refine ⟨if outputFilename.isSome then stored.fclose output else stored,
          (state.fils.set file read.2.2).set file closed.2, outcome_bind.mpr ⟨_, _, begun, ?_⟩⟩
        dsimp only
        rw [if_neg full]
        exact outcome_bind.mpr ⟨_, _, ended, outcome_pure.mpr ⟨rfl, rfl⟩⟩

end Sectors
end Ff
end Hdfmonkey
