/-
This file proves when the exit status of `cmd_put` covers the whole tree.

Any call of the driver and of the local machine may fail, and a directory that is tested
may be there or not. A name that FAT rejects is a failure of every call that is given it.
`put_file` drops the results of its calls for the entries of a directory, and `cmd_put`
those of its calls for several sources. So zero covers the tree exactly if no call fails
that the tree prescribes, other than the closing of a file and the test of a directory
that exists.
-/

import Hdfmonkey.PutTree

namespace Hdfmonkey

/-- What becomes of the calls, by their numbers: the code each fails with, whether the directory it
tests exists, the bytes it writes at most, and which reads of the file it opens fail. -/
structure PutFates where
  code : Nat → Option FResult
  present : Nat → Bool
  most : Nat → Nat
  reading : Nat → List Bool

/-- A call of `put_file` that has returned. -/
structure PutReturn where
  source : FatPath
  dest : FatPath
  result : Int

/-- The number of calls so far, whether the directory that was tested last exists, and the notes,
newest first: the results of `put_file`, and for each directory that was not created whether it
exists. -/
structure PutLog where
  calls : Nat
  here : Bool
  returned : List PutReturn
  notCreated : List (FatPath × Bool)

/-- The log after some calls without a note. -/
def PutLog.advance (log : PutLog) (calls : Nat) : PutLog :=
  { log with calls := log.calls + calls }

/-- A call that fails or has a result. -/
def numbered {Result : Type} (fates : PutFates) (answer : Nat → Result) :
    Program PutLog (Except FResult Result) := fun log =>
  .ok (match fates.code log.calls with
    | some code => .error code
    | none => .ok (answer log.calls), log.advance 1)

/-- The answer of `f_opendir`. -/
def PutFates.opendir (fates : PutFates) (number : Nat) : Except FResult PUnit :=
  match fates.code number with
  | some code => .error code
  | none => if fates.present number then .ok () else .error .noPath

/-- The driver with calls that may fail. -/
def putDriver (fates : PutFates) : FatFs PutLog PUnit PUnit where
  fOpen _ _ := numbered fates fun _ => ()
  fRead _ _ := numbered fates fun _ => ([], ())
  fWrite _ buff := numbered fates fun number => (min (fates.most number) buff.length, ())
  fClose _ := numbered fates fun _ => ()
  fOpendir _ := fun log =>
    .ok (fates.opendir log.calls, { log.advance 1 with here := fates.present log.calls })
  fReaddir _ := numbered fates fun _ => (none, ())
  fMkdir _ := numbered fates fun _ => ()

/-- The local machine with calls that may fail. -/
def LocalTree.calls (tree : LocalTree) (fates : PutFates) : LocalFs PutLog where
  isDirectory := tree.isDirectory
  opendir path := fun log => .ok (match fates.code log.calls with
    | some _ => none
    | none => some (tree.listing path), log.advance 1)
  fopen path := fun log => .ok (match fates.code log.calls with
    | some _ => none
    | none => some ⟨tree.content path, fates.reading log.calls⟩, log.advance 1)

/-- Take a note. -/
def takeNote : PutNote → Program PutLog PUnit
  | .returned sourceFilename destFilename result => modify fun log =>
    { log with returned := ⟨sourceFilename, destFilename, result⟩ :: log.returned }
  | .notCreated destFilename => modify fun log =>
    { log with notCreated := (destFilename, log.here) :: log.notCreated }

/-! ### What zero stands for -/

/-- A path that is to be put, and where. -/
inductive LocalTree.Requested (tree : LocalTree) (pairs : List (FatPath × FatPath)) :
    FatPath → FatPath → Prop where
  | source {sourceFilename destFilename : FatPath}
      (named : (sourceFilename, destFilename) ∈ pairs) :
    tree.Requested pairs sourceFilename destFilename
  | entry {sourceFilename destFilename name : FatPath}
      (parent : tree.Requested pairs sourceFilename destFilename)
      (directory : tree.isDirectory sourceFilename = true)
      (listed : name ∈ tree.listing sourceFilename) (proper : name ∉ dotNames) :
    tree.Requested pairs (concatFilename sourceFilename name) (concatFilename destFilename name)

/-- No call of `put_file` has failed, and every directory that was not created exists. -/
structure PutLog.Clean (log : PutLog) : Prop where
  succeeded : ∀ call ∈ log.returned, call.result ≠ -1
  created : ∀ directory ∈ log.notCreated, directory.2 = true

/-- Moreover everything requested was put. -/
structure LocalTree.Covered (tree : LocalTree) (pairs : List (FatPath × FatPath)) (log : PutLog) :
    Prop extends log.Clean where
  put : ∀ sourceFilename destFilename, tree.Requested pairs sourceFilename destFilename →
    ∃ call ∈ log.returned, call.source = sourceFilename ∧ call.dest = destFilename

/-- What `cmd_put` puts where: with a destination directory its sources, otherwise its first
argument, which is the destination itself if there is no other. -/
def putPairs (copyingToDir : Bool) (arguments : List FatPath) : List (FatPath × FatPath) :=
  let destPath := stripTrailingSlash (arguments.getLastD [])
  if copyingToDir then putArguments destPath arguments.dropLast
  else [((arguments.dropLast ++ [destPath]).headD [], destPath)]

/-! ### The calls that a tree prescribes -/

section Stored

variable (tree : LocalTree) (fates : PutFates)

/-- The calls from one number to another put the rest of a file. The last of them closes it, and
may fail. -/
inductive ContentsStored : LocalFile → Nat → Nat → Prop where
  | empty {file : LocalFile} {number : Nat} (served : file.failing.headD false = false)
      (nothing : file.rest = []) : ContentsStored file number (number + 1)
  | short {file : LocalFile} {number : Nat} (served : file.failing.headD false = false)
      (some : file.rest ≠ []) (less : file.rest.length < bufferSize)
      (written : fates.code number = none) : ContentsStored file number (number + 2)
  | full {file : LocalFile} {number last : Nat} (served : file.failing.headD false = false)
      (more : bufferSize ≤ file.rest.length) (written : fates.code number = none)
      (others : ContentsStored ⟨file.rest.drop bufferSize, file.failing.tail⟩ (number + 1) last) :
    ContentsStored file number last

mutual

/-- The calls from one number to another put a path. A directory is created if the test finds that
it is not there, and it exists if the test does not. -/
inductive Stored : FatPath → Nat → Nat → Prop where
  | file {sourceFilename : FatPath} {number last : Nat}
      (regular : tree.isDirectory sourceFilename = false) (opened : fates.code number = none)
      (created : fates.code (number + 1) = none)
      (contents : ContentsStored fates
        ⟨tree.content sourceFilename, fates.reading number⟩ (number + 2) last) :
    Stored sourceFilename number last
  | new {sourceFilename : FatPath} {number last : Nat}
      (directory : tree.isDirectory sourceFilename = true)
      (absent : fates.opendir number = .error .noPath) (made : fates.code (number + 1) = none)
      (opened : fates.code (number + 2) = none)
      (inside : EntriesStored sourceFilename (tree.listing sourceFilename) (number + 3) last) :
    Stored sourceFilename number last
  | old {sourceFilename : FatPath} {number last : Nat}
      (directory : tree.isDirectory sourceFilename = true)
      (tested : fates.opendir number ≠ .error .noPath) (there : fates.present number = true)
      (opened : fates.code (number + 1) = none)
      (inside : EntriesStored sourceFilename (tree.listing sourceFilename) (number + 2) last) :
    Stored sourceFilename number last

/-- The calls from one number to another put entries of a directory. -/
inductive EntriesStored : FatPath → List FatPath → Nat → Nat → Prop where
  | nil {sourceFilename : FatPath} {number : Nat} : EntriesStored sourceFilename [] number number
  | dots {sourceFilename name : FatPath} {entries : List FatPath} {number last : Nat}
      (skipped : name ∈ dotNames)
      (others : EntriesStored sourceFilename entries number last) :
    EntriesStored sourceFilename (name :: entries) number last
  | entry {sourceFilename name : FatPath} {entries : List FatPath} {number middle last : Nat}
      (proper : name ∉ dotNames)
      (stored : Stored (concatFilename sourceFilename name) number middle)
      (others : EntriesStored sourceFilename entries middle last) :
    EntriesStored sourceFilename (name :: entries) number last

end

/-- The calls from one number to another put the sources. -/
inductive SourcesStored : List (FatPath × FatPath) → Nat → Nat → Prop where
  | nil {number : Nat} : SourcesStored [] number number
  | cons {source : FatPath × FatPath} {sources : List (FatPath × FatPath)}
      {number middle last : Nat} (stored : Stored tree fates source.1 number middle)
      (others : SourcesStored sources middle last) :
    SourcesStored (source :: sources) number last

end Stored

/-! ### Calls -/

section Calls

variable {fates : PutFates} {log after : PutLog}

theorem numbered_ok {Result : Type} {answer : Nat → Result} {value : Result}
    (run : (numbered fates answer).Outcome log (.ok value) after) :
    fates.code log.calls = none ∧ value = answer log.calls ∧ after = log.advance 1 := by
  obtain ⟨result, rfl⟩ := Prod.mk.inj (Except.ok.inj run)
  split at result
  · exact absurd result (by simp)
  · rename_i good
    exact ⟨good, (Except.ok.inj result).symm, rfl⟩

theorem numbered_error {Result : Type} {answer : Nat → Result} {code : FResult}
    (run : (numbered fates answer).Outcome log (.error code) after) :
    fates.code log.calls = some code ∧ after = log.advance 1 := by
  obtain ⟨result, rfl⟩ := Prod.mk.inj (Except.ok.inj run)
  split at result
  · rename_i failed
    exact ⟨failed.trans (congrArg some (Except.error.inj result)), rfl⟩
  · exact absurd result (by simp)

theorem numbered_after {Result : Type} {answer : Nat → Result} {result : Except FResult Result}
    (run : (numbered fates answer).Outcome log result after) : after = log.advance 1 :=
  (Prod.mk.inj (Except.ok.inj run)).2.symm

section Driver

variable {result : Except FResult PUnit} {buff : List UInt8} {code : FResult} {path : FatPath}

theorem fClose_after (run : ((putDriver fates).fClose ()).Outcome log result after) :
    after = log.advance 1 := by
  have call : (numbered fates fun _ => ()).Outcome log result after := run
  exact numbered_after call

theorem fWrite_error
    (run : ((putDriver fates).fWrite () buff).Outcome log (.error code) after) :
    fates.code log.calls = some code ∧ after = log.advance 1 := by
  have call : (numbered fates fun number => (min (fates.most number) buff.length, ())).Outcome log
    (.error code) after := run
  exact numbered_error call

theorem fWrite_good {output : Nat × PUnit}
    (run : ((putDriver fates).fWrite () buff).Outcome log (.ok output) after) :
    fates.code log.calls = none ∧ after = log.advance 1 := by
  have call : (numbered fates fun number => (min (fates.most number) buff.length, ())).Outcome log
    (.ok output) after := run
  obtain ⟨good, _, becomes⟩ := numbered_ok call
  exact ⟨good, becomes⟩

/-- A call without a result to speak of succeeds exactly if it does not fail. -/
theorem numbered_unit
    (run : (numbered fates fun _ => ()).Outcome log result after) :
    after = log.advance 1 ∧ (result = .ok () ↔ fates.code log.calls = none) := by
  refine ⟨numbered_after run, ?_⟩
  cases result with
  | error code =>
    rw [(numbered_error run).1]
    exact iff_of_false (by simp) (by simp)
  | ok value => exact iff_of_true rfl (numbered_ok run).1

theorem fMkdir_cases (run : ((putDriver fates).fMkdir path).Outcome log result after) :
    after = log.advance 1 ∧ (result = .ok () ↔ fates.code log.calls = none) :=
  numbered_unit run

theorem fOpen_cases {mode : OpenMode}
    (run : ((putDriver fates).fOpen path mode).Outcome log result after) :
    after = log.advance 1 ∧ (result = .ok () ↔ fates.code log.calls = none) :=
  numbered_unit run

/-- The log after the test of a directory. -/
def PutLog.tested (log : PutLog) (present : Bool) : PutLog :=
  { log.advance 1 with here := present }

/-- A directory is taken for missing only if the answer says so. -/
theorem fatPathIsDir_cases {answer : Int}
    (run : (fatPathIsDir (putDriver fates) path).Outcome log answer after) :
    after = log.tested (fates.present log.calls) ∧
      (answer = 0 ↔ fates.opendir log.calls = .error .noPath) ∧
      (answer = 1 ↔ fates.opendir log.calls = .ok ()) ∧
        (answer = -1 ∨ answer = 0 ∨ answer = 1) := by
  obtain ⟨opened, middle, test, rest⟩ := Program.outcome_bind.mp run
  obtain ⟨rfl, rfl⟩ := Prod.mk.inj (Except.ok.inj test)
  cases found : fates.opendir log.calls with
  | ok value =>
    rw [found] at rest
    obtain ⟨rfl, rfl⟩ := Program.outcome_pure.mp rest
    exact ⟨rfl, by simp, by simp, by simp⟩
  | error code =>
    rw [found] at rest
    cases code
    case noPath =>
      obtain ⟨rfl, rfl⟩ := Program.outcome_pure.mp rest
      exact ⟨rfl, by simp, by simp, by simp⟩
    all_goals
      obtain ⟨rfl, rfl⟩ := Program.outcome_pure.mp rest
      exact ⟨rfl, by simp, by simp, by simp⟩

/-- `fopen` and `opendir` deliver something exactly if the call does not fail. -/
theorem fopen_cases {tree : LocalTree} {inputFile : Option LocalFile}
    (run : ((tree.calls fates).fopen path).Outcome log inputFile after) :
    after = log.advance 1 ∧ inputFile =
      if fates.code log.calls = none then
        some ⟨tree.content path, fates.reading log.calls⟩ else none := by
  obtain ⟨opened, rfl⟩ := Prod.mk.inj (Except.ok.inj run)
  refine ⟨rfl, opened.symm.trans ?_⟩
  cases fates.code log.calls with
  | none => rfl
  | some code => rfl

theorem opendir_cases {tree : LocalTree} {entries : Option (List FatPath)}
    (run : ((tree.calls fates).opendir path).Outcome log entries after) :
    after = log.advance 1 ∧ entries =
      if fates.code log.calls = none then some (tree.listing path) else none := by
  obtain ⟨opened, rfl⟩ := Prod.mk.inj (Except.ok.inj run)
  refine ⟨rfl, opened.symm.trans ?_⟩
  cases fates.code log.calls with
  | none => rfl
  | some code => rfl

end Driver

/-- The notes of a log are at the end of another's. -/
structure PutLog.Before (log after : PutLog) : Prop where
  returned : log.returned <:+ after.returned
  notCreated : log.notCreated <:+ after.notCreated

theorem PutLog.Before.refl (log : PutLog) : log.Before log :=
  ⟨List.suffix_rfl, List.suffix_rfl⟩

theorem PutLog.Before.trans {middle : PutLog} (first : log.Before middle)
    (second : middle.Before after) : log.Before after :=
  ⟨first.returned.trans second.returned, first.notCreated.trans second.notCreated⟩

theorem PutLog.before_advance (log : PutLog) (calls : Nat) : log.Before (log.advance calls) :=
  ⟨List.suffix_rfl, List.suffix_rfl⟩

theorem PutLog.Clean.of_before (clean : after.Clean) (before : log.Before after) : log.Clean where
  succeeded call member := clean.succeeded call (before.returned.subset member)
  created directory member := clean.created directory (before.notCreated.subset member)

theorem PutLog.Clean.advance (clean : log.Clean) (calls : Nat) : (log.advance calls).Clean :=
  ⟨clean.succeeded, clean.created⟩

/-- A part of the program makes its calls from one number to another: it does if nothing that counts
has failed in it, and if they may be made then it makes just them. -/
structure Makes (program : Program PutLog Int) (plan : Nat → Nat → Prop) : Prop where
  before : ∀ log result after, program.Outcome log result after → log.Before after
  planned : ∀ log result after, program.Outcome log result after → after.Clean → result ≠ -1 →
    plan log.calls after.calls
  made : ∀ log result after last, program.Outcome log result after → plan log.calls last →
    log.Clean → result = 0 ∧ after.calls = last ∧ after.Clean

theorem makes_undefined {plan : Nat → Nat → Prop} :
    Makes (Program.undefined : Program PutLog Int) plan where
  before _ _ _ run := absurd run Program.outcome_undefined
  planned _ _ _ run := absurd run Program.outcome_undefined
  made _ _ _ _ run := absurd run Program.outcome_undefined

theorem makes_zero {plan : Nat → Nat → Prop} (nothing : ∀ number last, plan number last ↔
    last = number) : Makes (pure 0 : Program PutLog Int) plan := by
  refine ⟨fun log result after run => ?_, fun log result after run clean good => ?_,
    fun log result after last run planned clean => ?_⟩
  all_goals obtain ⟨rfl, rfl⟩ := Program.outcome_pure.mp run
  · exact .refl _
  · exact (nothing _ _).mpr rfl
  · exact ⟨rfl, ((nothing _ _).mp planned).symm, clean⟩

end Calls

/-! ### The contents of a file -/

section Contents

variable {fates : PutFates} {log after : PutLog} {fuel : Nat} {inputFile : LocalFile} {result : Int}

/-- One turn of the loop over the contents. -/
theorem putContents_turn
    (run : (putContents (putDriver fates).toFatFiles (fuel + 1) inputFile ()).Outcome log result
      after) :
    (inputFile.failing.headD false = true ∧ result = -1 ∧ after = log) ∨
    (inputFile.failing.headD false = false ∧
      ((inputFile.rest = [] ∧ result = 0 ∧ after = log.advance 1) ∨
      (inputFile.rest ≠ [] ∧ fates.code log.calls ≠ none ∧ result = -1 ∧ after = log.advance 2) ∨
      (inputFile.rest ≠ [] ∧ fates.code log.calls = none ∧ inputFile.rest.length < bufferSize ∧
        result = 0 ∧ after = log.advance 2) ∨
      (fates.code log.calls = none ∧ bufferSize ≤ inputFile.rest.length ∧
        (putContents (putDriver fates).toFatFiles fuel
          ⟨inputFile.rest.drop bufferSize, inputFile.failing.tail⟩ ()).Outcome (log.advance 1)
            result after))) := by
  have size : (inputFile.rest.take bufferSize).length = min bufferSize inputFile.rest.length :=
    List.length_take
  have nonempty : inputFile.rest.take bufferSize = [] ↔ inputFile.rest = [] := by
    rw [← List.length_eq_zero_iff, ← List.length_eq_zero_iff, size, bufferSize]
    omega
  rw [putContents] at run
  by_cases failing : inputFile.failing.headD false = true
  · rw [if_pos failing] at run
    exact Or.inl ⟨failing, Program.outcome_pure.mp run⟩
  rw [if_neg failing] at run
  refine Or.inr ⟨Bool.eq_false_iff.mpr failing, ?_⟩
  obtain ⟨outcome, middle, written, rest⟩ := Program.outcome_bind.mp run
  by_cases nothing : inputFile.rest = []
  · rw [if_pos (nonempty.mpr nothing)] at written
    obtain ⟨rfl, rfl⟩ := Program.outcome_pure.mp written
    have short : (inputFile.rest.take bufferSize).length ≠ bufferSize := by
      rw [size, nothing, bufferSize]
      decide
    dsimp only at rest
    rw [if_neg short] at rest
    obtain ⟨_, closed, close, returned⟩ := Program.outcome_bind.mp rest
    obtain ⟨rfl, rfl⟩ := Program.outcome_pure.mp returned
    exact Or.inl ⟨nothing, rfl, fClose_after close⟩
  rw [if_neg (mt nonempty.mp nothing)] at written
  cases outcome with
  | error code =>
    obtain ⟨failed, rfl⟩ := fWrite_error written
    obtain ⟨_, closed, close, returned⟩ := Program.outcome_bind.mp rest
    obtain ⟨rfl, rfl⟩ := Program.outcome_pure.mp returned
    exact Or.inr (Or.inl ⟨nothing, by rw [failed]; exact Option.some_ne_none _, rfl,
      fClose_after close⟩)
  | ok output =>
    obtain ⟨good, rfl⟩ := fWrite_good written
    dsimp only at rest
    by_cases full : (inputFile.rest.take bufferSize).length = bufferSize
    · rw [if_pos full] at rest
      exact Or.inr (Or.inr (Or.inr ⟨good, by omega, rest⟩))
    · rw [if_neg full] at rest
      obtain ⟨_, closed, close, returned⟩ := Program.outcome_bind.mp rest
      obtain ⟨rfl, rfl⟩ := Program.outcome_pure.mp returned
      exact Or.inr (Or.inr (Or.inl ⟨nothing, good, by omega, rfl, fClose_after close⟩))

theorem putContents_makes :
    Makes (putContents (putDriver fates).toFatFiles fuel inputFile ())
      (ContentsStored fates inputFile) := by
  induction fuel generalizing inputFile with
  | zero => exact makes_undefined
  | succ fuel inductionHypothesis =>
    refine ⟨fun log result after run => ?_, fun log result after run clean good => ?_,
      fun log result after last run planned clean => ?_⟩
    · rcases putContents_turn run with ⟨_, _, rfl⟩ | ⟨_, ⟨_, _, rfl⟩ | ⟨_, _, _, rfl⟩ |
        ⟨_, _, _, _, rfl⟩ | ⟨_, _, rest⟩⟩
      · exact .refl _
      · exact log.before_advance 1
      · exact log.before_advance 2
      · exact log.before_advance 2
      · exact (log.before_advance 1).trans (inductionHypothesis.before _ _ _ rest)
    · rcases putContents_turn run with ⟨_, rfl, _⟩ | ⟨served, ⟨nothing, _, rfl⟩ |
        ⟨_, _, rfl, _⟩ | ⟨some, written, less, _, rfl⟩ | ⟨written, more, rest⟩⟩
      · exact absurd rfl good
      · exact .empty served nothing
      · exact absurd rfl good
      · exact .short served some less written
      · exact .full served more written (inductionHypothesis.planned _ _ _ rest clean good)
    · have turn := putContents_turn run
      cases planned with
      | empty served nothing =>
        rcases turn with ⟨failing, _⟩ | ⟨_, ⟨_, zero, rfl⟩ | ⟨some, _⟩ | ⟨some, _⟩ | ⟨_, more, _⟩⟩
        · exact absurd (served.symm.trans failing) (by decide)
        · exact ⟨zero, rfl, clean.advance 1⟩
        · exact absurd nothing some
        · exact absurd nothing some
        · rw [nothing, bufferSize] at more
          exact absurd more (by decide)
      | short served some less written =>
        rcases turn with ⟨failing, _⟩ | ⟨_, ⟨nothing, _⟩ | ⟨_, failed, _⟩ | ⟨_, _, _, zero, rfl⟩ |
          ⟨_, more, _⟩⟩
        · exact absurd (served.symm.trans failing) (by decide)
        · exact absurd nothing some
        · exact absurd written failed
        · exact ⟨zero, rfl, clean.advance 2⟩
        · omega
      | full served more written others =>
        rcases turn with ⟨failing, _⟩ | ⟨_, ⟨nothing, _⟩ | ⟨_, failed, _⟩ | ⟨_, _, less, _⟩ |
          ⟨_, _, rest⟩⟩
        · exact absurd (served.symm.trans failing) (by decide)
        · rw [nothing, bufferSize] at more
          exact absurd more (by decide)
        · exact absurd written failed
        · omega
        · exact inductionHypothesis.made _ _ _ _ rest others (clean.advance 1)

end Contents

/-! ### Files and directories -/

section Tree

variable {tree : LocalTree} {fates : PutFates} {log after : PutLog} {fuel : Nat}
  {sourceFilename destFilename : FatPath}

/-- A function that puts a path makes the calls for it and takes note of its result. -/
structure Puts (tree : LocalTree) (fates : PutFates)
    (put : FatPath → FatPath → Program PutLog Int) : Prop where
  makes : ∀ sourceFilename destFilename,
    Makes (put sourceFilename destFilename) (Stored tree fates sourceFilename)
  noted : ∀ sourceFilename destFilename log result after,
    (put sourceFilename destFilename).Outcome log result after → after.Clean → result ≠ -1

/-- A regular file cannot be opened on either side, or its contents are put. -/
theorem putFile_cases {result : Int}
    (run : (do
        let inputFile ← (tree.calls fates).fopen sourceFilename
        putFile (putDriver fates).toFatFiles fuel inputFile destFilename : Program _ _).Outcome log
          result after) :
    (¬ (fates.code log.calls = none ∧ fates.code (log.calls + 1) = none) ∧ result = -1 ∧
      (after = log.advance 1 ∨ after = log.advance 2)) ∨
    (fates.code log.calls = none ∧ fates.code (log.calls + 1) = none ∧
      (putContents (putDriver fates).toFatFiles fuel
        ⟨tree.content sourceFilename, fates.reading log.calls⟩ ()).Outcome (log.advance 2)
          result after) := by
  obtain ⟨inputFile, middle, opened, rest⟩ := Program.outcome_bind.mp run
  obtain ⟨rfl, rfl⟩ := fopen_cases opened
  by_cases good : fates.code log.calls = none
  · rw [if_pos good, putFile] at rest
    obtain ⟨answer, created, create, contents⟩ := Program.outcome_bind.mp rest
    obtain ⟨rfl, same⟩ := fOpen_cases create
    cases answer with
    | error code =>
      obtain ⟨rfl, rfl⟩ := Program.outcome_pure.mp contents
      refine Or.inl ⟨fun both => ?_, rfl, Or.inr rfl⟩
      exact absurd (same.mpr both.2) (by simp)
    | ok output => exact Or.inr ⟨good, same.mp rfl, contents⟩
  · rw [if_neg good, putFile] at rest
    obtain ⟨rfl, rfl⟩ := Program.outcome_pure.mp rest
    exact Or.inl ⟨fun both => good both.1, rfl, Or.inl rfl⟩

theorem putFile_makes :
    Makes (do
        let inputFile ← (tree.calls fates).fopen sourceFilename
        putFile (putDriver fates).toFatFiles fuel inputFile destFilename)
      fun number last => fates.code number = none ∧ fates.code (number + 1) = none ∧
        ContentsStored fates ⟨tree.content sourceFilename, fates.reading number⟩ (number + 2)
          last := by
  refine ⟨fun log result after run => ?_, fun log result after run clean good => ?_,
    fun log result after last run planned clean => ?_⟩
  · rcases putFile_cases run with ⟨_, _, rfl | rfl⟩ | ⟨_, _, contents⟩
    · exact log.before_advance 1
    · exact log.before_advance 2
    · exact (log.before_advance 2).trans (putContents_makes.before _ _ _ contents)
  · rcases putFile_cases run with ⟨_, failed, _⟩ | ⟨opened, created, contents⟩
    · exact absurd failed good
    · exact ⟨opened, created, putContents_makes.planned _ _ _ contents clean good⟩
  · obtain ⟨opened, created, stored⟩ := planned
    rcases putFile_cases run with ⟨failed, _⟩ | ⟨_, _, contents⟩
    · exact absurd ⟨opened, created⟩ failed
    · exact putContents_makes.made _ _ _ _ contents stored (clean.advance 2)

theorem putEntries_makes {put : FatPath → FatPath → Program PutLog Int}
    (puts : Puts tree fates put) {entries : List FatPath} :
    Makes (putEntries put sourceFilename destFilename entries)
      (EntriesStored tree fates sourceFilename entries) := by
  induction entries with
  | nil =>
    refine makes_zero fun number last => ⟨fun stored => ?_, fun same => ?_⟩
    · cases stored
      rfl
    · subst same
      exact .nil
  | cons name entries inductionHypothesis =>
    by_cases skipped : name ∈ dotNames
    · rw [putEntries, if_pos skipped]
      refine ⟨inductionHypothesis.before, fun log result after run clean good =>
        .dots skipped (inductionHypothesis.planned _ _ _ run clean good),
        fun log result after last run planned clean => ?_⟩
      cases planned with
      | dots _ others => exact inductionHypothesis.made _ _ _ _ run others clean
      | entry proper _ _ => exact absurd skipped proper
    · rw [putEntries, if_neg skipped]
      have child := puts.makes (concatFilename sourceFilename name)
        (concatFilename destFilename name)
      refine ⟨fun log result after run => ?_, fun log result after run clean good => ?_,
        fun log result after last run planned clean => ?_⟩
      all_goals obtain ⟨returned, middle, one, others⟩ := Program.outcome_bind.mp run
      · exact (child.before _ _ _ one).trans (inductionHypothesis.before _ _ _ others)
      · have clean' := clean.of_before (inductionHypothesis.before _ _ _ others)
        have stored := child.planned _ _ _ one clean' (puts.noted _ _ _ _ _ one clean')
        exact .entry skipped stored (inductionHypothesis.planned _ _ _ others clean good)
      · cases planned with
        | dots proper _ => exact absurd proper skipped
        | entry _ stored rest =>
          obtain ⟨_, rfl, clean'⟩ := child.made _ _ _ _ one stored clean
          exact inductionHypothesis.made _ _ _ _ others rest clean'

/-- A directory cannot be opened, or its entries are put. -/
theorem putDirectory_cases {put : FatPath → FatPath → Program PutLog Int} {result : Int}
    (run : (putDirectory (tree.calls fates) put sourceFilename destFilename).Outcome log result
      after) :
    (fates.code log.calls ≠ none ∧ result = -1 ∧ after = log.advance 1) ∨
    (fates.code log.calls = none ∧
      (putEntries put sourceFilename destFilename (tree.listing sourceFilename)).Outcome
        (log.advance 1) result after) := by
  obtain ⟨entries, middle, opened, rest⟩ := Program.outcome_bind.mp run
  obtain ⟨rfl, rfl⟩ := opendir_cases opened
  by_cases good : fates.code log.calls = none
  · rw [if_pos good] at rest
    exact Or.inr ⟨good, rest⟩
  · rw [if_neg good] at rest
    obtain ⟨rfl, rfl⟩ := Program.outcome_pure.mp rest
    exact Or.inl ⟨good, rfl, rfl⟩

theorem putDirectory_makes {put : FatPath → FatPath → Program PutLog Int}
    (puts : Puts tree fates put) :
    Makes (putDirectory (tree.calls fates) put sourceFilename destFilename)
      fun number last => fates.code number = none ∧
        EntriesStored tree fates sourceFilename (tree.listing sourceFilename)
          (number + 1) last := by
  have entries := @putEntries_makes tree fates sourceFilename destFilename put puts
    (tree.listing sourceFilename)
  refine ⟨fun log result after run => ?_, fun log result after run clean good => ?_,
    fun log result after last run planned clean => ?_⟩
  · rcases putDirectory_cases run with ⟨_, _, rfl⟩ | ⟨_, rest⟩
    · exact log.before_advance 1
    · exact (log.before_advance 1).trans (entries.before _ _ _ rest)
  · rcases putDirectory_cases run with ⟨_, failed, _⟩ | ⟨opened, rest⟩
    · exact absurd failed good
    · exact ⟨opened, entries.planned _ _ _ rest clean good⟩
  · rcases putDirectory_cases run with ⟨failed, _⟩ | ⟨_, rest⟩
    · exact absurd planned.1 failed
    · exact entries.made _ _ _ _ rest planned.2 (clean.advance 1)

/-- The log after the note that a directory was not created. -/
def PutLog.skipped (log : PutLog) (destFilename : FatPath) : PutLog :=
  { log with notCreated := (destFilename, log.here) :: log.notCreated }

/-- A directory is created, or its creation fails, or it is not created. -/
theorem putNewDirectory_cases {put : FatPath → FatPath → Program PutLog Int} {result : Int}
    (run : (putNewDirectory (putDriver fates) (tree.calls fates) takeNote put sourceFilename
      destFilename).Outcome log result after) :
    (fates.opendir log.calls = .error .noPath ∧ fates.code (log.calls + 1) ≠ none ∧
      result = -1 ∧ log.Before after) ∨
    (fates.opendir log.calls = .error .noPath ∧ fates.code (log.calls + 1) = none ∧
      (putDirectory (tree.calls fates) put sourceFilename destFilename).Outcome
        ((log.tested (fates.present log.calls)).advance 1) result after) ∨
    (fates.opendir log.calls ≠ .error .noPath ∧
      (putDirectory (tree.calls fates) put sourceFilename destFilename).Outcome
        ((log.tested (fates.present log.calls)).skipped destFilename) result after) := by
  obtain ⟨answer, middle, test, rest⟩ := Program.outcome_bind.mp run
  obtain ⟨rfl, missing, _⟩ := fatPathIsDir_cases test
  by_cases zero : answer = 0
  · rw [if_pos zero] at rest
    obtain ⟨created, after', create, rest⟩ := Program.outcome_bind.mp rest
    obtain ⟨rfl, same⟩ := fMkdir_cases create
    cases created with
    | error code =>
      obtain ⟨_, _, nothing, returned⟩ := Program.outcome_bind.mp rest
      obtain ⟨_, rfl⟩ := Program.outcome_pure.mp nothing
      obtain ⟨rfl, rfl⟩ := Program.outcome_pure.mp returned
      exact Or.inl ⟨missing.mp zero, fun good => absurd (same.mpr good) (by simp), rfl,
        ⟨List.suffix_rfl, List.suffix_rfl⟩⟩
    | ok value => exact Or.inr (Or.inl ⟨missing.mp zero, same.mp rfl, rest⟩)
  · rw [if_neg zero] at rest
    obtain ⟨_, noted, note, rest⟩ := Program.outcome_bind.mp rest
    obtain rfl := Program.outcome_modify.mp note
    exact Or.inr (Or.inr ⟨mt missing.mpr zero, rest⟩)

theorem putNewDirectory_makes {put : FatPath → FatPath → Program PutLog Int}
    (puts : Puts tree fates put) :
    Makes (putNewDirectory (putDriver fates) (tree.calls fates) takeNote put sourceFilename
        destFilename)
      fun number last =>
        (fates.opendir number = .error .noPath ∧ fates.code (number + 1) = none ∧
          fates.code (number + 2) = none ∧
          EntriesStored tree fates sourceFilename (tree.listing sourceFilename) (number + 3) last) ∨
        (fates.opendir number ≠ .error .noPath ∧ fates.present number = true ∧
          fates.code (number + 1) = none ∧
          EntriesStored tree fates sourceFilename (tree.listing sourceFilename)
            (number + 2) last) := by
  have inside := @putDirectory_makes tree fates sourceFilename destFilename put puts
  have skips (log : PutLog) : log.Before ((log.tested (fates.present log.calls)).skipped
      destFilename) := ⟨List.suffix_rfl, List.suffix_cons _ _⟩
  have creates (log : PutLog) : log.Before ((log.tested (fates.present log.calls)).advance 1) :=
    ⟨List.suffix_rfl, List.suffix_rfl⟩
  refine ⟨fun log result after run => ?_, fun log result after run clean good => ?_,
    fun log result after last run planned clean => ?_⟩
  · rcases putNewDirectory_cases run with ⟨_, _, _, before⟩ | ⟨_, _, rest⟩ | ⟨_, rest⟩
    · exact before
    · exact (creates log).trans (inside.before _ _ _ rest)
    · exact (skips log).trans (inside.before _ _ _ rest)
  · rcases putNewDirectory_cases run with ⟨_, _, failed, _⟩ | ⟨absent, made, rest⟩ | ⟨tested, rest⟩
    · exact absurd failed good
    · obtain ⟨opened, stored⟩ := inside.planned _ _ _ rest clean good
      exact Or.inl ⟨absent, made, opened, stored⟩
    · obtain ⟨opened, stored⟩ := inside.planned _ _ _ rest clean good
      have there := (clean.of_before (inside.before _ _ _ rest)).created _ List.mem_cons_self
      exact Or.inr ⟨tested, there, opened, stored⟩
  · rcases planned with ⟨absent, made, opened, stored⟩ | ⟨tested, there, opened, stored⟩
    · rcases putNewDirectory_cases run with ⟨_, failed, _⟩ | ⟨_, _, rest⟩ | ⟨tested, _⟩
      · exact absurd made failed
      · exact inside.made _ _ _ _ rest ⟨opened, stored⟩ ⟨clean.succeeded, clean.created⟩
      · exact absurd absent tested
    · rcases putNewDirectory_cases run with ⟨absent, _⟩ | ⟨absent, _⟩ | ⟨_, rest⟩
      · exact absurd absent tested
      · exact absurd absent tested
      · refine inside.made _ _ _ _ rest ⟨opened, stored⟩ ⟨clean.succeeded, ?_⟩
        exact List.forall_mem_cons.mpr ⟨there, clean.created⟩

/-- The log after the note that a call has returned. -/
def PutLog.finished (log : PutLog) (sourceFilename destFilename : FatPath)
    (result : Int) : PutLog :=
  { log with returned := ⟨sourceFilename, destFilename, result⟩ :: log.returned }

/-- What `put_file` does for a path, before it returns. -/
theorem putTree_run {result : Int}
    (run : (putTree (putDriver fates) (tree.calls fates) takeNote (fuel + 1) sourceFilename
      destFilename).Outcome log result after) :
    ∃ middle, after = middle.finished sourceFilename destFilename result ∧
      ((tree.isDirectory sourceFilename = true ∧
        (putNewDirectory (putDriver fates) (tree.calls fates) takeNote
          (putTree (putDriver fates) (tree.calls fates) takeNote fuel) sourceFilename
            destFilename).Outcome log result middle) ∨
      (tree.isDirectory sourceFilename = false ∧ (do
        let inputFile ← (tree.calls fates).fopen sourceFilename
        putFile (putDriver fates).toFatFiles fuel inputFile destFilename : Program _ _).Outcome log
          result middle)) := by
  rw [putTree] at run
  obtain ⟨returned, middle, body, rest⟩ := Program.outcome_bind.mp run
  obtain ⟨_, noted, note, last⟩ := Program.outcome_bind.mp rest
  obtain ⟨rfl, rfl⟩ := Program.outcome_pure.mp last
  refine ⟨middle, Program.outcome_modify.mp note, ?_⟩
  cases kind : tree.isDirectory sourceFilename with
  | true =>
    have directory : (tree.calls fates).isDirectory sourceFilename = true := kind
    rw [if_pos directory] at body
    exact Or.inl ⟨rfl, body⟩
  | false =>
    have regular : (tree.calls fates).isDirectory sourceFilename = false := kind
    rw [if_neg (by rw [regular]; exact Bool.false_ne_true)] at body
    exact Or.inr ⟨rfl, body⟩

/-- The descent, by induction on the levels it is allowed. -/
theorem putTree_puts :
    Puts tree fates (putTree (putDriver fates) (tree.calls fates) takeNote fuel) := by
  induction fuel with
  | zero => exact ⟨fun _ _ => makes_undefined, fun _ _ _ _ _ run =>
      absurd run Program.outcome_undefined⟩
  | succ fuel inductionHypothesis =>
    have finished (log : PutLog) (sourceFilename destFilename : FatPath) (result : Int) :
        log.Before (log.finished sourceFilename destFilename result) :=
      ⟨List.suffix_cons _ _, List.suffix_rfl⟩
    refine ⟨fun sourceFilename destFilename => ⟨fun log result after run => ?_,
      fun log result after run clean good => ?_, fun log result after last run planned clean => ?_⟩,
      fun sourceFilename destFilename log result after run clean => ?_⟩
    all_goals obtain ⟨middle, rfl, ⟨kind, body⟩ | ⟨kind, body⟩⟩ := putTree_run run
    · exact ((putNewDirectory_makes inductionHypothesis).before _ _ _ body).trans (finished _ _ _ _)
    · exact (putFile_makes.before _ _ _ body).trans (finished _ _ _ _)
    · rcases (putNewDirectory_makes inductionHypothesis).planned _ _ _ body
        (clean.of_before (finished _ _ _ _)) good with
        ⟨absent, made, opened, inside⟩ | ⟨tested, there, opened, inside⟩
      · exact .new kind absent made opened inside
      · exact .old kind tested there opened inside
    · obtain ⟨opened, created, contents⟩ := putFile_makes.planned _ _ _ body
        (clean.of_before (finished _ _ _ _)) good
      exact .file kind opened created contents
    · have plan : (fates.opendir log.calls = .error .noPath ∧ fates.code (log.calls + 1) = none ∧
          fates.code (log.calls + 2) = none ∧ EntriesStored tree fates sourceFilename
            (tree.listing sourceFilename) (log.calls + 3) last) ∨
          (fates.opendir log.calls ≠ .error .noPath ∧ fates.present log.calls = true ∧
          fates.code (log.calls + 1) = none ∧ EntriesStored tree fates sourceFilename
            (tree.listing sourceFilename) (log.calls + 2) last) := by
        cases planned with
        | file regular _ _ _ => exact absurd (kind.symm.trans regular) (by decide)
        | new _ absent made opened inside => exact Or.inl ⟨absent, made, opened, inside⟩
        | old _ tested there opened inside => exact Or.inr ⟨tested, there, opened, inside⟩
      obtain ⟨rfl, rfl, clean'⟩ :=
        (putNewDirectory_makes inductionHypothesis).made _ _ _ _ body plan clean
      exact ⟨rfl, rfl, List.forall_mem_cons.mpr ⟨show (0 : Int) ≠ -1 by decide, clean'.succeeded⟩,
        clean'.created⟩
    · cases planned with
      | file _ opened created contents =>
        obtain ⟨rfl, rfl, clean'⟩ := putFile_makes.made _ _ _ _ body
          ⟨opened, created, contents⟩ clean
        exact ⟨rfl, rfl, List.forall_mem_cons.mpr ⟨show (0 : Int) ≠ -1 by decide, clean'.succeeded⟩,
          clean'.created⟩
      | new directory _ _ _ _ => exact absurd (kind.symm.trans directory) (by decide)
      | old directory _ _ _ _ => exact absurd (kind.symm.trans directory) (by decide)
    · exact clean.succeeded _ List.mem_cons_self
    · exact clean.succeeded _ List.mem_cons_self

end Tree

/-! ### What was put -/

section Put

variable {tree : LocalTree} {fates : PutFates} {log after : PutLog} {fuel : Nat}
  {sourceFilename destFilename : FatPath} {result : Int}

/-- A call of `put_file` for a path has returned. -/
def PutLog.Has (log : PutLog) (sourceFilename destFilename : FatPath) : Prop :=
  ∃ call ∈ log.returned, call.source = sourceFilename ∧ call.dest = destFilename

/-- The entries of every directory that was put were put as well. -/
def LocalTree.Complete (tree : LocalTree) (log : PutLog) : Prop :=
  ∀ call ∈ log.returned, tree.isDirectory call.source = true →
    ∀ name ∈ tree.listing call.source, name ∉ dotNames →
      log.Has (concatFilename call.source name) (concatFilename call.dest name)

theorem PutLog.Has.mono (has : log.Has sourceFilename destFilename) (before : log.Before after) :
    after.Has sourceFilename destFilename := by
  obtain ⟨call, member, same⟩ := has
  exact ⟨call, before.returned.subset member, same⟩

/-- One more call keeps the log complete if the entries of what it put were put. -/
theorem LocalTree.Complete.finished (complete : tree.Complete log)
    (entries : tree.isDirectory sourceFilename = true → ∀ name ∈ tree.listing sourceFilename,
      name ∉ dotNames →
        log.Has (concatFilename sourceFilename name) (concatFilename destFilename name)) :
    tree.Complete (log.finished sourceFilename destFilename result) := by
  have before : log.Before (log.finished sourceFilename destFilename result) :=
    ⟨List.suffix_cons _ _, List.suffix_rfl⟩
  refine List.forall_mem_cons.mpr ⟨fun directory name listed proper => ?_,
    fun call member directory name listed proper => ?_⟩
  · exact (entries directory name listed proper).mono before
  · exact (complete call member directory name listed proper).mono before

theorem putContents_returned {inputFile : LocalFile}
    (run : (putContents (putDriver fates).toFatFiles fuel inputFile ()).Outcome log result after) :
    after.returned = log.returned := by
  induction fuel generalizing inputFile log with
  | zero => exact absurd run Program.outcome_undefined
  | succ fuel inductionHypothesis =>
    rcases putContents_turn run with ⟨_, _, rfl⟩ | ⟨_, ⟨_, _, rfl⟩ | ⟨_, _, _, rfl⟩ |
      ⟨_, _, _, _, rfl⟩ | ⟨_, _, rest⟩⟩
    · rfl
    · rfl
    · rfl
    · rfl
    · have same := inductionHypothesis rest
      exact same

theorem putFile_returned
    (run : (do
        let inputFile ← (tree.calls fates).fopen sourceFilename
        putFile (putDriver fates).toFatFiles fuel inputFile destFilename : Program _ _).Outcome log
          result after) : after.returned = log.returned := by
  rcases putFile_cases run with ⟨_, _, rfl | rfl⟩ | ⟨_, _, contents⟩
  · rfl
  · rfl
  · have same := putContents_returned contents
    exact same

/-- A loop over entries puts them all. -/
theorem putEntries_complete {put : FatPath → FatPath → Program PutLog Int}
    (puts : Puts tree fates put)
    (completes : ∀ {sourceFilename destFilename log result after},
      (put sourceFilename destFilename).Outcome log result after → after.Clean →
        tree.Complete log → tree.Complete after ∧ after.Has sourceFilename destFilename)
    {entries : List FatPath}
    (run : (putEntries put sourceFilename destFilename entries).Outcome log result after)
    (clean : after.Clean) (complete : tree.Complete log) :
    tree.Complete after ∧ ∀ name ∈ entries, name ∉ dotNames →
      after.Has (concatFilename sourceFilename name) (concatFilename destFilename name) := by
  induction entries generalizing log with
  | nil =>
    obtain ⟨_, rfl⟩ := Program.outcome_pure.mp run
    exact ⟨complete, fun name listed => absurd listed List.not_mem_nil⟩
  | cons name entries inductionHypothesis =>
    by_cases skipped : name ∈ dotNames
    · rw [putEntries, if_pos skipped] at run
      obtain ⟨complete', others⟩ := inductionHypothesis run complete
      exact ⟨complete', List.forall_mem_cons.mpr
        ⟨fun proper => absurd skipped proper, others⟩⟩
    · rw [putEntries, if_neg skipped] at run
      obtain ⟨_, middle, one, rest⟩ := Program.outcome_bind.mp run
      have before := (@putEntries_makes tree fates sourceFilename destFilename put puts
        entries).before _ _ _ rest
      obtain ⟨between, has⟩ := completes one (clean.of_before before) complete
      obtain ⟨complete', others⟩ := inductionHypothesis rest between
      exact ⟨complete', List.forall_mem_cons.mpr ⟨fun _ => has.mono before, others⟩⟩

theorem putDirectory_complete {put : FatPath → FatPath → Program PutLog Int}
    (puts : Puts tree fates put)
    (completes : ∀ {sourceFilename destFilename log result after},
      (put sourceFilename destFilename).Outcome log result after → after.Clean →
        tree.Complete log → tree.Complete after ∧ after.Has sourceFilename destFilename)
    (run : (putNewDirectory (putDriver fates) (tree.calls fates) takeNote put sourceFilename
      destFilename).Outcome log result after)
    (good : result ≠ -1) (clean : after.Clean) (complete : tree.Complete log) :
    tree.Complete after ∧ ∀ name ∈ tree.listing sourceFilename, name ∉ dotNames →
      after.Has (concatFilename sourceFilename name) (concatFilename destFilename name) := by
  rcases putNewDirectory_cases run with ⟨_, _, failed, _⟩ | ⟨_, _, rest⟩ | ⟨_, rest⟩
  · exact absurd failed good
  all_goals rcases putDirectory_cases rest with ⟨_, failed, _⟩ | ⟨_, entries⟩
  · exact absurd failed good
  · exact putEntries_complete puts completes entries clean complete
  · exact absurd failed good
  · exact putEntries_complete puts completes entries clean complete

/-- The descent puts all it meets, by induction on the levels it is allowed. -/
theorem putTree_complete
    (run : (putTree (putDriver fates) (tree.calls fates) takeNote fuel sourceFilename
      destFilename).Outcome log result after)
    (clean : after.Clean) (complete : tree.Complete log) :
    tree.Complete after ∧ after.Has sourceFilename destFilename := by
  induction fuel generalizing sourceFilename destFilename log result after with
  | zero => exact absurd run Program.outcome_undefined
  | succ fuel inductionHypothesis =>
    have good := putTree_puts.noted _ _ _ _ _ run clean
    obtain ⟨middle, rfl, ⟨kind, body⟩ | ⟨kind, body⟩⟩ := putTree_run run
    all_goals
      have clean' : middle.Clean :=
        clean.of_before ⟨List.suffix_cons _ _, List.suffix_rfl⟩
      refine ⟨?_, _, List.mem_cons_self, rfl, rfl⟩
    · obtain ⟨complete', entries⟩ := putDirectory_complete putTree_puts
        inductionHypothesis body good clean' complete
      exact complete'.finished fun _ => entries
    · have same := putFile_returned body
      have before := putFile_makes.before _ _ _ body
      refine LocalTree.Complete.finished (fun call member directory name listed proper => ?_)
        fun directory => absurd (kind.symm.trans directory) (by decide)
      rw [same] at member
      exact (complete call member directory name listed proper).mono before

theorem putTree_before
    (run : (putTree (putDriver fates) (tree.calls fates) takeNote fuel sourceFilename
      destFilename).Outcome log result after) : log.Before after :=
  (putTree_puts.makes sourceFilename destFilename).before _ _ _ run

/-- The loop of `cmd_put` over its sources. -/
theorem putSources_makes {sources : List (FatPath × FatPath)}
    (run : (putSources (putTree (putDriver fates) (tree.calls fates) takeNote fuel)
      sources).Outcome log result after) :
    log.Before after ∧
    (after.Clean → SourcesStored tree fates sources log.calls after.calls) ∧
    (∀ last, SourcesStored tree fates sources log.calls last → log.Clean → after.Clean) ∧
    (after.Clean → tree.Complete log → tree.Complete after ∧
      ∀ source ∈ sources, after.Has source.1 source.2) := by
  induction sources generalizing log with
  | nil =>
    obtain ⟨_, rfl⟩ := Program.outcome_pure.mp run
    exact ⟨.refl _, fun _ => .nil, fun _ _ clean => clean,
      fun _ complete => ⟨complete, fun source member => absurd member List.not_mem_nil⟩⟩
  | cons source sources inductionHypothesis =>
    obtain ⟨returned, middle, one, rest⟩ := Program.outcome_bind.mp run
    obtain ⟨before, stored, cleans, complete⟩ := inductionHypothesis rest
    have first := (@putTree_puts tree fates fuel).makes source.1 source.2
    refine ⟨(putTree_before one).trans before, fun clean => ?_, fun last planned clean => ?_,
      fun clean complete' => ?_⟩
    · have clean' := clean.of_before before
      exact .cons (first.planned _ _ _ one clean' (putTree_puts.noted _ _ _ _ _ one clean'))
        (stored clean)
    · cases planned with
      | cons stored' others =>
        obtain ⟨_, rfl, clean'⟩ := first.made _ _ _ _ one stored' clean
        exact cleans last others clean'
    · obtain ⟨between, has⟩ := putTree_complete one (clean.of_before before) complete'
      obtain ⟨complete'', others⟩ := complete clean between
      exact ⟨complete'', List.forall_mem_cons.mpr ⟨has.mono before, others⟩⟩

/-- A complete log that has the sources has everything requested. -/
theorem LocalTree.Complete.requested {pairs : List (FatPath × FatPath)}
    (complete : tree.Complete log) (sources : ∀ source ∈ pairs, log.Has source.1 source.2)
    (requested : tree.Requested pairs sourceFilename destFilename) :
    log.Has sourceFilename destFilename := by
  induction requested with
  | source named => exact sources _ named
  | entry _ directory listed proper inductionHypothesis =>
    obtain ⟨call, member, rfl, rfl⟩ := inductionHypothesis
    exact complete call member directory _ listed proper

end Put

/-! ### The exit status -/

section Status

variable {tree : LocalTree} {fates : PutFates} {after : PutLog} {fuel : Nat}
  {openImage : FileName → Bool} {imageFilename : FatPath} {arguments : List FatPath}

/-- A log without a call. -/
def PutLog.start : PutLog := ⟨0, false, [], []⟩

/-- The destination is found to be a directory. -/
def PutFates.copyingToDir (fates : PutFates) : Bool :=
  match fates.opendir 0 with
  | .ok _ => true
  | .error _ => false

/-- A command that returns zero has put its pairs, or tried to. -/
theorem cmdPut_puts
    (run : (cmdPut (putDriver fates) (tree.calls fates) takeNote openImage fuel
      (imageFilename :: arguments)).Outcome .start 0 after) :
    ∃ result, (putSources (putTree (putDriver fates) (tree.calls fates) takeNote fuel)
      (putPairs fates.copyingToDir arguments)).Outcome
        (PutLog.start.tested (fates.present 0)) result after := by
  have failed : ¬ (pure (-1) : Program PutLog Int).Outcome PutLog.start 0 after :=
    fun run => absurd (Program.outcome_pure.mp run).1 (by decide)
  rw [cmdPut] at run
  split at run
  · exact absurd run failed
  split at run
  · exact absurd run failed
  dsimp only at run
  obtain ⟨answer, middle, test, rest⟩ := Program.outcome_bind.mp run
  obtain ⟨rfl, missing, found, answers⟩ := fatPathIsDir_cases test
  split at rest
  · exact absurd (Program.outcome_pure.mp rest).1 (by decide)
  rename_i good
  split at rest
  · rename_i zero
    have single : fates.copyingToDir = false := by
      have answered : fates.opendir 0 = .error .noPath := missing.mp zero
      rw [PutFates.copyingToDir, answered]
    split at rest
    · exact absurd (Program.outcome_pure.mp rest).1 (by decide)
    obtain ⟨result, last, put, ended⟩ := Program.outcome_bind.mp rest
    split at ended
    · exact absurd (Program.outcome_pure.mp ended).1 (by decide)
    obtain ⟨_, rfl⟩ := Program.outcome_pure.mp ended
    rw [single]
    exact ⟨0, Program.outcome_bind.mpr ⟨result, _, put, Program.outcome_pure.mpr ⟨rfl, rfl⟩⟩⟩
  · rename_i some
    have several : fates.copyingToDir = true := by
      have answered : fates.opendir 0 = .ok () :=
        found.mp ((answers.resolve_left good).resolve_left some)
      rw [PutFates.copyingToDir, answered]
    rw [several]
    exact ⟨0, rest⟩

/-- A status of zero covers the trees of the arguments exactly if no call fails that they prescribe,
one after the other. -/
theorem cmdPut_covers_iff
    (run : (cmdPut (putDriver fates) (tree.calls fates) takeNote openImage fuel
      (imageFilename :: arguments)).Outcome .start 0 after) :
    tree.Covered (putPairs fates.copyingToDir arguments) after ↔
      ∃ last, SourcesStored tree fates (putPairs fates.copyingToDir arguments) 1 last := by
  obtain ⟨result, put⟩ := cmdPut_puts run
  obtain ⟨_, planned, made, complete⟩ := putSources_makes put
  constructor
  · intro covered
    exact ⟨after.calls, planned covered.toClean⟩
  · rintro ⟨last, stored⟩
    have nothing : (PutLog.start.tested (fates.present 0)).Clean :=
      ⟨fun call member => absurd member List.not_mem_nil,
        fun directory member => absurd member List.not_mem_nil⟩
    have clean := made last stored nothing
    obtain ⟨complete', sources⟩ := complete clean
      fun call member => absurd member List.not_mem_nil
    exact ⟨clean, fun _ _ requested => complete'.requested sources requested⟩

/-- A directory with one file of three bytes. -/
def oneFileTree : LocalTree where
  isDirectory path := path = [0x64]
  listing _ := [[0x2e], [0x66]]
  content _ := [1, 2, 3]

/-- The destination exists and nothing else does; one call may fail. -/
def oneFailure (number : Nat) (code : FResult) : PutFates where
  code call := if call = number then some code else none
  present call := call = 0
  most _ := bufferSize
  reading _ := []

/-- The directory is put into an existing one, and only the closing of its file fails. -/
theorem cmdPut_covers_iff_oneFile :
    ∃ after, (cmdPut (putDriver (oneFailure 7 .diskErr))
        (oneFileTree.calls (oneFailure 7 .diskErr)) takeNote (fun _ => true) 3
        [[0x69], [0x64], [0x78]]).Outcome .start 0 after ∧
      oneFileTree.Covered [([0x64], [0x78, 0x2f, 0x64])] after := by
  obtain ⟨after, run⟩ : ∃ after, (cmdPut (putDriver (oneFailure 7 .diskErr))
      (oneFileTree.calls (oneFailure 7 .diskErr)) takeNote (fun _ => true) 3
      [[0x69], [0x64], [0x78]]).Outcome .start 0 after := ⟨_, rfl⟩
  refine ⟨after, run, (cmdPut_covers_iff run).mpr ⟨8, ?_⟩⟩
  have contents : ContentsStored (oneFailure 7 .diskErr) ⟨[1, 2, 3], []⟩ 6 8 :=
    .short rfl (by decide) (by decide) rfl
  have file : Stored oneFileTree (oneFailure 7 .diskErr) [0x64, 0x2f, 0x66] 4 8 :=
    .file rfl rfl rfl contents
  have entries : EntriesStored oneFileTree (oneFailure 7 .diskErr) [0x64] [[0x2e], [0x66]] 4 8 :=
    .dots (by decide) (.entry (by decide) file .nil)
  have directory : Stored oneFileTree (oneFailure 7 .diskErr) [0x64] 1 8 :=
    .new rfl rfl rfl rfl entries
  exact .cons directory .nil

/-- A name inside the directory is rejected by FAT: the status is zero all the same. -/
theorem cmdPut_not_covers_invalidName :
    ¬ ∀ (tree : LocalTree) (fates : PutFates) (openImage : FileName → Bool) (fuel : Nat)
      (imageFilename : FatPath) (arguments : List FatPath) (after : PutLog),
      (cmdPut (putDriver fates) (tree.calls fates) takeNote openImage fuel
        (imageFilename :: arguments)).Outcome .start 0 after →
      tree.Covered (putPairs fates.copyingToDir arguments) after := by
  intro covers
  have covered := covers oneFileTree (oneFailure 5 .invalidName) (fun _ => true) 3 [0x69]
    [[0x64], [0x78]] _ rfl
  exact absurd rfl (covered.succeeded _ (List.mem_cons_of_mem _ List.mem_cons_self))

end Status

end Hdfmonkey
