/-
This file asks whether a `get` that fails leaves the local destination alone.

The destination is opened with `fopen(…, "wb")` before the image is opened and the file
is looked up in it, so whatever is found wrong there is found too late.

The commands read the image. What is followed along a run is that no drive is written,
as for the reading commands, and that the local files are the ones they were.
-/

import Hdfmonkey.ReadOnly

namespace Hdfmonkey

/-- No local file was created, and the one at the destination has its bytes. -/
structure LeavesAlone (destination : Option FileName) (before after : Files) : Prop where
  none_created : ∀ pathname, before.node pathname = none → after.node pathname = none
  kept : ∀ pathname node, destination = some pathname → before.node pathname = some node →
    after.node pathname = some node ∧ after.file node = before.file node

theorem LeavesAlone.refl {destination : Option FileName} {files : Files} :
    LeavesAlone destination files files := ⟨fun _ => id, fun _ _ _ found => ⟨found, rfl⟩⟩

/-- Opening a file from scratch leaves it alone if and only if it was there and empty. -/
theorem leavesAlone_create_iff {files : Files} {pathname : FileName} :
    LeavesAlone (some pathname) files (files.create pathname).2 ↔
      ∃ node, files.node pathname = some node ∧ (files.file node).size = 0 := by
  have made := files.node_create pathname
  constructor
  · intro alone
    cases found : files.node pathname with
    | none => exact absurd (made.symm.trans (alone.none_created _ found)) (by simp)
    | some node =>
      have kept := (alone.kept pathname node rfl found).2
      rw [← files.create_fst_of_node pathname found, files.file_create pathname] at kept
      exact ⟨node, rfl, files.create_fst_of_node pathname found ▸ congrArg ByteFile.size kept.symm⟩
  · rintro ⟨node, found, empty⟩
    obtain rfl := files.create_fst_of_node pathname found
    refine ⟨fun other missing => ?_, fun other place same present => ?_⟩
    · rw [files.node_create_of_ne pathname fun same => by simp [same, found] at missing]
      exact missing
    · obtain rfl := Option.some.inj same
      obtain rfl := Option.some.inj (found.symm.trans present)
      refine ⟨made, (files.file_create pathname).trans (ByteFile.ext ?_ fun index => ?_)⟩
      · exact empty.symm
      · exact ((files.file _).beyond index (empty ▸ Nat.zero_le _)).symm

namespace Ff

open Program

/-- No drive was written, and the local files are these. -/
def Quiet (files : Files) (machine : Machine) : Prop :=
  OnlyReads (fun _ => False) (fun _ => True) machine ∧ machine.files = files

theorem quiet_keeper (files : Files) : Keeper (fun _ => False) (Quiet files) where
  bound kept registered mounted := kept.1.bound registered mounted
  object kept live :=
    ⟨(onlyReads_keeper fun _ _ never => never.elim).object kept.1 live, kept.2⟩
  read kept run := by
    refine ⟨(onlyReads_keeper fun _ _ never => never.elim).read kept.1 run, ?_⟩
    obtain ⟨_, rfl⟩ := diskRead_comes run
    exact kept.2
  write never := never.elim
  rest _ _ _ _ kept := ⟨⟨kept.1.bound, kept.1.log⟩, kept.2⟩

/-- `fopen(pathname, "wb")`: a file that can be opened is made or emptied. -/
def fopenWb (opens : FileName → Bool) (pathname : FileName) : Program Machine (Option PUnit) :=
  fun machine =>
    if opens pathname then .ok
      (some (), { machine with files := (machine.files.create pathname).2 })
    else .ok (none, machine)

/-- The library in the runs that transfer nothing: a call of `fwrite` does not return. -/
def quietStdio (opens : FileName → Bool) : Stdio where
  Stream := PUnit
  stdout := ()
  fopen := fopenWb opens
  fwrite _ _ := Program.undefined
  fclose _ := return
  fopen_files pathname := by
    intro start finish run
    unfold Comes Outcome fopenWb at run
    split_ifs at run
    · obtain ⟨_, same⟩ | stopped := run
      · obtain ⟨_, rfl⟩ := Prod.mk.inj (Except.ok.inj same)
        exact ⟨_, start.transfers, rfl⟩
      · exact stopped.elim
    · obtain ⟨_, same⟩ | stopped := run
      · obtain ⟨_, rfl⟩ := Prod.mk.inj (Except.ok.inj same)
        exact ⟨_, start.transfers, rfl⟩
      · exact stopped.elim
  fwrite_files _ _ := by
    rintro start finish (⟨_, ended⟩ | stopped)
    · exact absurd ended outcome_undefined
    · obtain rfl := Except.error.inj stopped
      exact ⟨_, _, rfl⟩
  fclose_files _ := filesOnly_pure ()

/-- Behind the opening of the output, a run that transfers nothing leaves the local files as they
are. -/
theorem getImage_files {opens : FileName → Bool} {start after : Machine} {fatfs : Fatfs}
    {fuel : Nat}
    {outputFilename : Option FileName} {imageFilename : FileName} {sourceFilename : FatPath}
    {result : Int} (unmounted : start.Unmounted)
    (run : (do
      match ← openImage imageFilename (some fatfs) false with
      | none => return -1
      | some _ =>
        match ← fOpen sourceFilename .read with
        | .error _ => return -1
        | .ok inputFile => getLoop (quietStdio opens) outputFilename fuel inputFile () :
          Program Machine Int).Outcome start result after) :
    after.files = start.files :=
  ((@getImage_keeps _ _ (quiet_keeper start.files) (quietStdio opens) (fun _ _ => keeps_undefined)
    (fun _ => keeps_pure trivial) fatfs fuel outputFilename () imageFilename sourceFilename
    fun _ _ kept _ => ⟨kept.1.map, kept.2⟩).ensures _ _ _
      ⟨onlyReads_unmounted unmounted trivial, rfl⟩ run).1.2

/-- Where `get` returns -1 before it has transferred anything, it leaves the local files alone if
and only if no output is named, or it cannot be opened, or it was there and empty. -/
theorem cmdGet_leavesAlone_iff (opens : FileName → Bool) (machine after : Machine) (fatfs : Fatfs)
    (fuel : Nat) (argv : List FileName) (unmounted : machine.Unmounted)
    (run : (cmdGet (quietStdio opens) fatfs fuel argv).Outcome machine (-1) after) :
    LeavesAlone argv[4]? machine.files after.files ↔
      ∀ pathname, argv[4]? = some pathname → opens pathname = true →
        ∃ node, machine.files.node pathname = some node ∧ (machine.files.file node).size = 0 := by
  match argv with
  | [] | [_] | [_, _] | [_, _, _] =>
    obtain ⟨_, rfl⟩ := outcome_pure.mp run
    exact iff_of_true .refl fun _ named => absurd named (by simp)
  | [_, _, imageFilename, sourceFilename] =>
    rw [@getImage_files opens _ _ _ _ _ _ _ _ unmounted run]
    exact iff_of_true .refl fun _ named => absurd named (by simp)
  | _ :: _ :: imageFilename :: sourceFilename :: pathname :: _ =>
    obtain ⟨opened, middle, opening, rest⟩ := outcome_bind.mp run
    have opening : fopenWb opens pathname machine = .ok (opened, middle) := opening
    unfold fopenWb at opening
    by_cases may : opens pathname = true
    · rw [if_pos may] at opening
      obtain ⟨rfl, rfl⟩ := Prod.mk.inj (Except.ok.inj opening)
      rw [@getImage_files opens { machine with files := (machine.files.create pathname).2 } after
        fatfs fuel (some pathname) imageFilename sourceFilename (-1) unmounted rest]
      refine leavesAlone_create_iff.trans ⟨fun empty other named _ => ?_, fun all => ?_⟩
      · obtain rfl := Option.some.inj named
        exact empty
      · exact all pathname rfl may
    · rw [if_neg may] at opening
      obtain ⟨rfl, rfl⟩ := Prod.mk.inj (Except.ok.inj opening)
      obtain ⟨_, rfl⟩ := outcome_pure.mp rest
      refine iff_of_true .refl fun other named opened => absurd opened ?_
      obtain rfl := Option.some.inj named
      exact may

/-- A small machine with an empty local file. -/
def emptyBeside : Machine :=
  { smallMachine with files := (smallMachine.files.create [0x6f]).2 }

/-- A file that is not in the image leaves an empty local file alone. -/
theorem cmdGet_leavesAlone_iff_empty : ∃ after,
    (cmdGet (quietStdio fun _ => true) blankFatfs 3
      [[], [], [0x69], [0x62], [0x6f]]).Outcome emptyBeside (-1) after ∧
    LeavesAlone (some [0x6f]) emptyBeside.files after.files := by
  have returns : (cmdGet (quietStdio fun _ => true) blankFatfs 3 [[], [], [0x69], [0x62], [0x6f]]
      emptyBeside).toOption.map (·.1) = some (-1) := by decide +kernel
  obtain ⟨_, after, run, rfl⟩ := outcome_of_observed returns
  have alone := cmdGet_leavesAlone_iff (fun _ => true) emptyBeside after blankFatfs 3
    [[], [], [0x69], [0x62], [0x6f]] smallMachine_unmounted run
  refine ⟨after, run, alone.mpr ?_⟩
  rintro _ named -
  obtain rfl := Option.some.inj named
  exact ⟨_, smallMachine.files.node_create [0x6f],
    congrArg ByteFile.size (smallMachine.files.file_create [0x6f])⟩

/-- The machine with a byte in the local file. -/
def letterBeside : Machine :=
  { emptyBeside with
    files := emptyBeside.files.put (smallMachine.files.create [0x6f]).1
      (ByteFile.ofBuffer 1 fun _ => 0x61) }

/-- The look-up of a name that is not in the image empties the local file. -/
theorem not_cmdGet_leavesAlone :
    ¬ ∀ (opens : FileName → Bool) (machine after : Machine) (fatfs : Fatfs) (fuel : Nat)
      (argv : List FileName), machine.Unmounted →
      (cmdGet (quietStdio opens) fatfs fuel argv).Outcome machine (-1) after →
      LeavesAlone argv[4]? machine.files after.files := by
  intro always
  have returns : (cmdGet (quietStdio fun _ => true) blankFatfs 3 [[], [], [0x69], [0x62], [0x6f]]
      letterBeside).toOption.map (fun done => (done.1,
        (done.2.files.file (smallMachine.files.create [0x6f]).1).size)) = some (-1, 0) := by
    decide +kernel
  obtain ⟨_, after, run, same⟩ := outcome_of_observed returns
  obtain ⟨rfl, emptied⟩ := Prod.mk.inj same
  have alone := always (fun _ => true) letterBeside after blankFatfs 3
    [[], [], [0x69], [0x62], [0x6f]] smallMachine_unmounted run
  have kept := (alone.kept [0x6f] _ rfl (smallMachine.files.node_create [0x6f])).2
  rw [letterBeside, FileStore.file_put_self] at kept
  exact absurd (emptied.symm.trans (congrArg ByteFile.size kept)) (by decide)

end Ff

end Hdfmonkey
