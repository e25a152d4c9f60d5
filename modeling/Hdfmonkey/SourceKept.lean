/-
This file settles when `clone` and `rebuild` leave the source image as it is.

Both open the source for reading and keep it open while they create the destination,
and neither compares the two names. If the names refer to different files nothing is
ever written to the source: its volume may not be written, and every other volume lies
in another file. If they refer to one file, the creation empties it, unless it was
empty already and stays so.
-/

import Hdfmonkey.ReadOnly

namespace Hdfmonkey

/-! ### What the creation of an image changes -/

section Create

variable {build : Build} {fuel : Nat} {sys : Schedule} {files created : Files}
  {pathname : FileName} {sectorCount : Nat} {volume : Option VolumeContainer}

/-- The second store is the first but for the file that was created. -/
def CreatedIn (files : Files) (pathname : FileName) (created : Files) : Prop :=
  created.node = (files.create pathname).2.node ∧
    ∀ node, node ≠ (files.create pathname).1 → created.file node = files.file node

theorem createdIn_create (files : Files) (pathname : FileName) :
    CreatedIn files pathname (files.create pathname).2 :=
  ⟨rfl, fun _ different => files.file_create_of_ne pathname different⟩

theorem createdIn_put (files : Files) (pathname : FileName) (file : ByteFile) :
    CreatedIn files pathname ((files.create pathname).2.put (files.create pathname).1 file) :=
  ⟨rfl, fun _ different => (FileStore.file_put_of_ne _ _ different).trans
    (files.file_create_of_ne pathname different)⟩

theorem openCreate_spec {result : SysResult} {made : Nat × Files}
    (run : openCreate result files pathname = some made) : made = files.create pathname := by
  cases result with
  | fail => exact nomatch run
  | done limit => exact (Option.some.inj run).symm

theorem rawImageCreate_frame
    (run : rawImageCreate build sys files pathname sectorCount = (volume, created)) :
    created = files ∨ CreatedIn files pathname created := by
  rw [rawImageCreate] at run
  cases opened : openCreate (sys 0) files pathname with
  | none =>
    simp only [opened] at run
    exact Or.inl (Prod.mk.inj run).2.symm
  | some made =>
    obtain rfl := openCreate_spec opened
    simp only [opened] at run
    split at run
    · exact Or.inr ((Prod.mk.inj run).2 ▸ createdIn_create files pathname)
    · exact Or.inr ((Prod.mk.inj run).2 ▸ createdIn_put files pathname _)

theorem hdfImageCreate_frame
    (run : hdfImageCreate build fuel sys files pathname sectorCount = some (volume, created)) :
    created = files ∨ CreatedIn files pathname created := by
  rw [hdfImageCreate] at run
  cases opened : openCreate (sys 0) files pathname with
  | none =>
    simp only [opened] at run
    exact Or.inl (Prod.mk.inj (Option.some.inj run)).2.symm
  | some made =>
    obtain rfl := openCreate_spec opened
    simp only [opened] at run
    split at run
    · exact Or.inr ((Prod.mk.inj (Option.some.inj run)).2 ▸ createdIn_create files pathname)
    · split at run
      · exact absurd run (by simp)
      · split_ifs at run
        · exact Or.inr ((Prod.mk.inj (Option.some.inj run)).2 ▸ createdIn_put files pathname _)
        · exact Or.inr ((Prod.mk.inj (Option.some.inj run)).2 ▸ createdIn_put files pathname _)

/-- A creation touches the file it creates only, whether it succeeds or fails on its way. -/
theorem createVolume_frame
    (run : createVolume build fuel sys files pathname sectorCount = some (volume, created)) :
    created = files ∨ CreatedIn files pathname created := by
  rw [createVolume] at run
  split_ifs at run
  · exact hdfImageCreate_frame run
  · exact rawImageCreate_frame (Option.some.inj run)

/-- The created volume lies in the created file. -/
theorem createVolume_fd {made : VolumeContainer}
    (run : createVolume build fuel sys files pathname sectorCount = some (some made, created)) :
    made.fd.node = (files.create pathname).1 ∧ made.sectorCount = sectorCount := by
  obtain ⟨_, rfl, _⟩ := createVolume_spec run
  rw [destinationVolume, createdContainer]
  split_ifs
  · exact ⟨rfl, rfl⟩
  · exact ⟨rfl, rfl⟩

/-- An empty file is the file without bytes. -/
theorem empty_of_size_zero {file : ByteFile} (size : file.size = 0) : file = ByteFile.empty :=
  ByteFile.ext size fun index => file.beyond index (size ▸ Nat.zero_le _)

/-- A raw image without sectors is an empty file, as far as its creation may come. -/
theorem rawImageCreate_empty {node : Nat} (refers : files.node pathname = some node)
    (size : (files.file node).size = 0)
    (run : rawImageCreate build sys files pathname 0 = (volume, created)) :
    created.file node = files.file node := by
  have same := files.create_fst_of_node pathname refers
  rw [empty_of_size_zero size]
  rw [rawImageCreate] at run
  cases opened : sys 0 with
  | fail =>
    simp only [openCreate, opened] at run
    rw [← (Prod.mk.inj run).2, empty_of_size_zero size]
  | done limit =>
    have emptied := files.file_create pathname
    rw [same] at emptied
    simp only [openCreate, opened] at run
    rw [same, emptied, show build.mul 0 512 = 0 by simp [Build.mul]] at run
    cases extended : sys 1 with
    | fail =>
      simp only [ftruncate, extended] at run
      rw [← (Prod.mk.inj run).2, emptied]
    | done other =>
      simp only [ftruncate, extended, Nat.two_pow_pos, if_true] at run
      rw [← (Prod.mk.inj run).2, FileStore.file_put_self]
      exact empty_of_size_zero rfl

end Create

/-! ### The condition -/

/-- Where the two names refer to one file, it is too long to be opened, or it is empty and the
destination is a raw image. -/
def Harmless (files : Files) (source destination : FileName) : Prop :=
  ∀ node, files.node source = some node → files.node destination = some node →
    2 ^ 63 ≤ (files.file node).size ∨
      (files.file node).size = 0 ∧ filenameIsHdf destination = false

/-- The source image is as it was. -/
def SourceKept (files : Files) (source : FileName) (after : Files) : Prop :=
  ∀ node, files.node source = some node → after.file node = files.file node

/-- However the kernel answers, and wherever the command returns, `clone` keeps its source. -/
def CloneKeeps (build : Build) (files : Files) (source destination : FileName) : Prop :=
  ∀ fuel sys program command rest buffer result after,
    cmdClone build fuel sys (program :: command :: source :: destination :: rest) buffer files =
      some (result, after) → SourceKept files source after

/-! ### Clone -/

section Clone

variable {build : Build} {files after : Files} {source destination : FileName} {node : Nat}

/-- The loop writes to its destination only. -/
theorem cloneLoop_frame {writes totalSize : Nat} {sys : Nat → Schedule}
    {reads into : VolumeContainer} (different : node ≠ into.fd.node) {result : Int} (fuel : Nat)
    {call position : Nat} {buffer : Buffer}
    (run : cloneLoop writes sys reads into totalSize fuel call position buffer files =
      some (result, after)) : after.file node = files.file node := by
  induction fuel generalizing call position buffer files with
  | zero =>
    rw [cloneLoop] at run
    split_ifs at run
    rw [(Prod.mk.inj (Option.some.inj run)).2]
  | succ fuel inductionHypothesis =>
    rw [cloneLoop] at run
    split_ifs at run with more
    · dsimp only at run
      split at run
      · exact absurd run (by simp)
      · split_ifs at run
        · rw [(Prod.mk.inj (Option.some.inj run)).2]
        · split at run
          · exact absurd run (by simp)
          · split_ifs at run
            · rw [← (Prod.mk.inj (Option.some.inj run)).2,
                FileStore.file_put_of_ne _ _ different]
            · rw [inductionHypothesis run, FileStore.file_put_of_ne _ _ different]
    · rw [(Prod.mk.inj (Option.some.inj run)).2]

/-- A source of another name than the created file keeps its content while the file is created. -/
theorem CreatedIn.kept {created : Files} (made : created = files ∨
    CreatedIn files destination created)
    (refers : files.node source = some node) (apart : files.node destination ≠ some node) :
    node ≠ (files.create destination).1 ∧ created.file node = files.file node := by
  have different : node ≠ (files.create destination).1 := fun hit =>
    apart (files.node_eq_of_create destination refers hit.symm)
  refine ⟨different, ?_⟩
  rcases made with rfl | made
  · rfl
  · exact made.2 node different

/-- The volume of an empty file has no sectors. -/
theorem openVolume_empty {sys : Nat → Schedule} {volume : VolumeContainer}
    (refers : files.node source = some node) (size : (files.file node).size = 0)
    (run : openVolume build sys files source false = some volume) : volume.sectorCount = 0 := by
  obtain ⟨other, refers', _, rfl | rfl⟩ := openVolume_spec run
  all_goals obtain rfl := Option.some.inj (refers.symm.trans refers')
  · have zero : (files.file node).byte.loadWord 0x09 = 0 := by
      rw [empty_of_size_zero size]
      rfl
    simp [hdfVolume, hdfSectorCount, size, zero]
  · simp [rawVolume, size]

/-- Where the creation does no harm the source keeps its content, and if it is the created file then
it has no sectors. -/
theorem kept_of_harmless {fuel : Nat} {sys : Nat → Schedule} {calls : Schedule} {created : Files}
    {volume : VolumeContainer} {made : Option VolumeContainer}
    (harmless : Harmless files source destination) (refers : files.node source = some node)
    (opened : openVolume build sys files source false = some volume)
    (create : createVolume build fuel calls files destination volume.sectorCount =
      some (made, created)) :
    created.file node = files.file node ∧
      (node ≠ (files.create destination).1 ∨ volume.sectorCount = 0) := by
  by_cases same : files.node destination = some node
  · obtain ⟨other, refers', representable, _⟩ := openVolume_spec opened
    obtain rfl := Option.some.inj (refers.symm.trans refers')
    rcases harmless node refers same with long | ⟨size, raw⟩
    · exact absurd long (Nat.not_le.mpr representable)
    · have none := openVolume_empty refers size opened
      rw [createVolume, raw, none] at create
      exact ⟨rawImageCreate_empty same size (Option.some.inj create), Or.inr none⟩
  · obtain ⟨different, kept⟩ := CreatedIn.kept (createVolume_frame create) refers same
    exact ⟨kept, Or.inl different⟩

theorem cloneKeeps_of_harmless (harmless : Harmless files source destination) :
    CloneKeeps build files source destination := by
  intro fuel sys program command rest buffer result after run node refers
  rw [cmdClone] at run
  cases opened : openVolume build sys files source false with
  | none =>
    simp only [opened] at run
    rw [(Prod.mk.inj (Option.some.inj run)).2]
  | some volume =>
    simp only [opened] at run
    split at run
    · exact nomatch run
    · rename_i created create
      rw [← (Prod.mk.inj (Option.some.inj run)).2]
      exact (kept_of_harmless harmless refers opened create).1
    · rename_i made created create
      obtain ⟨kept, different | none⟩ := kept_of_harmless harmless refers opened create
      · rw [← (createVolume_fd create).1] at different
        rw [cloneLoop_frame different fuel run, kept]
      · rw [none, Build.mul, Nat.mul_zero, Nat.zero_mod] at run
        have ended : some ((0 : Int), created) = some (result, after) := by
          cases fuel <;> exact run
        rw [← (Prod.mk.inj (Option.some.inj ended)).2, kept]

/-- A kernel that refuses the look at the signature, and the creation behind so many calls. -/
def failing (calls : Nat) : Nat → Schedule
  | 0, _ => .fail
  | 1, _ => .done 0
  | _ + 2, call => if call < calls then .done 0 else .fail

/-- With such a kernel the source is opened as a raw image. -/
theorem openVolume_failing (calls : Nat) (refers : files.node source = some node)
    (representable : (files.file node).size < 2 ^ 63) :
    openVolume build (failing calls) files source false =
      some (rawVolume build files node false) := by
  have refused : imageFileIsHdf (failing calls 0) files source = false := rfl
  rw [openVolume, refused, if_neg Bool.false_ne_true]
  simp only [rawImageOpen, openExisting, failing, refers, fstat, representable, if_true,
    Option.bind_eq_bind, Option.bind_some]
  rfl

/-- The extension of a created file fails. -/
theorem createVolume_failing_one (refers : files.node destination = some node)
    (sectorCount : Nat) :
    ∃ created, createVolume build 1 (failing 1 2) files destination sectorCount =
      some (none, created) ∧ (created.file node).size = 0 := by
  have emptied : ((files.create destination).2.file node).size = 0 := by
    rw [← files.create_fst_of_node destination refers, files.file_create]
    rfl
  refine ⟨(files.create destination).2, ?_, emptied⟩
  rw [createVolume]
  split_ifs
  · rfl
  · rfl

/-- The header of a created HDF image without sectors is not written. -/
theorem createVolume_failing_two (refers : files.node destination = some node)
    (hdf : filenameIsHdf destination = true) :
    ∃ created, createVolume build 1 (failing 2 2) files destination 0 = some (none, created) ∧
      (created.file node).size = hdfHeaderSize := by
  have length : build.add (build.mul 0 512) hdfHeaderSize = hdfHeaderSize := by
    cases build <;> rfl
  have opened : failing 2 2 0 = .done 0 := rfl
  have extended : failing 2 2 1 = .done 0 := rfl
  refine ⟨(files.create destination).2.put (files.create destination).1
    (ByteFile.empty.truncate hdfHeaderSize), ?_, ?_⟩
  · rw [createVolume, if_pos hdf]
    simp only [hdfImageCreate, openCreate, opened, ftruncate, extended, files.file_create, length,
      if_pos (show hdfHeaderSize < 2 ^ 63 by decide)]
    rfl
  · rw [files.create_fst_of_node destination refers, FileStore.file_put_self]
    rfl

/-- If the names refer to one file that can be opened, its creation can be made to fail behind a
point where the file has another length. -/
theorem createVolume_failing (harmful : ¬ Harmless files source destination) :
    ∃ node calls, files.node source = some node ∧ (files.file node).size < 2 ^ 63 ∧
      ∃ created, createVolume build 1 (failing calls 2) files destination
          (rawVolume build files node false).sectorCount = some (none, created) ∧
        (created.file node).size ≠ (files.file node).size := by
  simp only [Harmless, not_forall, not_or, not_and, Nat.not_le] at harmful
  obtain ⟨node, refers, same, representable, notRaw⟩ := harmful
  by_cases size : (files.file node).size = 0
  · have hdf : filenameIsHdf destination = true := by simpa using notRaw size
    have none : (rawVolume build files node false).sectorCount = 0 := by simp [rawVolume, size]
    obtain ⟨created, create, long⟩ := @createVolume_failing_two build _ _ _ same hdf
    refine ⟨node, 2, refers, representable, created, none.symm ▸ create, ?_⟩
    rw [long, size]
    decide
  · obtain ⟨created, create, short⟩ := @createVolume_failing_one build _ _ _ same
      (rawVolume build files node false).sectorCount
    exact ⟨node, 1, refers, representable, created, create, by rw [short]; exact Ne.symm size⟩

theorem harmless_of_cloneKeeps (keeps : CloneKeeps build files source destination) :
    Harmless files source destination := by
  by_contra harmful
  obtain ⟨node, calls, refers, representable, created, create, different⟩ :=
    @createVolume_failing build _ _ _ harmful
  have run : cmdClone build 1 (failing calls) [[], [], source, destination] Buffer.zero files =
      some (-1, created) := by
    rw [cmdClone, openVolume_failing calls refers representable]
    simp only [create]
  exact different (congrArg ByteFile.size (keeps _ _ _ _ _ _ _ _ run node refers))

end Clone

/-! ### Rebuild -/

namespace Ff

open Program

section Rebuild

variable {machine after : Machine} {drive sector count node : Nat} {buff : Buffer}
  {file : ByteFile} {source destination : FileName}

/-- The source is the file of a name that the destination is not a name of, and no volume through
which it could be written is mapped. -/
structure SourceSafe (source destination : FileName) (node : Nat) (file : ByteFile)
    (machine : Machine) : Prop where
  bound : ∀ {vol fs}, machine.fatFs vol = some fs → fs.fsType.isSome = true →
    Live (fun _ => True) vol fs
  refers : machine.files.node source = some node
  apart : machine.files.node destination ≠ some node
  content : machine.files.file node = file
  volumes : ∀ {drive volume}, machine.volumeContainers drive = some volume →
    volume.fd.writeable = true → volume.fd.node ≠ node

/-- A write through a mapped volume is no write to the source. -/
theorem SourceSafe.write (safe : SourceSafe source destination node file machine)
    (run : (diskWrite drive buff sector count).Comes machine after) :
    SourceSafe source destination node file after := by
  obtain ⟨_, _, _, rfl, rfl | ⟨volume, sys, position, moved, written, mapped, write, rfl⟩⟩ :=
    diskWrite_comes run
  · exact ⟨safe.bound, safe.refers, safe.apart, safe.content, safe.volumes⟩
  · refine ⟨safe.bound, safe.refers, safe.apart, ?_, safe.volumes⟩
    by_cases same : node = volume.fd.node
    · cases mode : volume.fd.writeable with
      | true => exact absurd same.symm (safe.volumes mapped mode)
      | false =>
        rw [imageFileWrite_readOnly mode write, FileStore.put_file_self]
        exact safe.content
    · exact (FileStore.file_put_of_ne _ _ same).trans safe.content

theorem sourceSafe_keeper :
    Keeper (fun _ => True) (SourceSafe source destination node file) where
  bound safe := safe.bound
  object {machine vol fs} safe live := by
    refine ⟨fun {other found} registered mounted => ?_, safe.refers, safe.apart, safe.content,
      safe.volumes⟩
    by_cases same : other = vol
    · subst same
      rw [machine.fatFs_register] at registered
      obtain rfl := Option.some.inj registered
      exact live mounted
    · exact safe.bound ((Function.update_of_ne same _ _).symm.trans registered) mounted
  read safe run := by
    obtain ⟨transfers, rfl⟩ := diskRead_comes run
    exact ⟨safe.bound, safe.refers, safe.apart, safe.content, safe.volumes⟩
  write _ safe run := safe.write run
  rest _ _ _ _ safe := ⟨safe.bound, safe.refers, safe.apart, safe.content, safe.volumes⟩

/-- A volume may be mapped if the source cannot be written through it. -/
theorem SourceSafe.map {volume : VolumeContainer}
    (safe : SourceSafe source destination node file machine)
    (other : volume.fd.writeable = true → volume.fd.node ≠ node) :
    SourceSafe source destination node file (diskMap drive volume machine) := by
  refine ⟨safe.bound, safe.refers, safe.apart, safe.content, fun {place found} mapped => ?_⟩
  dsimp only [diskMap] at mapped
  by_cases same : place = drive
  · rw [same, Function.update_self] at mapped
    obtain rfl := Option.some.inj mapped
    exact other
  · rw [Function.update_of_ne same] at mapped
    exact safe.volumes mapped

/-- The destination is created in another file. -/
theorem createImage_safe (sectorCount : Nat) :
    Keeps (SourceSafe source destination node file) (createImage destination sectorCount)
      fun outcome => ∀ vol, outcome = some vol → vol.fd.node ≠ node := by
  refine keeps_bind (nextCalls_keeps sourceSafe_keeper 1) fun sys _ =>
    guards_get_bind fun start safe => ?_
  cases create : createVolume start.build start.fuel (sys 0) start.files destination
      sectorCount with
  | none => exact guards_undefined fun _ same => same ▸ safe
  | some made =>
    obtain ⟨volume, created⟩ := made
    have frame := createVolume_frame create
    obtain ⟨different, kept⟩ := CreatedIn.kept frame safe.refers safe.apart
    have names : created.node source = some node ∧ created.node destination ≠ some node := by
      rcases frame with rfl | made
      · exact ⟨safe.refers, safe.apart⟩
      · rw [made.1]
        have other : source ≠ destination := fun same => safe.apart (same ▸ safe.refers)
        refine ⟨(start.files.node_create_of_ne destination other).trans safe.refers, ?_⟩
        rw [start.files.node_create destination]
        exact fun same => different (Option.some.inj same).symm
    have stored : Guards (· = start) (SourceSafe source destination node file)
        (modify fun machine => { machine with files := created })
        fun _ => SourceSafe source destination node file :=
      guards_modify fun state same => by
        rw [same]
        exact ⟨safe.bound, names.1, names.2, kept.trans safe.content, safe.volumes⟩
    refine guards_bind stored fun _ => guards_pure fun _ safe => ⟨safe, ?_⟩
    rintro vol rfl
    rw [(createVolume_fd create).1]
    exact different.symm

/-! ### A rebuild in place -/

theorem onMachine_guards {Result : Type} {call : Program Machine Result}
    {before during : Machine → Prop} {done : Result → Machine → Prop}
    (calls : Guards before during call done) :
    Guards (fun state : Driver => before state.machine) (fun state => during state.machine)
      (onMachine call) fun result state => done result state.machine := by
  intro state ready
  have holds := calls state.machine ready
  unfold onMachine
  cases run : call state.machine with
  | error machine =>
    rw [run] at holds
    exact holds
  | ok outcome =>
    rw [run] at holds
    exact holds

/-- The files are these, and the build is this one. -/
def Stays (files : Files) (build : Build) (machine : Machine) : Prop :=
  machine.files = files ∧ machine.build = build

section Stays

variable {files : Files} {build : Build}

theorem nextCalls_stays (calls : Nat) :
    Keeps (Stays files build) (nextCalls calls) fun _ => True :=
  keeps_bind keeps_get fun _ _ => keeps_bind (keeps_modify fun _ stays => stays) fun _ _ =>
    keeps_pure trivial

theorem fMount_stays (vol : Nat) (fs : Option Fatfs) :
    Keeps (Stays files build) (fMount vol fs) fun _ => True :=
  keeps_ite (fun _ => keeps_pure trivial) fun _ =>
    keeps_bind (keeps_modify fun _ stays => stays) fun _ _ => keeps_pure trivial

/-- An image that was opened is one of the files. -/
theorem openImage_stays (fatfs : Option Fatfs) :
    Keeps (Stays files build) (openImage source fatfs false) fun opened =>
      ∀ vol, opened = some vol → ∃ sys, openVolume build sys files source false = some vol := by
  refine keeps_bind (nextCalls_stays 2) fun sys _ => keeps_bind keeps_get
    fun machine ⟨sameFiles, sameBuild⟩ => ?_
  rw [sameFiles, sameBuild]
  cases opened : openVolume build sys files source false with
  | none => exact keeps_pure nofun
  | some vol =>
    have found : ∀ other, some vol = some other → ∃ sys, openVolume build sys files source false =
        some other := fun other same => ⟨sys, same ▸ opened⟩
    refine keeps_bind (keeps_modify fun _ stays => stays) fun _ _ => ?_
    cases fatfs with
    | none => exact keeps_pure found
    | some fs =>
      refine keeps_bind (fMount_stays 0 (some fs)) fun res _ => keeps_pure fun other same => ?_
      split_ifs at same
      exact found other same

/-- The files behind the creation of an image are those it makes. -/
theorem createImage_files (sectorCount : Nat) :
    Guards (Stays files build) (fun _ => True) (createImage destination sectorCount)
      fun outcome machine => ∃ fuel sys, createVolume build fuel sys files destination sectorCount =
        some (outcome, machine.files) := by
  refine guards_bind (Guards.mono (nextCalls_stays 1) (fun _ => id) (fun _ _ => trivial)
    fun _ _ stays => stays.1) fun sys => guards_get_bind fun start ⟨sameFiles, sameBuild⟩ => ?_
  cases create : createVolume start.build start.fuel (sys 0) start.files destination
      sectorCount with
  | none => exact guards_undefined fun _ _ => trivial
  | some made =>
    have stored : Guards (· = start) (fun _ => True)
        (modify fun machine => { machine with files := made.2 })
        fun _ machine => machine.files = made.2 := guards_modify fun _ _ => rfl
    refine guards_bind stored fun _ => guards_pure fun _ same => ?_
    rw [same, ← sameFiles, ← sameBuild]
    exact ⟨_, _, create⟩

/-- A volume without sectors is not formatted. -/
theorem fMkfs_empty {volume : VolumeContainer} (none : volume.sectorCount = 0)
    (volumeLabel : Option (List UInt8)) (fmt : Option FatType) :
    Guards (fun machine => machine.volumeContainers 1 = some volume ∧ machine.files = files)
      (fun _ => True) (fMkfs 1 0 0 volumeLabel fmt)
      fun res machine => res ≠ .ok ∧ machine.files = files := by
  refine guards_ite (fun _ => guards_pure fun _ holds => ⟨by decide, holds.2⟩) fun _ => guards_ite
    (fun _ => guards_pure fun _ holds => ⟨by decide, holds.2⟩) fun _ => ?_
  have unmount : Guards (fun machine : Machine => machine.volumeContainers 1 = some volume ∧
      machine.files = files) (fun _ => True) (modifyFatfs 1 fun fs => { fs with fsType := .none })
      fun _ machine => machine.volumeContainers 1 = some volume ∧ machine.files = files :=
    guards_modify fun _ holds => holds
  have counted : Guards (fun machine : Machine => machine.volumeContainers 1 = some volume ∧
      machine.files = files) (fun _ => True) (diskSectorCount 1)
      fun count machine => count = 0 ∧ machine.files = files := by
    rintro machine ⟨mapped, same⟩
    simp only [diskSectorCount, mapped]
    exact ⟨none, same⟩
  refine guards_get_bind fun start holds => guards_ite (fun _ => guards_pure fun _ same => ?_)
    fun _ => guards_bind (Guards.mono unmount (fun _ same => same ▸ holds) (fun _ => id)
      fun _ _ => id) fun _ => guards_bind counted fun count => guards_ite (fun _ => guards_pure
        fun _ holds => ⟨by decide, holds.2⟩) fun large => ?_
  · exact ⟨by decide, same ▸ holds.2⟩
  · rintro machine ⟨rfl, _⟩
    exact absurd (show 0 < minSector by decide) large

/-- So the rest of a rebuild leaves the files alone. -/
theorem rebuildVolume_empty {volume : VolumeContainer} (none : volume.sectorCount = 0)
    (destinationFatfs : Fatfs) (fuel : Nat) (arguments : RebuildArguments) :
    Guards (fun state : Driver => state.machine.files = files) (fun _ => True)
      (rebuildVolume destinationFatfs fuel arguments volume)
      fun _ state => state.machine.files = files := by
  have mapped : Guards (fun machine : Machine => machine.files = files) (fun _ => True)
      (modify (diskMap 1 volume))
      fun _ machine => machine.volumeContainers 1 = some volume ∧ machine.files = files :=
    guards_modify fun _ same => ⟨by simp [diskMap], same⟩
  have mounted : Guards (fun machine : Machine => machine.volumeContainers 1 = some volume ∧
      machine.files = files) (fun _ => True) (fMount 1 (some destinationFatfs))
      fun _ machine => machine.volumeContainers 1 = some volume ∧ machine.files = files :=
    guards_ite (fun _ => guards_pure fun _ => id) fun _ =>
      guards_bind (guards_modify fun _ holds => holds) fun _ => guards_pure fun _ => id
  refine guards_bind (onMachine_guards mapped) fun _ => guards_bind (onMachine_guards mounted)
    fun _ => guards_ite (fun _ => guards_pure fun _ holds => holds.2) fun _ =>
      guards_bind (onMachine_guards (fMkfs_empty none _ _)) fun res => guards_ite
        (fun _ => guards_pure fun _ holds => holds.2) fun ok => ?_
  exact fun state holds => absurd (not_not.mp ok) holds.1

end Stays

end Rebuild

/-! ### When the source survives -/

/-- The program has just started: nothing is mapped, mounted or open. -/
structure Driver.Fresh (start : Driver) : Prop where
  volumes : ∀ drive, start.machine.volumeContainers drive = none
  unmounted : start.machine.Unmounted
  closed : start.fils = []

end Ff

/-- An argument that is not an option of `rebuild`. -/
def IsPath (arg : FileName) : Prop :=
  arg ≠ fatOption 0x31 0x32 ∧ arg ≠ fatOption 0x31 0x36 ∧ arg ≠ fatOption 0x33 0x32

/-- However the kernel answers, whatever the other arguments are and wherever the command returns,
`rebuild` keeps its source. -/
def RebuildKeeps (build : Build) (files : Files) (source destination : FileName) : Prop :=
  ∀ (start : Ff.Driver) sourceFatfs destinationFatfs fuel argv result after, start.Fresh →
    start.machine.build = build → start.machine.files = files →
    (Ff.rebuildArguments argv).sourceFilename = source →
    (Ff.rebuildArguments argv).destinationFilename = destination →
    (Ff.cmdRebuild sourceFatfs destinationFatfs fuel argv).Outcome start result after →
      SourceKept files source after.machine.files

section Survives

open Program Ff

variable {build : Build} {files : Files} {source destination : FileName} {node : Nat}

/-- Names of different files. -/
theorem rebuildKeeps_apart {start after : Driver} {sourceFatfs destinationFatfs : Fatfs}
    {fuel : Nat} {argv : List FileName} {result : Int} (fresh : start.Fresh)
    (refers : start.machine.files.node (rebuildArguments argv).sourceFilename = some node)
    (apart : start.machine.files.node (rebuildArguments argv).destinationFilename ≠ some node)
    (run : (Ff.cmdRebuild sourceFatfs destinationFatfs fuel argv).Outcome start result after) :
    after.machine.files.file node = start.machine.files.file node := by
  have safe : SourceSafe (rebuildArguments argv).sourceFilename
      (rebuildArguments argv).destinationFilename node (start.machine.files.file node)
      start.machine := by
    refine ⟨fun registered mounted => ?_, refers, apart, rfl, fun mapped => ?_⟩
    · rw [fresh.unmounted _ _ registered] at mounted
      exact nomatch mounted
    · rw [fresh.volumes] at mapped
      exact nomatch mapped
  have ready : Driven (fun _ => True) (SourceSafe (rebuildArguments argv).sourceFilename
      (rebuildArguments argv).destinationFilename node (start.machine.files.file node)) start := by
    refine ⟨safe, fun fp member => ?_⟩
    rw [fresh.closed] at member
    exact absurd member List.not_mem_nil
  have keeper : Keeper (fun _ => True) (SourceSafe (rebuildArguments argv).sourceFilename
      (rebuildArguments argv).destinationFilename node (start.machine.files.file node)) :=
    sourceSafe_keeper
  have keeps := cmdRebuild_keeps keeper trivial sourceFatfs destinationFatfs fuel argv
    (openImage_keeps keeper _ fun machine vol safe readOnly => safe.map fun mode =>
      absurd (mode.symm.trans readOnly) (by decide))
    createImage_safe fun machine vol other safe => safe.map fun _ => other
  exact (keeps.comes ready (Or.inl ⟨result, run⟩)).1.content

/-- Names of one file that takes no harm from its creation. -/
theorem rebuildKeeps_same {argv : List FileName} (sourceFatfs destinationFatfs : Fatfs)
    (fuel : Nat) (refers : files.node (rebuildArguments argv).sourceFilename = some node)
    (harmless : Harmless files (rebuildArguments argv).sourceFilename
      (rebuildArguments argv).destinationFilename)
    (same : files.node (rebuildArguments argv).destinationFilename = some node) :
    Guards (fun state : Driver => Stays files build state.machine) (fun _ => True)
      (Ff.cmdRebuild sourceFatfs destinationFatfs fuel argv)
      fun _ state => state.machine.files.file node = files.file node := by
  have unchanged : ∀ state : Driver, Stays files build state.machine →
      state.machine.files.file node = files.file node := fun _ stays => by rw [stays.1]
  have opens := onMachine_guards (openImage_stays (some sourceFatfs) :
    Keeps (Stays files build) (openImage (rebuildArguments argv).sourceFilename _ _) _)
  refine guards_ite (fun _ => guards_pure fun _ stays => unchanged _ stays) fun _ =>
    guards_bind (Guards.mono opens (fun _ => id) (fun _ _ => trivial) fun _ _ => id)
      fun opened => ?_
  cases opened with
  | none => exact guards_pure fun _ holds => unchanged _ holds.1
  | some sourceVol =>
    rintro state ⟨stays, found⟩
    obtain ⟨sys, opened⟩ := found _ rfl
    have creates := onMachine_guards (createImage_files sourceVol.sectorCount :
      Guards (Stays files build) _ (createImage (rebuildArguments argv).destinationFilename _) _)
    refine guards_bind creates (fun outcome => ?_) state stays
    rintro created ⟨enough, calls, create⟩
    obtain ⟨kept, different | none⟩ := kept_of_harmless harmless refers opened create
    · exact absurd (files.create_fst_of_node _ same).symm different
    · cases outcome with
      | none => exact kept
      | some destinationVol =>
        have empty : destinationVol.sectorCount = 0 := (createVolume_fd create).2.trans none
        exact Guards.mono (rebuildVolume_empty empty destinationFatfs fuel (rebuildArguments argv))
          (fun _ same => same) (fun _ => id) (fun _ _ same => same ▸ kept) created rfl

theorem rebuildKeeps_of_harmless (harmless : Harmless files source destination) :
    RebuildKeeps build files source destination := by
  rintro start sourceFatfs destinationFatfs fuel argv result after fresh rfl rfl rfl rfl run node
    refers
  by_cases same : start.machine.files.node (rebuildArguments argv).destinationFilename = some node
  · exact (rebuildKeeps_same sourceFatfs destinationFatfs fuel refers harmless same).ensures
      _ _ _ ⟨rfl, rfl⟩ run
  · exact rebuildKeeps_apart fresh refers same run

theorem onMachine_outcome {Result : Type} {call : Program Machine Result} {start after : Machine}
    {result : Result} (run : call.Outcome start result after) (fils : List Fil) :
    (onMachine call).Outcome ⟨start, fils⟩ result ⟨after, fils⟩ := by
  unfold Outcome onMachine
  rw [show call start = .ok (result, after) from run]

/-- A program that has just started, with a kernel that fails. -/
def failingMachine (build : Build) (files : Files) (calls : Nat) : Machine where
  build
  fuel := 1
  sys := failing calls
  transfers := 0
  files
  volumeContainers _ := none
  fatFs _ := none
  fsid := 0
  lfnBuf _ := 0
  time _ := 0
  ticks := 0
  written := []

/-- The program behind the opening of the source. -/
def openedMachine (build : Build) (files : Files) (calls node : Nat) : Machine :=
  (diskMap 0 (rawVolume build files node false)
    { failingMachine build files calls with transfers := 2 }).register 0
      (some { blankFatfs with fsType := none })

theorem openImage_failing (calls : Nat) (refers : files.node source = some node)
    (representable : (files.file node).size < 2 ^ 63) :
    (openImage source (some blankFatfs) false).Outcome (failingMachine build files calls)
      (some (rawVolume build files node false)) (openedMachine build files calls node) := by
  have next : (nextCalls 2).Outcome (failingMachine build files calls) (failing calls)
      { failingMachine build files calls with transfers := 2 } := by
    refine congrArg Except.ok (Prod.ext (funext fun call => ?_) rfl)
    exact congrArg (failing calls) (Nat.zero_add call)
  refine outcome_bind.mpr ⟨_, _, next, outcome_bind.mpr ⟨_, _, rfl, ?_⟩⟩
  have opened := @openVolume_failing build _ _ _ calls refers representable
  split
  · rename_i missing
    exact nomatch opened.symm.trans missing
  · rename_i vol found
    obtain rfl := Option.some.inj (opened.symm.trans found)
    rfl

theorem harmless_of_rebuildKeeps (path : IsPath source) (path' : IsPath destination)
    (keeps : RebuildKeeps build files source destination) : Harmless files source destination := by
  by_contra harmful
  obtain ⟨node, calls, refers, representable, created, create, different⟩ :=
    @createVolume_failing build _ _ _ harmful
  have arguments : rebuildArguments [source, destination] =
    ⟨none, 2, source, destination, none⟩ := by
    simp only [rebuildArguments, List.foldl, RebuildArguments.read, path.1, path.2.1, path.2.2,
      path'.1, path'.2.1, path'.2.2, if_false]
    rfl
  have opens := @openImage_failing build _ _ _ calls refers representable
  have creates : (createImage destination (rawVolume build files node false).sectorCount).Outcome
      (openedMachine build files calls node) none
      { openedMachine build files calls node with transfers := 3, files := created } := by
    refine outcome_bind.mpr ⟨_, _, rfl, outcome_bind.mpr ⟨_, _, rfl, ?_⟩⟩
    split
    · rename_i missing
      exact nomatch create.symm.trans missing
    · rename_i vol files' made
      obtain ⟨rfl, rfl⟩ := Prod.mk.inj (Option.some.inj (create.symm.trans made))
      rfl
  have run : (Ff.cmdRebuild blankFatfs blankFatfs 0 [source, destination]).Outcome
      ⟨failingMachine build files calls, []⟩ (-1)
      ⟨{ openedMachine build files calls node with transfers := 3, files := created }, []⟩ := by
    rw [Ff.cmdRebuild, arguments]
    refine outcome_bind.mpr ⟨_, _, onMachine_outcome opens [], ?_⟩
    exact outcome_bind.mpr ⟨_, _, onMachine_outcome creates [], rfl⟩
  have fresh : Driver.Fresh ⟨failingMachine build files calls, []⟩ :=
    ⟨fun _ => rfl, fun _ _ => nofun, rfl⟩
  have same := keeps _ _ _ _ _ _ _ fresh rfl rfl (by rw [arguments]) (by rw [arguments]) run node
    refers
  exact different (congrArg ByteFile.size same)

/-- Both commands keep their source exactly where the names are of different files, or of one that
takes no harm from its creation. -/
theorem source_kept_iff (build : Build) (files : Files) (source destination : FileName) :
    (CloneKeeps build files source destination ↔ Harmless files source destination) ∧
      (IsPath source → IsPath destination →
        (RebuildKeeps build files source destination ↔ Harmless files source destination)) :=
  ⟨⟨harmless_of_cloneKeeps, cloneKeeps_of_harmless⟩, fun path path' =>
    ⟨harmless_of_rebuildKeeps path path', rebuildKeeps_of_harmless⟩⟩

/-- An image that is cloned or rebuilt into a new file survives. -/
theorem source_kept_iff_new : CloneKeeps .lp64 smallMachine.files [0x69] [0x6a] ∧
    RebuildKeeps .lp64 smallMachine.files [0x69] [0x6a] := by
  have kept := source_kept_iff .lp64 smallMachine.files [0x69] [0x6a]
  have harmless : Harmless smallMachine.files [0x69] [0x6a] := by
    intro node _ same
    have missing : smallMachine.files.node [0x6a] = none := by decide +kernel
    exact absurd (missing.symm.trans same) (by simp)
  exact ⟨kept.1.mpr harmless, (kept.2 ⟨by decide, by decide, by decide⟩
    ⟨by decide, by decide, by decide⟩).mpr harmless⟩

/-- An image that is cloned or rebuilt into itself is lost, with a kernel that serves every call. -/
theorem not_source_kept :
    ¬ CloneKeeps .lp64 smallMachine.files [0x69] [0x69] ∧
      ¬ RebuildKeeps .lp64 smallMachine.files [0x69] [0x69] := by
  refine ⟨fun keeps => ?_, fun keeps => ?_⟩
  · have cloned : (cmdClone .lp64 8192 (fun _ => Schedule.kernel) [[], [], [0x69], [0x69]]
        Buffer.zero smallMachine.files).map (fun x => (x.2.file 0).byte 12) = some 0 := by
      decide +kernel
    obtain ⟨⟨result, after⟩, run, zero⟩ := Option.map_eq_some_iff.mp cloned
    have same := keeps _ _ _ _ _ _ _ _ run 0 rfl
    rw [same] at zero
    exact absurd zero (by decide +kernel)
  · have rebuilt : ((Ff.cmdRebuild blankFatfs blankFatfs 0 [[0x69], [0x69]])
        ⟨smallMachine, []⟩).toOption.map (fun x => (x.2.machine.files.file 0).byte 12) =
          some 0 := by decide +kernel
    obtain ⟨result, after, run, zero⟩ := outcome_of_observed rebuilt
    have fresh : Driver.Fresh ⟨smallMachine, []⟩ := ⟨fun _ => rfl, smallMachine_unmounted, rfl⟩
    have same := keeps _ _ _ _ _ _ _ fresh rfl rfl rfl rfl run 0 rfl
    rw [same] at zero
    exact absurd zero (by decide +kernel)

end Survives

end Hdfmonkey
