/-
This file says what holds over whole runs of the lower half of the driver: of its window,
of the entries of its FAT, of its allocator, and of any number of sessions with one image.

Each run goes through the code; what it comes to is said without window, bytes or copies.
-/

import Hdfmonkey.CopyRoom
import Hdfmonkey.Remount

namespace Hdfmonkey

/-! ### An image to run on -/

/-- The machine of another process that opened the image and takes so many turns. -/
def Machine.reopened (machine : Machine) (drive turns : Nat) : Machine :=
  { machine.restarted drive with fuel := turns }

theorem Machine.fatFs_reopened (machine : Machine) (drive turns : Nat) :
    (machine.reopened drive turns).fatFs drive = some blankFatfs := by
  change (machine.restarted drive).fatFs drive = _
  exact Machine.fatFs_register _ _ _

namespace Ff

open Program

/-- A raw image of 2000 sectors is formatted as FAT12 and opened again. -/
theorem exists_formatted : ∃ after,
    (fMkfs 0 0 0 none (some .fat12)).Outcome (imageMachine (rawImage 2000)) .ok after ∧
      ((imageMachine (rawImage 2000)).unmounted 0).Serves 0 (rawImage 2000) ∧
      (after.reopened 0 4096).Serves 0 (rawImage 2000) := by
  obtain ⟨after, run, served⟩ :=
    imageMachine_fMkfs (rawImage_ofImage 2000) rfl (by decide) none (some .fat12)
  have serves := served.serves
  exact ⟨after, run, ⟨⟨imageMachine_mapped _, by decide, by decide, fun _ _ =>
    Schedule.kernel_steady⟩, rfl, Nat.le_refl _⟩, ⟨serves.mapped, serves.near, serves.small,
    fun _ _ => Schedule.kernel_steady⟩, serves.writeable, show sectorSize ≤ 4096 by decide⟩

/-- It is stocked. -/
theorem exists_stocked : ∃ machine, machine.fatFs 0 = some blankFatfs ∧
    Stocked 0 (rawImage 2000) (machine.files.file (rawImage 2000).fd.node).size
      (rawLayout (some .fat12) 2000) machine (rootClusters true .fat12) := by
  obtain ⟨after, run, serves, again⟩ := exists_formatted
  exact ⟨after.reopened 0 4096, Machine.fatFs_reopened _ _ _, stocked_formatted true serves rfl run
    rfl (by decide) ⟨again.toReads, rfl, rfl, rfl⟩ (attends_of_serves again _)
    ⟨show (rawLayout (some .fat12) 2000).nClst + 2 ≤ 4096 by decide,
      show (rawLayout (some .fat12) 2000).allocsize * sectorSize ≤ 4096 by decide⟩⟩

/-- It is mounted. -/
theorem exists_mounted : ∃ size build machine mounted disk,
    Allots 0 (rawImage 2000) size build .fat12 (FatType.fat12 = .fat32) mounted disk machine
      ⟨rootClusters true .fat12, mounted.lastClust⟩ ∧
    mounted.nFats = nFats ∧ mounted.maxClust = (rawLayout (some .fat12) 2000).nClst + 2 := by
  obtain ⟨machine, registered, stocked⟩ := exists_stocked
  obtain ⟨after, mounted, _, allots, matched, _⟩ :=
    chkMounted_stocked stocked (by decide) registered rfl
  exact ⟨_, _, after, mounted, _, allots, matched.nFats, matched.maxClust⟩

/-! ### The window -/

/-- What the callers of `move_window` do: they look at a sector, or change it in the window. -/
structure WindowUse where
  sector : Nat
  edit : Option (Buffer → Buffer)

/-- A change depends on the bytes of the sector only. -/
def WindowUse.Local (use : WindowUse) : Prop :=
  ∀ edit, use.edit = some edit → ∀ buffer, cut (edit (cut buffer)) = cut (edit buffer)

/-- The sectors after a use. -/
def WindowUse.apply (disk : Nat → Buffer) (use : WindowUse) : Nat → Buffer :=
  match use.edit with
  | none => disk
  | some edit => Function.update disk use.sector (cut (edit (disk use.sector)))

def useWindow (vol : Nat) : List WindowUse → Program Machine FResult
  | [] => return .ok
  | use :: rest => do
    let res ← moveWindow vol use.sector
    if res ≠ .ok then return res
    match use.edit with
    | none => useWindow vol rest
    | some edit =>
      modifyFatfs vol fun fs => { fs with win := edit fs.win, wflag := true }
      useWindow vol rest

section Window

variable {vol : Nat} {volume : VolumeContainer} {size : Nat} {build : Build} {fs : Fatfs}
  {disk : Nat → Buffer} {machine : Machine}

/-- A run of uses leaves the other sectors alone. -/
theorem foldl_apply_of_ne {sector : Nat} (uses : List WindowUse)
    (apart : ∀ use ∈ uses, sector ≠ use.sector) :
    uses.foldl WindowUse.apply disk sector = disk sector := by
  induction uses generalizing disk with
  | nil => rfl
  | cons use rest inductionHypothesis =>
    rw [List.foldl_cons, inductionHypothesis fun other member =>
      apart other (List.mem_cons_of_mem _ member), WindowUse.apply]
    cases use.edit with
    | none => rfl
    | some edit => exact Function.update_of_ne (apart use List.mem_cons_self) _ _

/-- A run of uses changes what is seen as it would change a store of sectors, by induction on the
uses. -/
theorem useWindow_sees (uses : List WindowUse)
    (sees : Sees vol volume size build fs disk machine) (mode : volume.fd.writeable = true)
    (fits : ∀ use ∈ uses, (fatArea fs).Worked volume size use.sector ∧ use.Local) :
    ∃ win winsect wflag after, (useWindow vol uses).Outcome machine .ok after ∧
      Sees vol volume size build { fs with win, winsect, wflag } (uses.foldl WindowUse.apply disk)
        after := by
  induction uses generalizing fs disk machine with
  | nil => exact ⟨_, _, _, machine, outcome_pure.mpr ⟨rfl, rfl⟩, sees⟩
  | cons use rest inductionHypothesis =>
    obtain ⟨worked, locality⟩ := fits use List.mem_cons_self
    obtain ⟨win, wflag, middle, moved, seesMiddle⟩ := moveWindow_sees sees worked
    have there : use.sector ≠ 0 := Nat.ne_of_gt (Nat.lt_of_lt_of_le sees.behind worked.first)
    have shown := (seesMiddle.window there).2
    have later : ∀ other ∈ rest, (fatArea fs).Worked volume size other.sector ∧ other.Local :=
      fun other member => fits other (List.mem_cons_of_mem _ member)
    rw [useWindow, List.foldl_cons, WindowUse.apply]
    cases edit : use.edit with
    | none =>
      obtain ⟨win, winsect, wflag, after, run, seesAfter⟩ := inductionHypothesis seesMiddle later
      refine ⟨win, winsect, wflag, after, outcome_bind.mpr ⟨.ok, _, moved, ?_⟩, seesAfter⟩
      rw [if_neg (not_not.mpr rfl)]
      exact run
    | some edit' =>
      have edited := edit_sees seesMiddle mode there (edit' win)
      rw [← locality edit' edit win, shown] at edited
      obtain ⟨win, winsect, wflag, after, run, seesAfter⟩ := inductionHypothesis edited later
      refine ⟨win, winsect, wflag, after, outcome_bind.mpr ⟨.ok, _, moved, ?_⟩, seesAfter⟩
      rw [if_neg (not_not.mpr rfl)]
      dsimp only
      rw [outcome_modifyFatfs_bind, seesMiddle.registered]
      exact run

/-- After any run of uses and a last move to no sector, the image holds what a plain store of
sectors would, the copies of the FAT hold what the FAT does, and nothing in front of the FAT has
changed. -/
theorem useWindow_settles (uses : List WindowUse)
    (sees : Sees vol volume size build fs disk machine) (mode : volume.fd.writeable = true)
    (fits : ∀ use ∈ uses, (fatArea fs).Worked volume size use.sector ∧ use.Local) :
    ∃ middle after, (useWindow vol uses).Outcome machine .ok middle ∧
      (moveWindow vol 0).Outcome middle .ok after ∧
      (∀ sector, (fatArea fs).Worked volume size sector →
        after.sectorBytes volume sector = uses.foldl WindowUse.apply disk sector ∧
        ∀ copy ∈ (fatArea fs).copies sector,
          after.sectorBytes volume copy = uses.foldl WindowUse.apply disk sector) ∧
      ∀ sector, sector < fs.fatbase →
        after.sectorBytes volume sector = machine.sectorBytes volume sector := by
  obtain ⟨win, winsect, wflag, middle, run, seesMiddle⟩ := useWindow_sees uses sees mode fits
  obtain ⟨after, flushed, seesAfter, settled⟩ := moveWindow_flush seesMiddle
  refine ⟨middle, after, run, flushed, settled, fun sector before => ?_⟩
  have apart : ∀ use ∈ uses, sector ≠ use.sector := fun use member =>
    Nat.ne_of_lt (Nat.lt_of_lt_of_le before (fits use member).1.first)
  rw [seesAfter.front sector before, foldl_apply_of_ne uses apart, sees.front sector before]

/-- A byte of the first FAT is changed. -/
theorem useWindow_settles_byte : ∃ machine middle after fs,
    machine.fatFs 0 = some fs ∧ fs.fsType = some .fat12 ∧
      (useWindow 0 [⟨fs.fatbase, some (·.store 3 1)⟩]).Outcome machine .ok middle ∧
      (moveWindow 0 0).Outcome middle .ok after ∧
      after.sectorBytes (rawImage 2000) fs.fatbase 3 = 1 := by
  obtain ⟨size, build, machine, fs, disk, allots, _, most⟩ := exists_mounted
  have room := allots.tabled.room
  rw [most] at room
  have worked := allots.tabled.worked allots.sees
    (Nat.lt_of_lt_of_le (show 0 < fatLength .fat12 _ by decide) room)
  rw [Nat.zero_div, Nat.add_zero] at worked
  have locality : WindowUse.Local ⟨fs.fatbase, some (·.store 3 1)⟩ := by
    intro edit is buffer
    obtain rfl := Option.some.inj is
    refine cut_congr fun index inside => ?_
    dsimp only
    by_cases here : index = 3
    · rw [here, Buffer.store_self, Buffer.store_self]
    · rw [Buffer.store_of_ne _ _ here, Buffer.store_of_ne _ _ here, cut_inside inside]
  obtain ⟨middle, after, run, flushed, settled, _⟩ :=
    useWindow_settles [⟨fs.fatbase, some (·.store 3 1)⟩] allots.sees rfl fun use member => by
      rw [List.mem_singleton.mp member]
      exact ⟨worked, locality⟩
  refine ⟨machine, middle, after, fs, allots.sees.registered, allots.tabled.type, run, flushed, ?_⟩
  rw [(settled _ worked).1, List.foldl_cons, List.foldl_nil, WindowUse.apply]
  dsimp only
  rw [Function.update_self, cut_inside (by decide), Buffer.store_self]

end Window

/-! ### The entries of a FAT -/

/-- Some entries are put, one after the other. -/
def putEntries (vol : Nat) : List (Nat × Nat) → Program Machine FResult
  | [] => return .ok
  | write :: rest => do
    let res ← putFat vol write.1 write.2
    if res ≠ .ok then return res
    putEntries vol rest

/-- The entries after one was put, in the bits that they have. -/
def storeValue (fmt : FatType) (entries : Nat → Nat) (write : Nat × Nat) : Nat → Nat :=
  Function.update entries write.1 (write.2 % 2 ^ entryBits fmt)

section Entries

variable {vol : Nat} {volume : VolumeContainer} {size : Nat} {build : Build} {fs : Fatfs}
  {disk : Nat → Buffer} {machine : Machine} {fmt : FatType}

/-- A run of writes changes the FAT as it would change an array, by induction on the writes. -/
theorem putEntries_sees (writes : List (Nat × Nat))
    (sees : Sees vol volume size build fs disk machine) (mode : volume.fd.writeable = true)
    (tabled : Tabled volume size fmt fs) (inside : ∀ write ∈ writes, 2 ≤ write.1 ∧
    write.1 < fs.maxClust) : ∃ fs' disk' after, (putEntries vol writes).Outcome machine .ok after ∧
      Sees vol volume size build fs' disk' after ∧ Reworked fs fs' ∧
      fatEntry fmt (fatBytes disk' fs.fatbase) =
        writes.foldl (storeValue fmt) (fatEntry fmt (fatBytes disk fs.fatbase)) ∧
      ∀ sector, OutsideFat fs sector → disk' sector = disk sector := by
  induction writes generalizing fs disk machine with
  | nil => exact ⟨fs, disk, machine, outcome_pure.mpr ⟨rfl, rfl⟩, sees, .refl, rfl, fun _ _ => rfl⟩
  | cons write rest inductionHypothesis =>
    obtain ⟨lower, upper⟩ := inside write List.mem_cons_self
    obtain ⟨win, winsect, middle, disk₁, put, there, seesMiddle, stored, outside⟩ :=
      putFat_sees sees mode tabled lower upper write.2
    have first : fatEntry fmt (fatBytes disk₁ fs.fatbase) =
        storeValue fmt (fatEntry fmt (fatBytes disk fs.fatbase)) write := by
      funext clst
      rw [stored, storeValue]
      by_cases same : clst = write.1
      · rw [same, Function.update_self, fatEntry_storeEntry_self]
      · rw [Function.update_of_ne same, fatEntry_storeEntry_of_ne same]
    obtain ⟨fs', disk', after, run, seesAfter, reworked, entries, outside'⟩ :=
      inductionHypothesis seesMiddle { tabled with } fun other member =>
        inside other (List.mem_cons_of_mem _ member)
    refine ⟨fs', disk', after, outcome_bind.mpr ⟨.ok, _, put, ?_⟩, seesAfter,
      .trans ⟨_, _, _, _, _, _, .inr (.inr there), rfl⟩ reworked, ?_, fun sector away =>
        (outside' sector away).trans (outside sector away)⟩
    · rw [if_neg (not_not.mpr rfl)]
      exact run
    · rw [List.foldl_cons, ← first]
      exact entries

/-- The sectors of a FAT are worked on. -/
theorem fatBytes_settled {copy : Nat} (sees : Sees vol volume size build fs disk machine)
    (tabled : Tabled volume size fmt fs) (settled : Settled volume size fs disk machine)
    (few : copy < fs.nFats) {index : Nat} (inside : index < fs.sectsFat * sectorSize) :
    fatBytes (machine.sectorBytes volume) (fs.fatbase + copy * fs.sectsFat) index =
      fatBytes disk fs.fatbase index := by
  have sector : index / sectorSize < fs.sectsFat :=
    (Nat.div_lt_iff_lt_mul (by decide)).mpr inside
  obtain ⟨here, copies⟩ := settled _ (tabled.worked sees inside)
  rw [fatBytes, fatBytes]
  cases copy with
  | zero => rw [Nat.zero_mul, Nat.add_zero, here]
  | succ copy =>
    have copied : fs.fatbase + index / sectorSize + (copy + 1) * fs.sectsFat ∈
        (fatArea fs).copies (fs.fatbase + index / sectorSize) :=
      FatArea.copy_mem (Nat.add_lt_add_left sector _) few
    rw [Nat.add_right_comm, copies _ copied]

/-- `put_fat` and `get_fat` are the writes and reads of an array, whatever entries share a byte or
lie across sectors; and once the window is written back every copy of the FAT has the entries. -/
theorem putEntries_array (writes : List (Nat × Nat))
    (sees : Sees vol volume size build fs disk machine) (mode : volume.fd.writeable = true)
    (tabled : Tabled volume size fmt fs) (inside : ∀ write ∈ writes, 2 ≤ write.1 ∧
    write.1 < fs.maxClust) : ∃ middle flushed, (putEntries vol writes).Outcome machine .ok middle ∧
      (moveWindow vol 0).Outcome middle .ok flushed ∧
      ∀ clst, 2 ≤ clst → clst < fs.maxClust →
        (∃ after, (getFat vol clst).Outcome middle
          (writes.foldl (storeValue fmt) (fatEntry fmt (fatBytes disk fs.fatbase)) clst) after) ∧
        ∀ copy, copy < fs.nFats →
          fatEntry fmt (fatBytes (flushed.sectorBytes volume) (fs.fatbase + copy * fs.sectsFat))
            clst = writes.foldl (storeValue fmt)
              (fatEntry fmt (fatBytes disk fs.fatbase)) clst := by
  obtain ⟨fs', disk', middle, run, seesMiddle, reworked, entries, _⟩ :=
    putEntries_sees writes sees mode tabled inside
  obtain ⟨flushed, brought, seesAfter, settled⟩ := moveWindow_flush seesMiddle
  have tabled' := reworked.tabled tabled
  obtain ⟨_, _, _, _, _, _, _, rfl⟩ := reworked
  refine ⟨middle, flushed, run, brought, fun clst lower upper => ⟨?_, fun copy few => ?_⟩⟩
  · obtain ⟨_, _, _, after, got, _, _⟩ := getFat_sees seesMiddle tabled' lower upper
    rw [← entries]
    exact ⟨after, got⟩
  · rw [← entries]
    refine fatEntry_congr (fun index within => ?_) tabled.room upper
    exact fatBytes_settled seesAfter { tabled' with } settled few within

/-- Two entries of FAT12 that share a byte. -/
theorem putEntries_array_neighbours : ∃ machine middle first second,
    (putEntries 0 [(2, 0xABC), (3, 0x123)]).Outcome machine .ok middle ∧
      (getFat 0 2).Outcome middle 0xABC first ∧ (getFat 0 3).Outcome middle 0x123 second := by
  obtain ⟨size, build, machine, fs, disk, allots, _, most⟩ := exists_mounted
  have few : 3 < fs.maxClust := most ▸ (by decide)
  obtain ⟨middle, _, run, _, array⟩ :=
    putEntries_array [(2, 0xABC), (3, 0x123)] allots.sees rfl allots.tabled fun write member => by
      rcases List.mem_pair.mp member with rfl | rfl
      · exact ⟨by decide, Nat.lt_of_succ_lt few⟩
      · exact ⟨by decide, few⟩
  obtain ⟨first, gotFirst⟩ := (array 2 (by decide) (Nat.lt_of_succ_lt few)).1
  obtain ⟨second, gotSecond⟩ := (array 3 (by decide) few).1
  exact ⟨machine, middle, first, second, run, gotFirst, gotSecond⟩

end Entries

/-! ### The set of the clusters in use -/

/-- What a request does to the set of the clusters in use, and to the lists of the owners. -/
def Request.onVolume {Owner : Type} [DecidableEq Owner]
    (state : ClusterVolume × (Owner → List Nat)) :
    Request Owner → ClusterVolume × (Owner → List Nat)
  | .grow owner =>
    match state.1.createChain (state.2 owner) with
    | none => state
    | some created => (created.2, Function.update state.2 owner (state.2 owner ++ [created.1]))
  | .shed owner => (state.1.removeChain (state.2 owner), Function.update state.2 owner [])

/-- The set of the clusters in use is that of the clusters that some owner has. -/
structure Pictures {Owner : Type} (mcl : Nat) (allocation : Allocation Owner)
    (volume : ClusterVolume) : Prop where
  begun : 1 < mcl
  clusters : volume.maxClust = mcl
  hint : volume.lastClust = allocation.hint
  used : ∀ clst, clst ∈ volume.used ↔ allocation.Taken clst
  inside : ∀ clst ∈ volume.used, 2 ≤ clst ∧ clst < mcl
  apart : Unshared allocation.clusters

section Pictures

variable {Owner : Type} {mcl : Nat} {allocation : Allocation Owner} {volume : ClusterVolume}

theorem Pictures.holds (pictures : Pictures mcl allocation volume) (owner : Owner) :
    volume.Holds (allocation.clusters owner) := fun clst member => by
  rw [pictures.clusters]
  exact pictures.inside clst ((pictures.used clst).mpr ⟨owner, member⟩)

open Classical in
/-- The cluster that is created is the one that is chosen. -/
theorem Pictures.choice (pictures : Pictures mcl allocation volume) (owner : Owner) :
    volume.createChain (allocation.clusters owner) =
      (allocation.choice mcl owner).map fun fresh =>
        (fresh, { volume with used := insert fresh volume.used, lastClust := fresh }) := by
  obtain ⟨begins, bounded⟩ := ClusterVolume.startCluster_bounds (pictures.holds owner)
    (by rw [pictures.clusters]; exact pictures.begun)
  have same : volume.startCluster (allocation.clusters owner) =
      searchStart mcl allocation.hint (allocation.clusters owner) := by
    cases last : (allocation.clusters owner).getLast? <;>
      simp only [ClusterVolume.startCluster, searchStart, pictures.clusters, pictures.hint, last]
  have found : (ClusterVolume.candidates volume.maxClust
      (volume.startCluster (allocation.clusters owner))).find? (· ∉ volume.used) =
        allocation.choice mcl owner := by
    rw [same, pictures.clusters, Allocation.choice]
    refine congrArg (List.find? · _) (funext fun clst => ?_)
    rw [decide_eq_decide, pictures.used]
  rw [ClusterVolume.createChain, ClusterVolume.searchFree_eq begins bounded, found]
  cases allocation.choice mcl owner with
  | none => rfl
  | some fresh => rfl

variable [DecidableEq Owner]

/-- A request keeps the picture. -/
theorem Pictures.step (pictures : Pictures mcl allocation volume) (request : Request Owner) :
    (request.onVolume (volume, allocation.clusters)).2 = (request.apply mcl allocation).clusters ∧
      Pictures mcl (request.apply mcl allocation)
        (request.onVolume (volume, allocation.clusters)).1 := by
  cases request with
  | grow owner =>
    rw [Request.onVolume, Request.apply, Allocation.grow, pictures.choice]
    cases choice : allocation.choice mcl owner with
    | none => exact ⟨rfl, pictures⟩
    | some fresh =>
      have created := (pictures.choice owner).trans (congrArg _ choice)
      obtain ⟨unused, lower, upper, _⟩ := ClusterVolume.createChain_some (pictures.holds owner)
        (by rw [pictures.clusters]; exact pictures.begun) created
      rw [pictures.clusters] at upper
      rw [pictures.used] at unused
      refine ⟨rfl, pictures.begun, pictures.clusters, rfl, fun clst => ?_, fun clst member => ?_,
        pictures.apart.grow owner (not_exists.mp unused)⟩
      · change clst ∈ insert fresh volume.used ↔ _
        rw [Finset.mem_insert, pictures.used]
        constructor
        · rintro (rfl | ⟨other, member⟩)
          · exact ⟨owner, mem_grow.mpr (.inr ⟨rfl, rfl⟩)⟩
          · exact ⟨other, mem_grow.mpr (.inl member)⟩
        · rintro ⟨other, member⟩
          rcases mem_grow.mp member with old | ⟨_, new⟩
          · exact .inr ⟨other, old⟩
          · exact .inl new
      · rcases Finset.mem_insert.mp member with rfl | old
        · exact ⟨lower, upper⟩
        · exact pictures.inside clst old
  | shed owner =>
    rw [Request.onVolume, Request.apply, Allocation.shed]
    refine ⟨rfl, pictures.begun, pictures.clusters, pictures.hint, fun clst =>
      ?_, fun clst member =>
      pictures.inside clst (Finset.mem_sdiff.mp member).1, pictures.apart.shed owner⟩
    rw [ClusterVolume.removeChain, Finset.mem_sdiff, pictures.used, List.mem_toFinset]
    constructor
    · rintro ⟨⟨other, member⟩, away⟩
      exact ⟨other, mem_shed.mpr ⟨member, fun same => away (same ▸ member)⟩⟩
    · rintro ⟨other, member⟩
      obtain ⟨kept, different⟩ := mem_shed.mp member
      exact ⟨⟨other, kept⟩, fun own => different (pictures.apart other owner clst kept own)⟩

/-- A run of requests keeps the picture, by induction on them. -/
theorem Pictures.run (requests : List (Request Owner)) (pictures : Pictures mcl allocation volume) :
    (requests.foldl Request.onVolume (volume, allocation.clusters)).2 =
        (requests.foldl (Request.apply mcl) allocation).clusters ∧
      Pictures mcl (requests.foldl (Request.apply mcl) allocation)
        (requests.foldl Request.onVolume (volume, allocation.clusters)).1 := by
  induction requests generalizing allocation volume with
  | nil => exact ⟨rfl, pictures⟩
  | cons request rest inductionHypothesis =>
    obtain ⟨lists, after⟩ := pictures.step request
    have state : request.onVolume (volume, allocation.clusters) =
        ((request.onVolume (volume, allocation.clusters)).1,
          (request.apply mcl allocation).clusters) := by rw [← lists]
    rw [List.foldl_cons, List.foldl_cons, state]
    exact inductionHypothesis after

variable {vol : Nat} {container : VolumeContainer} {size : Nat} {build : Build} {fs : Fatfs}
  {disk : Nat → Buffer} {machine : Machine} {fmt : FatType} {counts : Prop}

/-- The calls on the FAT refine the set of the clusters in use: they deliver what its operations do,
and afterwards the entries link the lists of the owners, which are disjoint and the only clusters in
use, the count of the free ones is exact if one is kept, and an entry is zero just where the set
leaves its cluster free. -/
theorem serve_pictures (requests : List (Request Owner))
    (allots : Allots vol container size build fmt counts fs disk machine allocation)
    (mode : container.fd.writeable = true) (pictures : Pictures fs.maxClust allocation volume) :
    ∃ fs' disk' after final,
      (serve vol requests allocation.clusters).Outcome machine (.ok final.clusters) after ∧
      final.clusters = (requests.foldl Request.onVolume (volume, allocation.clusters)).2 ∧
      Allots vol container size build fmt counts fs' disk' after final ∧ Reworked fs fs' ∧
      Pictures fs'.maxClust final
        (requests.foldl Request.onVolume (volume, allocation.clusters)).1 ∧
      ∀ clst, 2 ≤ clst → clst < fs.maxClust →
        (clst ∈ (requests.foldl Request.onVolume (volume, allocation.clusters)).1.used ↔
          fatEntry fmt (fatBytes disk' fs.fatbase) clst ≠ 0) := by
  obtain ⟨fs', disk', after, run, allotsAfter, reworked, _⟩ := serve_allocates requests allots mode
  obtain ⟨lists, picturesAfter⟩ := pictures.run requests
  refine ⟨fs', disk', after, _, run, lists.symm, allotsAfter, reworked,
    reworked.maxClust.symm ▸ picturesAfter, fun clst lower upper => ?_⟩
  have free := @Allotted.free_iff _ _ _ _ clst allotsAfter.allotted
  have links := congrFun (congrFun (@Reworked.linksOf _ _ fmt reworked) disk') clst
  rw [links, linksOf, fatLinks_inside lower upper, linkOf_free_iff] at free
  rw [picturesAfter.used, Ne, free, not_forall_not]
  rfl

/-- A formatted volume is pictured by one with nothing but the root directory. -/
theorem formatted_pictures (root : Owner) (shape : Shape) (hint : Nat)
    (begun : 2 < shape.maxClust) : Pictures shape.maxClust ⟨rootClusters root shape.fmt, hint⟩
    (formatted shape hint) := by
  refine ⟨Nat.lt_of_succ_lt begun, rfl, rfl, fun clst => ?_, fun clst member => ?_,
    unshared_rootClusters root shape.fmt⟩
  · unfold formatted Allocation.Taken rootClusters
    by_cases fat32 : shape.fmt = .fat32
    · simp [fat32]
    · simp [fat32]
  · unfold formatted at member
    dsimp only at member
    split_ifs at member
    · rw [Finset.mem_singleton.mp member]
      exact ⟨Nat.le_refl _, begun⟩
    · exact absurd member (Finset.notMem_empty clst)

/-- Two owners get a cluster each on a volume that was formatted. -/
theorem serve_pictures_formatted : ∃ (machine after : Machine) (shape : Shape) (hint : Nat)
    (clusters : Bool → List Nat),
    (serve 0 [.grow true, .grow false] (rootClusters true .fat12)).Outcome machine (.ok clusters)
        after ∧
      clusters = ([Request.grow true, .grow false].foldl Request.onVolume
        (formatted shape hint, rootClusters true .fat12)).2 := by
  obtain ⟨size, build, machine, fs, disk, allots, _, most⟩ := exists_mounted
  have begun : 2 < fs.maxClust := most ▸ (by decide)
  obtain ⟨_, _, after, final, run, lists, _⟩ := serve_pictures [.grow true, .grow false] allots rfl
    (formatted_pictures true ⟨build, .fat12, 1, fs.maxClust, 512⟩ fs.lastClust begun)
  exact ⟨machine, after, _, _, final.clusters, run, lists⟩

end Pictures

/-! ### Sessions -/

/-- The images that processes leave to one another, and the clusters that the owners know of: the
first process opens an image that was formatted, and each further one opens the image after a
session with the one before. -/
inductive Lived {Owner : Type} [DecidableEq Owner] (root : Owner) (layout : Layout) :
    (size drive : Nat) → VolumeContainer → Machine → (Owner → List Nat) → Prop
  | formatted {start after next : Machine} {drive vol : Nat} {volume reopened : VolumeContainer}
      {volumeLabel : Option (List UInt8)} {fmt : Option FatType}
      (serves : (start.unmounted drive).Serves drive volume)
      (full : volume.bytesPerSector = sectorSize)
      (run : (fMkfs drive 0 0 volumeLabel fmt).Outcome start .ok after)
      (planned : mkfsLayout start.build 0 0 fmt volume.sectorCount = layout)
      (agrees : typeOfMaxClust (layout.nClst + 2) = layout.fmt)
      (same : Rereads after next volume vol reopened) (attends : Attends next vol reopened false)
      (turns : Fuelled next.fuel (layout.nClst + 2) layout.allocsize) :
      Lived root layout (next.files.file reopened.fd.node).size vol reopened next
        (rootClusters root layout.fmt)
  | session {size drive vol : Nat} {volume reopened : VolumeContainer}
      {machine after next : Machine} {clusters later : Owner → List Nat} {fs : Fatfs}
      (before : Lived root layout size drive volume machine clusters)
      (mode : volume.fd.writeable = true) (inside : drive < drives)
      (registered : machine.fatFs drive = some fs) (unmounted : fs.fsType = none)
      (requests : List (Request Owner))
      (run : (session drive requests clusters).Outcome machine (.ok later) after)
      (same : Rereads after next volume vol reopened) (attends : Attends next vol reopened false)
      (turns : Fuelled next.fuel (layout.nClst + 2) layout.allocsize) :
      Lived root layout size vol reopened next later

section Sessions

variable {Owner : Type} [DecidableEq Owner] {root : Owner} {layout : Layout} {size drive : Nat}
  {volume : VolumeContainer} {machine : Machine} {clusters : Owner → List Nat}

theorem Lived.stocked (lived : Lived root layout size drive volume machine clusters) :
    Stocked drive volume size layout machine clusters := by
  induction lived with
  | formatted serves full run planned agrees same attends turns =>
    exact stocked_formatted root serves full run planned agrees same attends turns
  | session before mode inside registered unmounted requests run same attends turns stocked =>
    obtain ⟨hint, after, kept, next⟩ :=
      session_keeps stocked mode inside registered unmounted requests
    obtain ⟨lists, rfl⟩ := run.unique kept
    rw [Except.ok.inj lists]
    exact next _ _ _ same attends turns

/-- After any number of sessions the image shows what the owners know of: each list is linked in the
FAT and in its copy, no cluster is in two lists and none in use is in no list, and on FAT32 the
FSInfo sector has the exact number of those that are free. The next session succeeds and gives its
owners what the allocator does. -/
theorem lived_session (lived : Lived root layout size drive volume machine clusters)
    (mode : volume.fd.writeable = true) (inside : drive < drives) {fs : Fatfs}
    (registered : machine.fatFs drive = some fs)
    (unmounted : fs.fsType = none) (requests : List (Request Owner)) :
    Stocked drive volume size layout machine clusters ∧
      ∃ hint after, (session drive requests clusters).Outcome machine
        (.ok (requests.foldl (Request.apply (layout.nClst + 2)) ⟨clusters, hint⟩).clusters)
          after := by
  obtain ⟨hint, after, run, _⟩ :=
    session_keeps lived.stocked mode inside registered unmounted requests
  exact ⟨lived.stocked, hint, after, run⟩

/-- A process opens a fresh image and gives an owner a cluster, which the next one gives back. -/
theorem lived_session_again : ∃ (first second after : Machine) (clusters later : Bool → List Nat),
    (session 0 [.grow false] (rootClusters true .fat12)).Outcome first (.ok clusters) second ∧
      (session 0 [.shed false] clusters).Outcome
        { first with files := second.files } (.ok later) after := by
  obtain ⟨formatted, run, serves, again⟩ := exists_formatted
  have turns : Fuelled 4096 ((rawLayout (some .fat12) 2000).nClst + 2)
      (rawLayout (some .fat12) 2000).allocsize := ⟨by decide, by decide⟩
  have fresh : Rereads formatted (formatted.reopened 0 4096) (rawImage 2000) 0 (rawImage 2000) :=
    ⟨again.toReads, rfl, rfl, rfl⟩
  have registered := Machine.fatFs_reopened formatted 0 4096
  have attends := attends_of_serves again false
  have stocked := stocked_formatted true serves rfl run rfl (by decide) fresh attends turns
  obtain ⟨hint, second, kept, _⟩ :=
    session_keeps stocked rfl (by decide) registered rfl [.grow false]
  have next : ({ formatted.reopened 0 4096 with files := second.files } : Machine).Serves 0
      (rawImage 2000) := { again with }
  obtain ⟨_, _, after, shed⟩ := lived_session (.session (.formatted serves rfl run rfl (by decide)
    fresh attends turns) rfl (by decide) registered rfl _ kept ⟨next.toReads, rfl, rfl, rfl⟩
    (attends_of_serves next _) turns) rfl (by decide) registered rfl [.shed false]
  exact ⟨formatted.reopened 0 4096, second, after, _, _, kept, shed⟩

end Sessions

end Ff

end Hdfmonkey
