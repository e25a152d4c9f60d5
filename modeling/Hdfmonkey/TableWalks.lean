/-
This file proves that reading a directory table through the window is reading the list of
its entries: `dir_read` stops at the entry at which the walk over the list stops, with the
same long name, and so every `f_readdir` shows the same information.

What a turn of the loop makes of an entry depends only on the 32 bytes at its place in
the window, and moving the window leaves the buffer for long names alone.
-/

import Hdfmonkey.TableSectors
import Hdfmonkey.DirTable

namespace Hdfmonkey

namespace Ff

open Program

/-! ### The buffer for long names -/

section Kept

variable {lfnBuf : Nat → Nat} {vol : Nat}

theorem diskRead_keepsName (drive : Nat) (buff : Buffer) (sector count : Nat) :
    Keeps (fun machine => machine.lfnBuf = lfnBuf) (diskRead drive buff sector count) fun _ =>
      True := by
  refine keeps_of_comes fun machine after holds run => ?_
  obtain ⟨_, rfl⟩ := diskRead_comes run
  exact holds

theorem diskWrite_keepsName (drive : Nat) (buff : Buffer) (sector count : Nat) :
    Keeps (fun machine => machine.lfnBuf = lfnBuf) (diskWrite drive buff sector count) fun _ =>
      True := by
  refine keeps_of_comes fun machine after holds run => ?_
  obtain ⟨_, _, _, rfl, _⟩ := diskWrite_comes run
  exact holds

theorem fatfs_keepsName : Keeps (fun machine => machine.lfnBuf = lfnBuf) (fatfs vol) fun _ =>
    True := by
  refine keeps_bind keeps_get fun machine _ => ?_
  cases machine.fatFs vol with
  | none => exact keeps_undefined
  | some fs => exact keeps_pure trivial

theorem modifyFatfs_keepsName (change : Fatfs → Fatfs) :
    Keeps (fun machine => machine.lfnBuf = lfnBuf) (modifyFatfs vol change) fun _ => True := by
  refine keeps_modify fun machine holds => ?_
  cases machine.fatFs vol with
  | none => exact holds
  | some fs => exact holds

theorem writeCopies_keepsName (build : Build) (fs : Fatfs) (count wsect : Nat) :
    Keeps (fun machine => machine.lfnBuf = lfnBuf) (writeCopies build fs count wsect) fun _ =>
      True := by
  induction count generalizing wsect with
  | zero => exact keeps_pure trivial
  | succ count inductionHypothesis =>
    exact keeps_bind (diskWrite_keepsName _ _ _ _) fun _ _ => inductionHypothesis _

theorem writeBack_keepsName :
    Keeps (fun machine => machine.lfnBuf = lfnBuf) (writeBack vol) fun _ => True := by
  refine keeps_bind fatfs_keepsName fun fs _ => keeps_ite (fun _ => ?_) fun _ => keeps_pure trivial
  refine keeps_bind (diskWrite_keepsName _ _ _ _) fun _ _ => keeps_ite
    (fun _ => keeps_pure trivial) fun _ => ?_
  refine keeps_bind (modifyFatfs_keepsName _) fun _ _ => keeps_bind keeps_get fun _ _ => ?_
  refine keeps_ite (fun _ => ?_) fun _ => keeps_pure trivial
  exact keeps_bind (writeCopies_keepsName _ _ _ _) fun _ _ => keeps_pure trivial

theorem moveWindow_keepsName (sector : Nat) :
    Keeps (fun machine => machine.lfnBuf = lfnBuf) (moveWindow vol sector) fun _ => True := by
  refine keeps_bind fatfs_keepsName fun fs _ => keeps_ite (fun _ => keeps_pure trivial) fun _ => ?_
  refine keeps_bind writeBack_keepsName fun _ _ => keeps_ite
    (fun _ => keeps_pure trivial) fun _ => keeps_ite (fun _ => keeps_pure trivial) fun _ => ?_
  refine keeps_bind (diskRead_keepsName _ _ _ _) fun _ _ =>
    keeps_bind (modifyFatfs_keepsName _) fun _ _ =>
      keeps_ite (fun _ => keeps_pure trivial) fun _ => ?_
  exact keeps_bind (modifyFatfs_keepsName _) fun _ _ => keeps_pure trivial

theorem getFat_keepsName (clst : Nat) :
    Keeps (fun machine => machine.lfnBuf = lfnBuf) (getFat vol clst) fun _ => True := by
  refine keeps_bind fatfs_keepsName fun fs _ => keeps_ite (fun _ => keeps_pure trivial)
    fun _ => keeps_bind keeps_get fun machine _ => ?_
  have entry (sector : Nat) (value : Fatfs → Nat) :
      Keeps (fun machine => machine.lfnBuf = lfnBuf) (do
        let res ← moveWindow vol sector
        if res ≠ .ok then return diskError
        return value (← fatfs vol)) fun _ => True :=
    keeps_bind (moveWindow_keepsName _) fun _ _ => keeps_ite (fun _ => keeps_pure trivial)
      fun _ => keeps_bind fatfs_keepsName fun _ _ => keeps_pure trivial
  cases fs.fsType with
  | none => exact keeps_pure trivial
  | some type =>
    cases type with
    | fat12 =>
      refine keeps_bind (moveWindow_keepsName _) fun _ _ => keeps_ite (fun _ => keeps_pure trivial)
        fun _ => keeps_bind fatfs_keepsName fun _ _ => ?_
      exact entry _ _
    | fat16 => exact entry _ _
    | fat32 => exact entry _ _

/-- Stepping through a table that is not to grow. -/
theorem dirNext_keepsName (dj : Dir) :
    Keeps (fun machine => machine.lfnBuf = lfnBuf) (dirNext dj false) fun _ => True := by
  refine keeps_ite (fun _ => keeps_pure trivial) fun _ => keeps_bind fatfs_keepsName fun fs _ =>
    keeps_bind keeps_get fun machine _ => keeps_ite (fun _ => keeps_pure trivial) fun _ => ?_
  refine keeps_ite (fun _ => keeps_ite (fun _ => keeps_pure trivial) fun _ => keeps_pure trivial)
    fun _ => keeps_ite (fun _ => ?_) fun _ => keeps_pure trivial
  have next : Keeps (fun machine => machine.lfnBuf = lfnBuf)
      (nextCluster { dj with sect := machine.build.add dj.sect 1 } false) fun _ => True := by
    refine keeps_bind (getFat_keepsName _) fun _ _ => keeps_ite (fun _ => keeps_pure trivial)
      fun _ => keeps_ite (fun _ => keeps_pure trivial) fun _ =>
        keeps_bind fatfs_keepsName fun _ _ => ?_
    exact keeps_ite (fun _ => keeps_pure trivial) fun _ => keeps_pure trivial
  refine keeps_bind next fun found _ => ?_
  cases found with
  | error res => exact keeps_pure trivial
  | ok clst => exact keeps_bind fatfs_keepsName fun _ _ => keeps_pure trivial

end Kept

/-! ### An entry in the window -/

section Entry

variable {win slot : Buffer} {dj : Dir} {lfnIdx : Nat} {lfnBuf : Nat → Nat}

/-- The entry that an object points to in the window. -/
def Dir.Shows (dj : Dir) (win slot : Buffer) :
    Prop := ∀ place, place < 32 → win (dj.entry + place) = slot place

theorem Dir.Shows.first (shows : dj.Shows win slot) : win dj.entry = slot 0 := shows 0 (by decide)

theorem Dir.Shows.loadWord (shows : dj.Shows win slot) {place : Nat} (inside : place + 1 < 32) :
    win.loadWord (dj.entry + place) = slot.loadWord place := by
  unfold Buffer.loadWord
  rw [shows place (Nat.lt_of_succ_lt inside), Nat.add_assoc, shows (place + 1) inside]

theorem Dir.Shows.slice (shows : dj.Shows win slot) {count : Nat} (inside : count ≤ 32) :
    win.slice dj.entry count = slot.slice 0 count := by
  refine List.map_congr_left fun place member => ?_
  rw [Nat.zero_add]
  exact shows place (Nat.lt_of_lt_of_le (List.mem_range.mp member) inside)

/-- `pick_lfn` reads the entry only. -/
theorem Dir.Shows.pickLfn (shows : dj.Shows win slot) :
    pickLfn lfnBuf win dj.entry = pickLfn lfnBuf slot 0 := by
  have chars : (lfnOfs.map fun ofs => win.loadWord (dj.entry + ofs)) =
      lfnOfs.map fun ofs => slot.loadWord (0 + ofs) := by
    refine List.map_congr_left fun ofs member => ?_
    rw [Nat.zero_add]
    have inside : ∀ ofs ∈ lfnOfs, ofs + 1 < 32 := by decide
    exact shows.loadWord (inside ofs member)
  rw [Ff.pickLfn, Ff.pickLfn, chars, shows.first]

/-- What a turn of the loop makes of an entry depends on the entry and its index number only. -/
theorem Dir.Shows.readEntry (shows : dj.Shows win slot) (scan : Scan) :
    readEntry lfnBuf win dj scan = readEntry lfnBuf slot (entryDir dj.index lfnIdx) scan := by
  have attributes : attributes win dj = attributes slot (entryDir dj.index lfnIdx) := by
    rw [Ff.attributes, Ff.attributes, shows dirAttr (by decide)]
    rw [show (entryDir dj.index lfnIdx).entry + dirAttr = dirAttr from Nat.zero_add _]
  have place (offset : Nat) : (entryDir dj.index lfnIdx).entry + offset = offset := Nat.zero_add _
  have zero : (entryDir dj.index lfnIdx).entry = 0 := rfl
  have start : scan.start win dj = scan.start slot (entryDir dj.index lfnIdx) := by
    rw [Scan.start, Scan.start, shows ldirChksum (by decide), shows.first, place, zero]
    rfl
  have continues (scan : Scan) :
      scan.continues win dj = scan.continues slot (entryDir dj.index lfnIdx) := by
    rw [Scan.continues, Scan.continues, shows ldirChksum (by decide), shows.first, place, zero]
  rw [Ff.readEntry, Ff.readEntry, attributes, start, shows.pickLfn, shows.slice (by decide),
    shows.first, zero]
  simp only [continues]

/-- What is shown of an entry depends on the entry and on where its long name started only. -/
theorem Dir.Shows.getFileinfo (shows : dj.Shows win slot) (present : dj.sect ≠ 0) (index : Nat) :
    getFileinfo lfnBuf win dj = getFileinfo lfnBuf slot (entryDir index dj.lfnIdx) := by
  have place (offset : Nat) : (entryDir index dj.lfnIdx).entry + offset = offset := Nat.zero_add _
  have zero : (entryDir index dj.lfnIdx).entry = 0 := rfl
  have size : win.loadDword (dj.entry + dirFileSize) = slot.loadDword dirFileSize := by
    unfold Buffer.loadDword
    rw [shows.loadWord (by decide), Nat.add_assoc, shows.loadWord (by decide)]
  rw [Ff.getFileinfo, Ff.getFileinfo, if_neg present,
    if_neg (show ¬(entryDir index dj.lfnIdx).sect = 0 from Nat.one_ne_zero),
    shows.slice (by decide), shows dirNtres (by decide), shows dirAttr (by decide), size, place,
      place, place, zero]
  rfl

end Entry

/-! ### The loop of `dir_read` -/

section Walks

variable {vol : Nat} {volume : VolumeContainer} {size : Nat} {build : Build} {fmt : FatType}
  {fs : Fatfs} {disk : Nat → Buffer} {machine : Machine} {cells : List Nat} {start index : Nat}
  {dj : Dir}

/-- The buffer for long names is no part of what is seen of the drive. -/
theorem OnTable.named (onTable : OnTable vol volume size build fmt fs disk machine cells start)
    (lfnBuf : Nat → Nat) :
    OnTable vol volume size build fmt fs disk { machine with lfnBuf } cells start :=
  { onTable with
    sees := { onTable.sees with
      attends := { onTable.sees.attends with } } }

theorem tableSlots_of_lt (inside : index < tableLength fs cells) :
    tableSlots fs cells disk index = tableSlot fs cells disk index :: tableSlots fs cells disk
      (index + 1) := by
  obtain ⟨left, count⟩ : ∃ left, tableLength fs cells - index = left + 1 :=
    ⟨tableLength fs cells - index - 1, by omega⟩
  have behind : tableLength fs cells - (index + 1) = left := by omega
  rw [tableSlots, tableSlots, count, behind, List.range'_succ, List.map_cons]

theorem tableSlots_of_le (outside : tableLength fs cells ≤ index) :
    tableSlots fs cells disk index = [] := by
  rw [tableSlots, Nat.sub_eq_zero_of_le outside, List.range'_zero, List.map_nil]

/-- The window moves to the entry of an object. -/
theorem AtSlot.looks (at' : AtSlot vol fs cells start dj index)
    (onTable : OnTable vol volume size build fmt fs disk machine cells start)
    (inside : index < tableLength fs cells) :
    ∃ win wflag after, (moveWindow dj.fs dj.sect).Outcome machine .ok after ∧
      OnTable vol volume size build fmt { fs with win, winsect := dj.sect, wflag } disk after cells
      start ∧ dj.Shows win (tableSlot fs cells disk index) ∧ after.lfnBuf = machine.lfnBuf := by
  obtain ⟨worked, behind⟩ := onTable.worked inside
  have front := onTable.sees.behind
  rw [← at'.sect] at worked behind
  obtain ⟨win, wflag, after, moved, seesAfter⟩ := moveWindow_sees onTable.sees worked
  have shown := (seesAfter.window (show dj.sect ≠ 0 by omega)).2
  refine ⟨win, wflag, after, at'.drive.symm ▸ moved, onTable.windowed seesAfter, fun place within =>
    ?_, (moveWindow_keepsName dj.sect).comes rfl (.inl ⟨_, moved⟩)⟩
  have byte := congrFun shown (dj.entry + place)
  rw [show dj.entry = index % 16 * 32 by rw [Dir.entry, at'.dir]; rfl] at byte ⊢
  have inSector : index % 16 * 32 + place < sectorSize := by
    rw [sectorSize]
    omega
  change cut win _ = disk dj.sect _ at byte
  rw [cut_inside inSector] at byte
  rw [byte, tableSlot, if_pos within, at'.sect]

/-- A directory object at an entry of a table from where the list of the entries ahead is read. -/
structure Reaches (vol : Nat) (fs : Fatfs) (cells : List Nat) (start : Nat) (disk : Nat → Buffer)
    (dj : Dir) (walk : Walk) : Prop where
  at' : AtSlot vol fs cells start dj walk.index
  inside : walk.index < tableLength fs cells
  small : walk.index < 2 ^ 16
  name : dj.lfnIdx = walk.lfnIdx
  ahead : walk.ahead = tableSlots fs cells disk walk.index

/-- A directory object at an entry that is in the window. -/
structure StopsAt (vol : Nat) (fs : Fatfs) (cells : List Nat) (start : Nat) (disk : Nat → Buffer)
    (dj : Dir) (entry : Buffer) (walk : Walk) : Prop where
  reaches : Reaches vol fs cells start disk dj { walk with ahead := entry :: walk.ahead }
  shows : dj.Shows fs.win entry

/-- A turn of the loop of `dir_read` that has an entry to look at. -/
theorem readLoop_turn {object : Fatfs} {looked after : Machine} {fuel : Nat} {res : FResult}
    {scan next : Scan} {stop : Bool} {lfnBuf : Nat → Nat} {result : FResult × Dir}
    (present : dj.sect ≠ 0)
    (moved : (moveWindow dj.fs dj.sect).Outcome machine .ok looked)
    (registered : looked.fatFs dj.fs = some object) (more : object.win dj.entry ≠ 0)
    (turn : readEntry looked.lfnBuf object.win dj scan = some (stop, next, lfnBuf))
    (run : (do
      if stop then return (.ok, { dj with lfnIdx := next.lfnIdx })
      let stepped ← dirNext { dj with lfnIdx := next.lfnIdx } false
      if stepped.1 ≠ .ok then return (stepped.1, { stepped.2 with sect := 0 })
      readLoop fuel .ok next stepped.2 : Program Machine (FResult × Dir)).Outcome
        { looked with lfnBuf } result after) :
    (readLoop (fuel + 1) res scan dj).Outcome machine result after := by
  rw [readLoop, if_neg present]
  refine outcome_bind.mpr ⟨_, _, moved, ?_⟩
  rw [if_neg (not_not.mpr rfl), outcome_fatfs_bind registered, if_neg more]
  refine outcome_bind.mpr ⟨_, _, outcome_get.mpr ⟨rfl, rfl⟩, ?_⟩
  rw [turn]
  exact outcome_bind.mpr ⟨⟨⟩, _, outcome_modify.mpr rfl, run⟩

/-- The loop of `dir_read` comes to where the walk over the entries comes to. -/
theorem readLoop_walks (onTable : OnTable vol volume size build fmt fs disk machine cells start)
    (at' : AtSlot vol fs cells start dj index) (inside : index < tableLength fs cells)
    (small : index < 2 ^ 16) {fuel : Nat} (enough : 2 ^ 16 - index ≤ fuel) (res : FResult)
    {scan : Scan}
    {found : Option (Buffer × Walk)} {lfnBuf : Nat → Nat}
    (walked : walkRead (tableSlots fs cells disk index) index scan machine.lfnBuf =
    some (found, lfnBuf)) : ∃ res' dj' win winsect wflag after,
      (readLoop fuel res scan dj).Outcome machine (res', dj') after ∧
      OnTable vol volume size build fmt { fs with win, winsect, wflag } disk after cells start ∧
      after.lfnBuf = lfnBuf ∧ dj'.fs = vol ∧ dj'.id = dj.id ∧ (found = none → res' = .noFile) ∧
        ∀ entry walk, found = some (entry, walk) →
          res' = .ok ∧ StopsAt vol { fs with win, winsect, wflag } cells start disk dj' entry
            walk := by
  induction fuel generalizing fs machine index dj res scan with
  | zero => omega
  | succ fuel inductionHypothesis =>
    have front := onTable.sees.behind
    have behind := (onTable.worked inside).2
    rw [← at'.sect] at behind
    obtain ⟨win, wflag, looked, moved, onTableLooked, shows, kept⟩ := at'.looks onTable inside
    have number := at'.number
    have drive := at'.drive
    subst number drive
    have registered := onTableLooked.sees.registered
    rw [tableSlots_of_lt inside, walkRead] at walked
    have present : dj.sect ≠ 0 := by omega
    by_cases ended : tableSlot fs cells disk dj.index 0 = 0
    · rw [if_pos ended] at walked
      obtain ⟨rfl, rfl⟩ := Prod.mk.inj (Option.some.inj walked)
      refine ⟨.noFile, { dj with sect := 0 }, win, dj.sect, wflag, looked, ?_, onTableLooked, kept,
        rfl, rfl, fun _ => rfl, fun _ _ none => absurd none (by simp)⟩
      rw [readLoop, if_neg present]
      refine outcome_bind.mpr ⟨_, _, moved, ?_⟩
      rw [if_neg (not_not.mpr rfl), outcome_fatfs_bind registered, if_pos (shows.first.trans ended)]
      exact outcome_pure.mpr ⟨rfl, rfl⟩
    · rw [if_neg ended] at walked
      obtain ⟨⟨stop, scan', lfnBuf'⟩, turn, goesOn⟩ := Option.bind_eq_some_iff.mp walked
      rw [← kept, ← shows.readEntry scan] at turn
      have more : win dj.entry ≠ 0 := shows.first ▸ ended
      have named := onTableLooked.named lfnBuf'
      have turned {result : FResult × Dir} {after : Machine} :=
        @readLoop_turn machine dj _ looked after fuel res scan scan' stop lfnBuf' result
          present moved
          registered more turn
      dsimp only at goesOn
      cases stop with
      | true =>
        rw [if_pos rfl] at goesOn
        obtain ⟨rfl, rfl⟩ := Prod.mk.inj (Option.some.inj goesOn)
        refine ⟨.ok, { dj with lfnIdx := scan'.lfnIdx }, win, dj.sect, wflag, _,
          turned (outcome_pure.mpr ⟨rfl, rfl⟩), named, rfl, rfl, rfl, fun none =>
          absurd none (by simp), fun entry walk same => ?_⟩
        obtain ⟨rfl, rfl⟩ := Prod.mk.inj (Option.some.inj same)
        exact ⟨rfl, ⟨{ at' with }, inside, small, rfl, (tableSlots_of_lt inside).symm⟩, shows⟩
      | false =>
        rw [if_neg Bool.false_ne_true] at goesOn
        have here : AtSlot dj.fs { fs with win, winsect := dj.sect, wflag } cells start
            { dj with lfnIdx := scan'.lfnIdx } dj.index := { at' with }
        by_cases goes : dj.index + 1 < tableLength fs cells ∧ dj.index + 1 < 2 ^ 16
        · obtain ⟨dj', win, winsect, wflag, stepped, next, onTableNext, atNext, same⟩ :=
            dirNext_comes false named here goes.1 goes.2
          have keptName : stepped.lfnBuf = lfnBuf' :=
            (dirNext_keepsName _).comes rfl (.inl ⟨_, next⟩)
          have id' : dj'.id = dj.id := by rw [same]
          rw [if_neg (by omega)] at goesOn
          obtain ⟨res', last, win, winsect, wflag, after, run, onTableAfter, keptAfter, driveAfter,
            id, ends, stops⟩ := inductionHypothesis onTableNext { atNext with } goes.1 goes.2
              (by omega) .ok
              (by rw [keptName]; exact goesOn)
          refine ⟨res', last, win, winsect, wflag, after, turned ?_, onTableAfter, keptAfter,
            driveAfter, id.trans id', ends, stops⟩
          rw [if_neg Bool.false_ne_true]
          refine outcome_bind.mpr ⟨_, _, next, ?_⟩
          rw [if_neg (not_not.mpr rfl)]
          exact run
        · obtain ⟨dj', win, winsect, wflag, stepped, next, onTableNext, same⟩ :=
            dirNext_ends named here inside (show tableLength fs cells ≤ dj.index + 1 ∨
              _ by omega) small
          have keptName : stepped.lfnBuf = lfnBuf' :=
            (dirNext_keepsName _).comes rfl (.inl ⟨_, next⟩)
          have id' : dj'.id = dj.id := by rw [same]
          have drive' : dj'.fs = dj.fs := by rw [same]
          have none : found = none ∧ lfnBuf = lfnBuf' := by
            split_ifs at goesOn with wrapped
            · obtain ⟨rfl, rfl⟩ := Prod.mk.inj (Option.some.inj goesOn)
              exact ⟨rfl, rfl⟩
            · rw [tableSlots_of_le (by omega)] at goesOn
              obtain ⟨rfl, rfl⟩ := Prod.mk.inj (Option.some.inj goesOn)
              exact ⟨rfl, rfl⟩
          obtain ⟨rfl, rfl⟩ := none
          refine ⟨.noFile, { dj' with sect := 0 }, win, winsect, wflag, stepped, turned ?_,
            onTableNext, keptName, drive', id', fun _ => rfl, fun _ _ none => absurd none (by simp)⟩
          rw [if_neg Bool.false_ne_true]
          refine outcome_bind.mpr ⟨_, _, next, ?_⟩
          rw [if_pos (show ¬FResult.noFile = .ok by decide)]
          exact outcome_pure.mpr ⟨rfl, rfl⟩

/-! ### `f_readdir` -/

/-- A directory object that has the same entries ahead as a walk. -/
structure InStep (vol : Nat) (fs : Fatfs) (cells : List Nat) (start : Nat) (disk : Nat → Buffer)
    (dj : Dir) (walk : Walk) : Prop where
  drive : dj.fs = vol
  id : dj.id = fs.id
  place : (dj.sect = 0 ∧ walk.ahead = []) ∨ Reaches vol fs cells start disk dj walk

/-- `dir_read` finds what the walk over the entries finds. -/
theorem dirRead_walks {walk : Walk}
    (onTable : OnTable vol volume size build fmt fs disk machine cells start)
    (inStep : InStep vol fs cells start disk dj walk) {found : Option (Buffer × Walk)}
    {lfnBuf : Nat → Nat}
    (walked : walkRead walk.ahead walk.index ⟨0xFF, 0xFF, walk.lfnIdx⟩ machine.lfnBuf =
      some (found, lfnBuf)) :
    ∃ res dj' win winsect wflag after, (dirRead dj).Outcome machine (res, dj') after ∧
      OnTable vol volume size build fmt { fs with win, winsect, wflag } disk after cells start ∧
      after.lfnBuf = lfnBuf ∧ dj'.fs = vol ∧ dj'.id = dj.id ∧ (found = none → res = .noFile) ∧
      ∀ entry next, found = some (entry, next) → res = .ok ∧
        StopsAt vol { fs with win, winsect, wflag } cells start disk dj' entry next := by
  rcases inStep.place with ⟨gone, none⟩ | ⟨at', inside, small, name, ahead⟩
  · rw [none, walkRead] at walked
    obtain ⟨rfl, rfl⟩ := Prod.mk.inj (Option.some.inj walked)
    refine ⟨.noFile, dj, fs.win, fs.winsect, fs.wflag, machine, ?_, onTable, rfl, inStep.drive, rfl,
      fun _ => rfl, fun _ _ none => absurd none (by simp)⟩
    rw [dirRead, readLoop, if_pos gone]
    exact outcome_pure.mpr ⟨rfl, rfl⟩
  · rw [dirRead, name]
    rw [ahead] at walked
    exact readLoop_walks onTable at' inside small (by rw [tableFuel]; omega) .noFile walked

/-- Behind an entry is the next one, or nothing. -/
theorem StopsAt.next {entry : Buffer} {walk : Walk}
    (onTable : OnTable vol volume size build fmt fs disk machine cells start)
    (stops : StopsAt vol fs cells start disk dj entry walk) (id : dj.id = fs.id) :
    ∃ res dj' win winsect wflag after, (dirNext dj false).Outcome machine (res, dj') after ∧
      (res = .ok ∨ res = .noFile) ∧
      OnTable vol volume size build fmt { fs with win, winsect, wflag } disk after cells start ∧
      after.lfnBuf = machine.lfnBuf ∧
      InStep vol { fs with win, winsect, wflag } cells start disk
        (if res = .noFile then { dj' with sect := 0 } else dj')
        { walk with ahead := entriesBehind walk.index walk.ahead, index := walk.index + 1 } := by
  obtain ⟨⟨at', inside, small, name, ahead⟩, _⟩ := stops
  dsimp only at at' inside small name ahead
  rw [tableSlots_of_lt inside] at ahead
  obtain ⟨-, ahead⟩ := List.cons.inj ahead
  by_cases goes : walk.index + 1 < tableLength fs cells ∧ walk.index + 1 < 2 ^ 16
  · obtain ⟨dj', win, winsect, wflag, after, next, onTableNext, atNext, same⟩ :=
      dirNext_comes false onTable at' goes.1 goes.2
    have keptName := (dirNext_keepsName dj).comes rfl (.inl ⟨_, next⟩)
    have id' : dj'.id = dj.id := by rw [same]
    have name' : dj'.lfnIdx = dj.lfnIdx := by rw [same]
    refine ⟨.ok, dj', win, winsect, wflag, after, next, .inl rfl, onTableNext, keptName, ?_⟩
    rw [if_neg (by decide)]
    refine ⟨atNext.drive, id'.trans id, .inr ⟨{ atNext with }, goes.1, goes.2,
      name'.trans name, ?_⟩⟩
    dsimp only
    rw [entriesBehind, if_neg (by omega), ahead]
    rfl
  · obtain ⟨dj', win, winsect, wflag, after, next, onTableNext, same⟩ :=
      dirNext_ends onTable at' inside (by omega) small
    have keptName := (dirNext_keepsName dj).comes rfl (.inl ⟨_, next⟩)
    have id' : dj'.id = dj.id := by rw [same]
    have drive' : dj'.fs = dj.fs := by rw [same]
    refine ⟨.noFile, dj', win, winsect, wflag, after, next, .inr rfl, onTableNext, keptName, ?_⟩
    rw [if_pos rfl]
    refine ⟨drive'.trans at'.drive, id'.trans id, .inl ⟨rfl, ?_⟩⟩
    dsimp only
    rw [entriesBehind]
    split_ifs with wrapped
    · rfl
    · rw [ahead]
      exact tableSlots_of_le (by omega)

/-- `f_readdir` shows what the walk over the entries shows. -/
theorem fReaddir_walks {walk next : Walk}
    (onTable : OnTable vol volume size build fmt fs disk machine cells start)
    (inStep : InStep vol fs cells start disk dj walk) {info : Filinfo} {lfnBuf : Nat → Nat}
    (walked : walkReaddir walk machine.lfnBuf = some (info, next, lfnBuf)) :
    ∃ dj' win winsect wflag after, (fReaddir dj).Outcome machine (.ok, dj', info) after ∧
      OnTable vol volume size build fmt { fs with win, winsect, wflag } disk after cells start ∧
      after.lfnBuf = lfnBuf ∧ InStep vol { fs with win, winsect, wflag } cells start disk dj'
        next := by
  obtain ⟨⟨found, buffer⟩, read, same⟩ := Option.map_eq_some_iff.mp walked
  have inStep' : InStep vol fs cells start disk { dj with lfn := true } walk :=
    ⟨inStep.drive, inStep.id, inStep.place.imp id fun reaches =>
      ⟨{ reaches.at' with }, reaches.inside, reaches.small, reaches.name, reaches.ahead⟩⟩
  obtain ⟨res, dj', win, winsect, wflag, middle, looked, onTableMiddle, kept, drive', id', ended,
    stopped⟩ := dirRead_walks onTable inStep' read
  have validated : (validate (some dj.fs) dj.id).Outcome machine .ok machine := by
    rw [validate]
    refine outcome_bind.mpr ⟨_, _, outcome_get.mpr ⟨rfl, rfl⟩, ?_⟩
    rw [Option.bind_some, inStep.drive, onTable.sees.registered]
    refine outcome_pure.mpr ⟨(if_pos ⟨?_, inStep.id.symm⟩).symm, rfl⟩
    rw [onTable.tabled.type, Option.isSome_some]
  subst drive'
  have registered := onTableMiddle.sees.registered
  cases found with
  | none =>
    obtain ⟨rfl, rest⟩ := Prod.mk.inj same
    obtain ⟨rfl, rfl⟩ := Prod.mk.inj rest
    obtain rfl := ended rfl
    refine ⟨{ dj' with sect := 0 }, win, winsect, wflag, middle, ?_, onTableMiddle, kept,
      rfl, id'.trans inStep.id, .inl ⟨rfl, rfl⟩⟩
    rw [fReaddir]
    refine outcome_bind.mpr ⟨_, _, validated, ?_⟩
    rw [if_neg (not_not.mpr rfl)]
    refine outcome_bind.mpr ⟨_, _, looked, ?_⟩
    rw [if_neg (show ¬FResult.noFile = .ok by decide), if_pos rfl, readInfo]
    refine outcome_bind.mpr ⟨_, _, outcome_get.mpr ⟨rfl, rfl⟩, ?_⟩
    rw [outcome_fatfs_bind registered]
    refine outcome_bind.mpr ⟨(.noFile, { dj' with sect := 0 }), middle, ?_, ?_⟩
    · rw [dirNext, if_pos (.inr rfl)]
      exact outcome_pure.mpr ⟨rfl, rfl⟩
    · rw [if_pos rfl]
      exact outcome_pure.mpr ⟨rfl, rfl⟩
  | some stop =>
    obtain ⟨entry, at'⟩ := stop
    obtain ⟨rfl, rest⟩ := Prod.mk.inj same
    obtain ⟨rfl, rfl⟩ := Prod.mk.inj rest
    obtain ⟨rfl, stops⟩ := stopped entry at' rfl
    obtain ⟨res, dj'', win', winsect', wflag', after, stepped, either, onTableAfter, keptName,
      inStepAfter⟩ :=
      stops.next onTableMiddle (id'.trans inStep.id)
    have present : dj'.sect ≠ 0 := by
      have behind := (onTableMiddle.worked stops.reaches.inside).2
      have front := onTableMiddle.sees.behind
      rw [stops.reaches.at'.sect]
      dsimp only at behind front ⊢
      omega
    have shown := @Dir.Shows.getFileinfo _ _ _ middle.lfnBuf stops.shows present at'.index
    have name : dj'.lfnIdx = at'.lfnIdx := stops.reaches.name
    rw [name, kept] at shown
    refine ⟨if res = .noFile then { dj'' with sect := 0 } else dj'', win', winsect', wflag', after,
      ?_, onTableAfter, keptName.trans kept, inStepAfter⟩
    rw [fReaddir]
    refine outcome_bind.mpr ⟨_, _, validated, ?_⟩
    rw [if_neg (not_not.mpr rfl)]
    refine outcome_bind.mpr ⟨_, _, looked, ?_⟩
    rw [if_pos rfl, readInfo]
    refine outcome_bind.mpr ⟨_, _, outcome_get.mpr ⟨rfl, rfl⟩, ?_⟩
    rw [outcome_fatfs_bind registered]
    refine outcome_bind.mpr ⟨_, _, stepped, ?_⟩
    dsimp only at shown ⊢
    rw [kept, shown]
    rcases either with rfl | rfl
    · exact outcome_pure.mpr ⟨rfl, rfl⟩
    · exact outcome_pure.mpr ⟨rfl, rfl⟩

end Walks

end Ff

end Hdfmonkey
