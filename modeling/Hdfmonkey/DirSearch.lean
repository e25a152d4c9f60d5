/-
This file says where `dir_find` stops in a table: at the entry at which a search of the
list of the entries stops, if there is one. The disk and the buffer for long names stay as
they were, and so they do over all the numbered names that `dir_register` looks for.

A search stops at an entry in front of the end of the table only, and only at one that is
neither deleted nor a volume label nor a part of a long name.
-/

import Hdfmonkey.TableWalks

namespace Hdfmonkey

namespace Ff

open Program

/-! ### The search of a list -/

/-- An entry that `dir_find` may stop at: it is not deleted, and no volume label and no part of a
long name. -/
def Visible (entry : Buffer) : Prop :=
  entry 0 ≠ 0xE5 ∧ isLabel (entry dirAttr &&& amMask) = false ∧ entry dirAttr &&& amMask ≠ amLfn

/-- The object that looks for a name at an entry in a buffer of its own. -/
def seekingDir (fn : Name) (lfn : Bool) (index lfnIdx : Nat) : Dir :=
  { entryDir index lfnIdx with fn, lfn }

/-- The loop of `dir_find`: the index number of the entry it stops at, if it does. A run that leaves
the buffer has no outcome. -/
def walkFind (fn : Name) (lfn : Bool) (lfnBuf : Nat → Nat) :
    (ahead : List Buffer) → (index : Nat) → Scan → Option (Option Nat)
  | [], _, _ => some none
  | entry :: rest, index, scan =>
    if entry 0 = 0 then some none
    else
      (findEntry lfnBuf entry (seekingDir fn lfn index scan.lfnIdx) scan).bind fun turn =>
        if turn.1 then some (some index)
        else if (index + 1) % 2 ^ 16 = 0 then some none
        else walkFind fn lfn lfnBuf rest (index + 1) turn.2

section Entry

variable {win slot : Buffer} {dj : Dir} {lfnIdx : Nat} {lfnBuf : Nat → Nat} {scan next : Scan}

/-- `cmp_lfn` reads the entry only. -/
theorem Dir.Shows.cmpLfn (shows : dj.Shows win slot) :
    cmpLfn lfnBuf win dj.entry = cmpLfn lfnBuf slot 0 := by
  have chars : (lfnOfs.map fun ofs => win.loadWord (dj.entry + ofs)) =
      lfnOfs.map fun ofs => slot.loadWord (0 + ofs) := by
    refine List.map_congr_left fun ofs member => ?_
    rw [Nat.zero_add]
    have inside : ∀ ofs ∈ lfnOfs, ofs + 1 < 32 := by decide
    exact shows.loadWord (inside ofs member)
  rw [Ff.cmpLfn, Ff.cmpLfn, chars, shows.first]

/-- What a turn of the loop makes of an entry depends on the entry, its index number and the name
only. -/
theorem Dir.Shows.findEntry (shows : dj.Shows win slot) (scan : Scan) :
    findEntry lfnBuf win dj scan =
      findEntry lfnBuf slot (seekingDir dj.fn dj.lfn dj.index lfnIdx) scan := by
  have place (offset : Nat) : (seekingDir dj.fn dj.lfn dj.index lfnIdx).entry + offset = offset :=
    Nat.zero_add _
  have zero : (seekingDir dj.fn dj.lfn dj.index lfnIdx).entry = 0 := rfl
  have attributes : attributes win dj =
      attributes slot (seekingDir dj.fn dj.lfn dj.index lfnIdx) := by
    rw [Ff.attributes, Ff.attributes, shows dirAttr (by decide), place]
  have start : scan.start win dj = scan.start slot (seekingDir dj.fn dj.lfn dj.index lfnIdx) := by
    rw [Scan.start, Scan.start, shows ldirChksum (by decide), shows.first, place, zero]
    rfl
  have continues (scan : Scan) : scan.continues win dj =
      scan.continues slot (seekingDir dj.fn dj.lfn dj.index lfnIdx) := by
    rw [Scan.continues, Scan.continues, shows ldirChksum (by decide), shows.first, place, zero]
  rw [Ff.findEntry, Ff.findEntry, attributes, start, shows.cmpLfn, shows.slice (by decide),
    shows.first, zero]
  simp only [continues]
  rfl

/-- The loop stops at visible entries only. -/
theorem findEntry_stops (shows : dj.Shows win slot)
    (turn : findEntry lfnBuf win dj scan = some (true, next)) : Visible slot := by
  have attributes : attributes win dj = slot dirAttr &&& amMask :=
    congrArg (· &&& amMask) (shows dirAttr (by decide))
  rw [Ff.findEntry, attributes, shows.first] at turn
  dsimp only at turn
  by_cases invalid : slot 0 = 0xE5 ∨ isLabel (slot dirAttr &&& amMask) = true
  · rw [if_pos invalid] at turn
    exact absurd (congrArg Prod.fst (Option.some.inj turn)) Bool.false_ne_true
  · rw [if_neg invalid] at turn
    obtain ⟨deleted, label⟩ := not_or.mp invalid
    refine ⟨deleted, Bool.eq_false_iff.mpr label, fun long => ?_⟩
    rw [if_pos long] at turn
    split_ifs at turn
    · obtain ⟨_, _, same⟩ := Option.map_eq_some_iff.mp turn
      exact absurd (congrArg Prod.fst same) Bool.false_ne_true
    · exact absurd (congrArg Prod.fst (Option.some.inj turn)) Bool.false_ne_true
    · exact absurd (congrArg Prod.fst (Option.some.inj turn)) Bool.false_ne_true

end Entry

/-! ### The search of a table -/

/-- An entry of a table in front of its end, at which a search may stop. -/
structure ShownAt (fs : Fatfs) (cells : List Nat) (disk : Nat → Buffer) (index : Nat) : Prop where
  inside : index < tableLength fs cells
  small : index < 2 ^ 16
  before : ∀ place ≤ index, tableSlot fs cells disk place 0 ≠ 0
  visible : Visible (tableSlot fs cells disk index)

/-- A directory object at an entry that was found and is in the window. -/
structure Found (vol : Nat) (fs : Fatfs) (cells : List Nat) (start : Nat) (disk : Nat → Buffer)
    (found : Dir) (index : Nat) : Prop where
  at' : AtSlot vol fs cells start found index
  shown : ShownAt fs cells disk index
  shows : found.Shows fs.win (tableSlot fs cells disk index)
  window : fs.winsect = found.sect

section Search

/-- Seeking in a table. -/
theorem dirSeek_keepsName {lfnBuf : Nat → Nat} (dj : Dir) (idx : Nat) :
    Keeps (fun machine => machine.lfnBuf = lfnBuf) (dirSeek dj idx) fun _ => True := by
  have follows (mcl links clst : Nat) : Keeps (fun machine => machine.lfnBuf = lfnBuf)
      (followLinks dj.fs mcl links clst) fun _ => True := by
    induction links generalizing clst with
    | zero => exact keeps_pure trivial
    | succ links inductionHypothesis =>
      exact keeps_bind (getFat_keepsName _) fun _ _ => keeps_ite (fun _ => keeps_pure trivial)
        fun _ => keeps_ite (fun _ => keeps_pure trivial) fun _ => inductionHypothesis _
  refine keeps_bind fatfs_keepsName fun fs _ => keeps_ite (fun _ => keeps_pure trivial) fun _ =>
    keeps_bind keeps_get fun machine _ => keeps_ite
      (fun _ => keeps_ite (fun _ => keeps_pure trivial) fun _ => keeps_pure trivial) fun _ => ?_
  refine keeps_bind (follows _ _ _) fun followed _ => ?_
  cases followed with
  | error res => exact keeps_pure trivial
  | ok clst => exact keeps_bind fatfs_keepsName fun _ _ => keeps_pure trivial

variable {vol : Nat} {volume : VolumeContainer} {size : Nat} {build : Build} {fmt : FatType}
  {fs : Fatfs} {disk : Nat → Buffer} {machine after : Machine} {cells : List Nat}
  {start index : Nat} {dj : Dir} {result : FResult × Dir}

/-- The loop of `dir_find` stops where the search of the entries ahead stops. -/
theorem findLoop_walks (onTable : OnTable vol volume size build fmt fs disk machine cells start)
    (at' : AtSlot vol fs cells start dj index) (inside : index < tableLength fs cells)
    (small : index < 2 ^ 16)
    (before : ∀ place < index, tableSlot fs cells disk place 0 ≠ 0) {fuel : Nat} {scan : Scan}
    (run : (findLoop fuel scan dj).Outcome machine result after) :
    ∃ found win winsect wflag,
      walkFind dj.fn dj.lfn machine.lfnBuf (tableSlots fs cells disk index) index scan =
        some found ∧
      OnTable vol volume size build fmt { fs with win, winsect, wflag } disk after cells start ∧
      after.lfnBuf = machine.lfnBuf ∧
      (result.2.fs = vol ∧ result.2.sclust = start ∧ result.2.fn = dj.fn) ∧
      (found = none → result.1 = .noFile) ∧
      ∀ place, found = some place → result.1 = .ok ∧
        Found vol { fs with win, winsect, wflag } cells start disk result.2 place := by
  induction fuel generalizing fs machine index dj scan with
  | zero => exact absurd run outcome_undefined
  | succ fuel inductionHypothesis =>
    obtain ⟨win, wflag, looked, moved, onTableLooked, shows, kept⟩ := at'.looks onTable inside
    have number := at'.number
    have drive := at'.drive
    have sclust := at'.sclust
    subst number drive sclust
    have registered := onTableLooked.sees.registered
    rw [findLoop] at run
    obtain ⟨_, _, again, run⟩ := outcome_bind.mp run
    obtain ⟨rfl, rfl⟩ := again.unique moved
    rw [if_neg (not_not.mpr rfl), outcome_fatfs_bind registered] at run
    rw [tableSlots_of_lt inside, walkFind]
    by_cases ended : tableSlot fs cells disk dj.index 0 = 0
    · rw [if_pos (shows.first.trans ended)] at run
      obtain ⟨rfl, rfl⟩ := outcome_pure.mp run
      exact ⟨none, win, dj.sect, wflag, if_pos ended, onTableLooked, kept, ⟨rfl, rfl, rfl⟩,
        fun _ => rfl, fun _ none => absurd none (by simp)⟩
    · rw [if_neg fun same => ended (shows.first.symm.trans same)] at run
      obtain ⟨_, _, got, rest⟩ := outcome_bind.mp run
      obtain ⟨rfl, rfl⟩ := outcome_get.mp got
      have before : ∀ place ≤ dj.index, tableSlot fs cells disk place 0 ≠ 0 := fun place least =>
        (Nat.lt_or_eq_of_le least).elim (before place) fun same => same ▸ ended
      have turn := @Dir.Shows.findEntry win _ dj scan.lfnIdx machine.lfnBuf shows scan
      rw [if_neg ended]
      dsimp only at rest
      rw [kept] at rest
      rw [← turn]
      cases goes : findEntry machine.lfnBuf win dj scan with
      | none =>
        rw [goes] at rest
        exact absurd rest outcome_undefined
      | some done =>
        obtain ⟨stop, next⟩ := done
        rw [goes] at rest
        rw [Option.bind_some]
        dsimp only at rest
        cases stop with
        | true =>
          rw [if_pos rfl] at rest
          obtain ⟨rfl, rfl⟩ := outcome_pure.mp rest
          refine ⟨some dj.index, win, dj.sect, wflag, if_pos rfl, onTableLooked, kept,
            ⟨rfl, rfl, rfl⟩, fun none => absurd none (by simp), fun place same => ?_⟩
          obtain rfl := Option.some.inj same
          exact ⟨rfl, { at' with }, ⟨inside, small, before, findEntry_stops shows goes⟩, shows, rfl⟩
        | false =>
          rw [if_neg Bool.false_ne_true] at rest
          have here : AtSlot dj.fs { fs with win, winsect := dj.sect, wflag } cells dj.sclust
              { dj with lfnIdx := next.lfnIdx } dj.index := { at' with }
          obtain ⟨_, _, stepping, rest⟩ := outcome_bind.mp rest
          by_cases more : dj.index + 1 < tableLength fs cells ∧ dj.index + 1 < 2 ^ 16
          · obtain ⟨dj', win, winsect, wflag, stepped, comes, onTableNext, atNext, same⟩ :=
              dirNext_comes false onTableLooked here more.1 more.2
            obtain ⟨rfl, rfl⟩ := stepping.unique comes
            have keptName := (dirNext_keepsName _).comes rfl (.inl ⟨_, comes⟩)
            have name : dj'.fn = dj.fn := by rw [same]
            have long : dj'.lfn = dj.lfn := by rw [same]
            rw [if_neg (not_not.mpr rfl)] at rest
            obtain ⟨found, win, winsect, wflag, walked, onTableAfter, keptAfter, object, none,
              stops⟩ := inductionHypothesis onTableNext { atNext with } more.1 more.2
                (fun place less => before place (Nat.le_of_lt_succ less)) rest
            rw [name, long, keptName, kept] at walked
            refine ⟨found, win, winsect, wflag, ?_, onTableAfter,
              keptAfter.trans (keptName.trans kept), ⟨object.1, object.2.1,
                object.2.2.trans name⟩, none, stops⟩
            rw [if_neg Bool.false_ne_true, if_neg (by omega)]
            exact walked
          · obtain ⟨dj', win, winsect, wflag, stepped, ends, onTableNext, same⟩ :=
              dirNext_ends onTableLooked here inside
                (show tableLength fs cells ≤ dj.index + 1 ∨ _ by omega) small
            obtain ⟨rfl, rfl⟩ := stepping.unique ends
            have keptName := (dirNext_keepsName _).comes rfl (.inl ⟨_, ends⟩)
            rw [if_pos (show ¬FResult.noFile = .ok by decide)] at rest
            obtain ⟨rfl, rfl⟩ := outcome_pure.mp rest
            refine ⟨none, win, winsect, wflag, ?_, onTableNext, keptName.trans kept,
              by rw [same]; exact ⟨rfl, rfl, rfl⟩, fun _ => rfl,
              fun _ none => absurd none (by simp)⟩
            rw [if_neg Bool.false_ne_true]
            split_ifs with wrapped
            · rfl
            · rw [tableSlots_of_le (by omega)]
              rfl

/-- What `dir_find` finds is what a search of the whole table finds. -/
theorem dirFind_walks (onTable : OnTable vol volume size build fmt fs disk machine cells start)
    (drive : dj.fs = vol) (sclust : dj.sclust = start) (some : 0 < tableLength fs cells)
    (run : (dirFind dj).Outcome machine result after) :
    ∃ found win winsect wflag,
      walkFind dj.fn dj.lfn machine.lfnBuf (tableSlots fs cells disk 0) 0
        ⟨0xFF, 0xFF, dj.lfnIdx⟩ = .some found ∧
      OnTable vol volume size build fmt { fs with win, winsect, wflag } disk after cells start ∧
      after.lfnBuf = machine.lfnBuf ∧
      (result.2.fs = vol ∧ result.2.sclust = start ∧ result.2.fn = dj.fn) ∧
      (found = none → result.1 = .noFile) ∧
      ∀ place, found = .some place → result.1 = .ok ∧
        Found vol { fs with win, winsect, wflag } cells start disk result.2 place := by
  obtain ⟨dj', win, winsect, wflag, middle, sought, onTableMiddle, at', same⟩ :=
    dirSeek_comes onTable drive sclust some
  have kept := (dirSeek_keepsName dj 0).comes rfl (.inl ⟨_, sought⟩)
  have name : dj'.fn = dj.fn := by rw [same]
  have long : dj'.lfn = dj.lfn := by rw [same]
  have front : dj'.lfnIdx = dj.lfnIdx := by rw [same]
  obtain ⟨_, _, seeking, rest⟩ := outcome_bind.mp run
  obtain ⟨rfl, rfl⟩ := seeking.unique sought
  rw [if_neg (not_not.mpr rfl)] at rest
  obtain ⟨found, win, winsect, wflag, walked, onTableAfter, keptAfter, object, none, stops⟩ :=
    findLoop_walks onTableMiddle { at' with } some (by decide)
      (fun _ before => absurd before (Nat.not_lt_zero _)) rest
  dsimp only at walked object
  rw [name, long, front, kept] at walked
  exact ⟨found, win, winsect, wflag, walked, onTableAfter, keptAfter.trans kept,
    ⟨object.1, object.2.1, object.2.2.trans name⟩, none, stops⟩

/-- The search for a number leaves the table as it was, by induction on the numbers. -/
theorem numberName_walks {sn : Name} {tries n : Nat}
    (onTable : OnTable vol volume size build fmt fs disk machine cells start)
    (drive : dj.fs = vol) (sclust : dj.sclust = start) (some : 0 < tableLength fs cells)
    (eleven : sn.fn.length = 11) (few : n + tries ≤ 2 ^ 16)
    (run : (numberName sn tries n dj).Outcome machine result after) :
    (∃ win winsect wflag,
      OnTable vol volume size build fmt { fs with win, winsect, wflag } disk after cells start) ∧
      result.2.fs = vol ∧ result.2.sclust = start ∧
      (result.1 = .ok → result.2.fn.fn.length = 11) := by
  induction tries generalizing fs machine n dj with
  | zero =>
    obtain ⟨rfl, rfl⟩ := outcome_pure.mp run
    exact ⟨⟨_, _, _, onTable⟩, drive, sclust, fun good => absurd good
      (show ¬FResult.denied = .ok by decide)⟩
  | succ tries inductionHypothesis =>
    obtain ⟨found, middle, looked, rest⟩ := outcome_bind.mp run
    obtain ⟨_, win, winsect, wflag, _, onTableMiddle, _, object, _⟩ :=
      dirFind_walks onTable (by exact drive) (by exact sclust) some looked
    by_cases free : found.1 = .noFile
    · rw [if_pos free] at rest
      obtain ⟨rfl, rfl⟩ := outcome_pure.mp rest
      exact ⟨⟨_, _, _, onTableMiddle⟩, object.1, object.2.1, fun _ =>
        length_genNumname _ eleven (by omega)⟩
    · rw [if_neg free] at rest
      by_cases failed : found.1 ≠ .ok
      · rw [if_pos failed] at rest
        obtain ⟨rfl, rfl⟩ := outcome_pure.mp rest
        exact ⟨⟨_, _, _, onTableMiddle⟩, object.1, object.2.1, fun good => absurd good failed⟩
      · rw [if_neg failed] at rest
        have goesOn := inductionHypothesis onTableMiddle object.1 object.2.1 some (by omega) rest
        exact goesOn

/-- So does the choice of the short name of a new entry. -/
theorem chooseSfn_walks
    (onTable : OnTable vol volume size build fmt fs disk machine cells start)
    (drive : dj.fs = vol) (sclust : dj.sclust = start) (some : 0 < tableLength fs cells)
    (eleven : dj.fn.fn.length = 11) (run : (chooseSfn dj).Outcome machine result after) :
    (∃ win winsect wflag,
      OnTable vol volume size build fmt { fs with win, winsect, wflag } disk after cells start) ∧
      result.2.fs = vol ∧ result.2.sclust = start ∧
      (result.1 = .ok → result.2.fn.fn.length = 11) := by
  rw [chooseSfn] at run
  split_ifs at run
  · exact numberName_walks onTable drive sclust some eleven (by decide) run
  · obtain ⟨rfl, rfl⟩ := outcome_pure.mp run
    exact ⟨⟨_, _, _, onTable⟩, drive, sclust, fun _ => eleven⟩

end Search

end Ff

end Hdfmonkey
