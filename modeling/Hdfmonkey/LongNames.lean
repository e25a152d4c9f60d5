/-
This file proves which long names `f_readdir` shows: those of at most 253 characters.

A long name lies in the entries in front of a short one, 13 characters in each, with a
terminator behind it if there is room for one. `pick_lfn` puts them back together, the
last part first. Behind the last part it asks for room for a terminator once more, so a
name of 254 characters, whose terminator is the last unit of the buffer, is given up like
one of 255. An entry whose long name is given up is shown with its short one.
-/

import Hdfmonkey.DirWalks
import Mathlib.Data.List.GetD

namespace Hdfmonkey

open Ff

/-! ### The code page -/

/-- A long name in the code page. -/
def oemName (lfn : List Nat) : List UInt8 := lfn.map fun w => UInt8.ofNat (unicodeToOem w)

theorem length_oemName (lfn : List Nat) : (oemName lfn).length = lfn.length := List.length_map _

theorem oemName_append (front back : List Nat) :
    oemName (front ++ back) = oemName front ++ oemName back := List.map_append

/-- A long name as a directory may hold it, with characters that the code page has. -/
structure LongName (lfn : List Nat) : Prop where
  nonempty : lfn ≠ []
  length : lfn.length ≤ maxLfn
  chars : ∀ w ∈ lfn, 0x20 ≤ w ∧ w ≠ 0x2f ∧ w ≠ 0x5c
  last : ∀ w ∈ lfn.getLast?, blankOrDot w = false
  coded : ∀ w ∈ lfn, unicodeToOem w ≠ 0

theorem oemName_ne_nil {lfn : List Nat} (long : LongName lfn) : oemName lfn ≠ [] :=
  fun none => long.nonempty (List.map_eq_nil_iff.mp none)

theorem LongName.present {lfn : List Nat} (long : LongName lfn) : ∀ w ∈ lfn, w ≠ 0 :=
  fun w member zero => by
    have visible := (long.chars w member).1
    omega

/-- A name of so many letters. -/
theorem longName_replicate {length : Nat} (some : 0 < length) (few : length ≤ maxLfn) :
    LongName (List.replicate length 0x61) := by
  have letter : ∀ w ∈ List.replicate length 0x61, w = 0x61 := fun w => List.eq_of_mem_replicate
  refine ⟨?_, ?_, fun w member => ?_, fun w ends => ?_, fun w member => ?_⟩
  · exact List.ne_nil_of_length_pos (by rwa [List.length_replicate])
  · rwa [List.length_replicate]
  · rw [letter w member]
    decide
  · rw [letter w (List.mem_of_getLast? ends)]
    decide
  · rw [letter w member]
    decide

theorem unicodeToOem_lt (w : Nat) : unicodeToOem w < 0x100 := by
  rw [unicodeToOem]
  split_ifs with ascii
  · omega
  · exact Nat.mod_lt _ (by decide)

/-- A character that the code page has comes back from it. -/
theorem oemToUnicode_unicodeToOem {w : Nat} (coded : unicodeToOem w ≠ 0) :
    oemToUnicode (unicodeToOem w) = w := by
  by_cases ascii : w < 0x80
  · rw [unicodeToOem, if_pos ascii, oemToUnicode, if_pos ascii]
  · rw [unicodeToOem, if_neg ascii] at coded ⊢
    have length : tbl.length = 0x80 := rfl
    have place : tbl.idxOf w < tbl.length := by
      have bound := List.idxOf_le_length (l := tbl) (a := w)
      by_contra outside
      have last : tbl.idxOf w = 0x80 := by omega
      exact coded (by rw [last])
    have small : (tbl.idxOf w + 0x80) % 0x100 = tbl.idxOf w + 0x80 :=
      Nat.mod_eq_of_lt (by omega)
    rw [small, oemToUnicode, if_neg (by omega), if_neg (by omega), Nat.add_sub_cancel,
      List.getD_eq_getElem _ _ place]
    exact List.getElem_idxOf place

/-- A long name that fits in the buffer of `get_fileinfo` is shown in the code page. -/
theorem shownLfn_eq {lfn : List Nat} (coded : ∀ w ∈ lfn, unicodeToOem w ≠ 0)
    (fits : lfn.length < 255) : shownLfn lfn = oemName lfn :=
  if_pos ⟨List.all_eq_true.mpr fun w member => decide_eq_true (coded w member), fits⟩

/-! ### The entries of a long name -/

/-- The character at a place of the entries of a long name: behind the name its terminator, and
fillers behind that. -/
def slotChar (lfn : List Nat) (place : Nat) : Nat :=
  if place = lfn.length then 0 else lfn.getD place 0xFFFF

/-- The entries that a long name takes. -/
def slotCount (lfn : List Nat) : Nat := (lfn.length + 12) / 13

/-- An entry of a long name, by its number and the check sum of the short name. -/
structure Slot (lfn : List Nat) (sum : UInt8) (ord : Nat) (slot : Buffer) : Prop where
  number : slot 0 = if ord = slotCount lfn then UInt8.ofNat ord ||| 0x40 else UInt8.ofNat ord
  attr : slot dirAttr &&& amMask = amLfn
  chksum : slot ldirChksum = sum
  chars : lfnOfs.map slot.loadWord = (List.range' ((ord - 1) * 13) 13).map (slotChar lfn)

/-- The entries of a long name from a number on, in descending order. -/
inductive Slots (lfn : List Nat) (sum : UInt8) : Nat → List Buffer → Prop
  | nil : Slots lfn sum 0 []
  | cons {ord : Nat} {slot : Buffer} {slots : List Buffer} :
      Slot lfn sum (ord + 1) slot → Slots lfn sum ord slots →
      Slots lfn sum (ord + 1) (slot :: slots)

/-- A live entry and the entries of its long name in front of it. -/
structure Carries (lfn : List Nat) (slots : List Buffer) (entry : Buffer) : Prop where
  slots : Slots lfn (sumSfn (entry.slice 0 11)) (slotCount lfn) slots
  present : entry 0 ≠ 0
  live : Live entry

section Picking

variable {lfn chars : List Nat} {i wc : Nat} {lfnBuf : Nat → Nat}

theorem slotChar_ne_zero (present : ∀ w ∈ lfn, w ≠ 0) {place : Nat} (inside : place ≠ lfn.length) :
    slotChar lfn place ≠ 0 := by
  rw [slotChar, if_neg inside]
  by_cases before : place < lfn.length
  · rw [List.getD_eq_getElem _ _ before]
    exact present _ (List.getElem_mem before)
  · rw [List.getD_eq_default _ _ (by omega)]
    decide

theorem slotChar_behind {place : Nat} (behind : lfn.length < place) :
    slotChar lfn place = 0xFFFF := by
  rw [slotChar, if_neg (by omega), List.getD_eq_default _ _ (by omega)]

/-- Nothing is stored from the fillers. -/
theorem pickChars_fillers (fillers : ∀ uc ∈ chars, uc = 0xFFFF) :
    pickChars chars i 0 lfnBuf = (true, i, lfnBuf) := by
  induction chars with
  | nil => rfl
  | cons uc chars inductionHypothesis =>
    obtain ⟨first, others⟩ := List.forall_mem_cons.mp fillers
    rw [pickChars, if_pos rfl, if_neg (not_not.mpr first)]
    exact inductionHypothesis others

/-- The characters of an entry that fit are stored, up to the terminator. -/
theorem pickChars_fits {count : Nat} (present : ∀ w ∈ lfn, w ≠ 0) (inside : i ≤ lfn.length)
    (goesOn : wc ≠ 0) (fits : min (lfn.length + 1) (i + count) ≤ maxLfn) :
    ∃ after, pickChars ((List.range' i count).map (slotChar lfn)) i wc lfnBuf =
        (true, min (lfn.length + 1) (i + count), after) ∧
      ∀ place, after place = if i ≤ place ∧ place < min (lfn.length + 1) (i + count) then
        slotChar lfn place else lfnBuf place := by
  induction count generalizing i wc lfnBuf with
  | zero =>
    have none : min (lfn.length + 1) (i + 0) = i := by omega
    rw [none]
    exact ⟨lfnBuf, rfl, fun place => (if_neg (by omega)).symm⟩
  | succ count inductionHypothesis =>
    have room : ¬ i ≥ maxLfn := by omega
    rw [List.range'_succ, List.map_cons, pickChars, if_neg goesOn, if_neg room]
    by_cases ended : i = lfn.length
    · -- the terminator, and fillers behind it
      have stop : min (lfn.length + 1) (i + (count + 1)) = i + 1 := by omega
      have zero : slotChar lfn i = 0 := if_pos ended
      have fillers : ∀ uc ∈ (List.range' (i + 1) count).map (slotChar lfn), uc = 0xFFFF := by
        intro uc member
        obtain ⟨place, listed, rfl⟩ := List.mem_map.mp member
        exact slotChar_behind (by have := List.mem_range'_1.mp listed; omega)
      rw [stop, zero, pickChars_fillers fillers]
      refine ⟨_, rfl, fun place => ?_⟩
      by_cases here : place = i
      · rw [here, Function.update_self, if_pos (by omega), zero]
      · rw [Function.update_of_ne here, if_neg (by omega)]
    · have stop : i + 1 + count = i + (count + 1) := by omega
      obtain ⟨after, run, stored⟩ := @inductionHypothesis (i + 1) (slotChar lfn i)
        (Function.update lfnBuf i (slotChar lfn i)) (by omega)
        (slotChar_ne_zero present ended) (by omega)
      rw [stop] at run stored
      refine ⟨after, run, fun place => ?_⟩
      rw [stored]
      by_cases here : place = i
      · rw [here, Function.update_self, if_neg (by omega), if_pos (by omega)]
      · rw [Function.update_of_ne here]
        exact if_congr (by omega) rfl rfl

/-- A terminator that does not fit is an overflow. -/
theorem pickChars_overflows {count : Nat} (present : ∀ w ∈ lfn, w ≠ 0) (inside : i ≤ lfn.length)
    (goesOn : wc ≠ 0) (start : i ≤ maxLfn) (full : maxLfn < min (lfn.length + 1) (i + count)) :
    (pickChars ((List.range' i count).map (slotChar lfn)) i wc lfnBuf).1 = false := by
  induction count generalizing i wc lfnBuf with
  | zero => omega
  | succ count inductionHypothesis =>
    rw [List.range'_succ, List.map_cons, pickChars, if_neg goesOn]
    split_ifs with overflow
    · rfl
    · exact inductionHypothesis (by omega) (slotChar_ne_zero present (by omega)) (by omega)
        (by omega)

end Picking

/-! ### Reading the entries of a long name -/

/-- The buffer has the long name from a place on, with its terminator. -/
def Holds (lfn : List Nat) (start : Nat) (lfnBuf : Nat → Nat) : Prop :=
  ∀ place, start ≤ place → place ≤ lfn.length → lfnBuf place = slotChar lfn place

/-- The first byte of an entry of a long name. -/
def slotNumber (last : Bool) (ord : Nat) : UInt8 :=
  if last then UInt8.ofNat ord ||| 0x40 else UInt8.ofNat ord

theorem slotNumber_spec : ∀ last, ∀ ord < 20,
    (slotNumber last (ord + 1) ≠ 0 ∧ slotNumber last (ord + 1) ≠ 0xE5 ∧
      slotNumber last (ord + 1) ≠ 0x2e) ∧
    slotNumber last (ord + 1) &&& 0x3F ≠ 0 ∧
    ((slotNumber last (ord + 1) &&& 0x3F).toNat - 1) * 13 = ord * 13 ∧
    (slotNumber last (ord + 1) &&& 0x40 = 0 ↔ last = false) ∧
    slotNumber last (ord + 1) &&& 0xBF = UInt8.ofNat (ord + 1) ∧
    lfnOrd (slotNumber last (ord + 1)) = UInt8.ofNat (ord + 1) ∧
    UInt8.ofNat (ord + 1) - 1 = UInt8.ofNat ord ∧ UInt8.ofNat (ord + 1) ≠ 0xFF := by
  decide

section Reading

variable {lfn : List Nat} {sum : UInt8} {ord index lfnIdx : Nat} {slot entry : Buffer}
  {slots rest tail : List Buffer} {scan : Scan} {lfnBuf : Nat → Nat}

theorem Slot.first (inside : Slot lfn sum ord slot) :
    slot 0 = slotNumber (ord = slotCount lfn) ord := by
  rw [inside.number, slotNumber]
  exact if_congr decide_eq_true_iff.symm rfl rfl

theorem slotCount_le (length : lfn.length ≤ maxLfn) : slotCount lfn ≤ 20 := by
  rw [slotCount]
  change lfn.length ≤ 255 at length
  omega

theorem Slot.pickLfn_eq (inside : Slot lfn sum (ord + 1) slot) (small : ord < 20) :
    pickLfn lfnBuf slot 0 =
      let picked := pickChars ((List.range' (ord * 13) 13).map (slotChar lfn)) (ord * 13) 1 lfnBuf
      if ¬ picked.1 then some (false, picked.2.2)
      else if ord + 1 ≠ slotCount lfn then some (true, picked.2.2)
      else if picked.2.1 ≥ maxLfn then some (false, picked.2.2)
      else some (true, Function.update picked.2.2 picked.2.1 0) := by
  obtain ⟨_, some, place, last, _⟩ := slotNumber_spec (ord + 1 = slotCount lfn) ord small
  have chars : (lfnOfs.map fun ofs => slot.loadWord (0 + ofs)) =
      (List.range' (ord * 13) 13).map (slotChar lfn) := by
    refine Eq.trans ?_ inside.chars
    exact List.map_congr_left fun ofs _ => congrArg slot.loadWord (Nat.zero_add ofs)
  rw [pickLfn, inside.first, if_neg some, chars, place]
  exact if_congr Iff.rfl rfl (if_congr (last.trans decide_eq_false_iff_not) rfl rfl)

/-- `pick_lfn` takes the parts of a long name of at most 253 characters. -/
theorem Slot.picked (inside : Slot lfn sum (ord + 1) slot) (present : ∀ w ∈ lfn, w ≠ 0)
    (fits : lfn.length < pickLimit) (few : ord + 1 ≤ slotCount lfn)
    (holds : ord + 1 < slotCount lfn → Holds lfn ((ord + 1) * 13) lfnBuf) :
    ∃ after, pickLfn lfnBuf slot 0 = some (true, after) ∧ Holds lfn (ord * 13) after := by
  have limit : maxLfn = 255 := rfl
  change lfn.length < 254 at fits
  have count : slotCount lfn = (lfn.length + 12) / 13 := rfl
  have small : ord < 20 := by omega
  obtain ⟨after, run, stored⟩ := @pickChars_fits lfn (ord * 13) 1 lfnBuf 13 present (by omega)
    Nat.one_ne_zero (show min (lfn.length + 1) (ord * 13 + 13) ≤ maxLfn by omega)
  rw [inside.pickLfn_eq small, run]
  dsimp only
  rw [if_neg (not_not.mpr rfl)]
  by_cases last : ord + 1 = slotCount lfn
  · rw [if_neg (not_not.mpr last),
      if_neg (show ¬ min (lfn.length + 1) (ord * 13 + 13) ≥ maxLfn by omega)]
    refine ⟨_, rfl, fun place low high => ?_⟩
    by_cases here : place = min (lfn.length + 1) (ord * 13 + 13)
    · rw [here, Function.update_self, slotChar, if_pos (by omega)]
    · rw [Function.update_of_ne here, stored, if_pos (by omega)]
  · rw [if_pos last]
    refine ⟨after, rfl, fun place low high => ?_⟩
    rw [stored]
    split_ifs with part
    · rfl
    · exact holds (by omega) place (by omega) high

/-- It gives up at the last part of a longer one. -/
theorem Slot.notPicked (inside : Slot lfn sum (ord + 1) slot) (present : ∀ w ∈ lfn, w ≠ 0)
    (length : lfn.length ≤ maxLfn) (long : pickLimit ≤ lfn.length)
    (last : ord + 1 = slotCount lfn) :
    ∃ after, pickLfn lfnBuf slot 0 = some (false, after) := by
  have limit : maxLfn = 255 := rfl
  change 254 ≤ lfn.length at long
  have count : slotCount lfn = (lfn.length + 12) / 13 := rfl
  have small : ord < 20 := by omega
  rw [inside.pickLfn_eq small]
  dsimp only
  by_cases terminated : lfn.length + 1 ≤ maxLfn
  · obtain ⟨after, run, _⟩ := @pickChars_fits lfn (ord * 13) 1 lfnBuf 13 present (by omega)
      Nat.one_ne_zero (show min (lfn.length + 1) (ord * 13 + 13) ≤ maxLfn by omega)
    rw [run]
    dsimp only
    rw [if_neg (not_not.mpr rfl), if_neg (not_not.mpr last),
      if_pos (show min (lfn.length + 1) (ord * 13 + 13) ≥ maxLfn by omega)]
    exact ⟨after, rfl⟩
  · have overflow := @pickChars_overflows lfn (ord * 13) 1 lfnBuf 13 present (by omega)
      Nat.one_ne_zero (show ord * 13 ≤ maxLfn by omega)
      (show maxLfn < min (lfn.length + 1) (ord * 13 + 13) by omega)
    rw [overflow, if_pos Bool.false_ne_true]
    exact ⟨_, rfl⟩

/-- A turn of the loop of `dir_read` at an entry of a long name. -/
theorem Slot.readEntry_eq (inside : Slot lfn sum (ord + 1) slot) (small : ord < 20) :
    readEntry lfnBuf slot (entryDir index lfnIdx) scan =
      let scan : Scan :=
        if ord + 1 = slotCount lfn then ⟨UInt8.ofNat (ord + 1), sum, index⟩ else scan
      if scan.ord = UInt8.ofNat (ord + 1) ∧ scan.sum = sum then
        (pickLfn lfnBuf slot 0).map fun picked =>
          (false, { scan with ord := if picked.1 then scan.ord - 1 else 0xFF }, picked.2)
      else some (false, { scan with ord := 0xFF }, lfnBuf) := by
  obtain ⟨⟨_, deleted, dot⟩, _, _, last, start, number, _⟩ :=
    slotNumber_spec (ord + 1 = slotCount lfn) ord small
  have place : (entryDir index lfnIdx).entry = 0 := rfl
  have attr : attributes slot (entryDir index lfnIdx) = amLfn := inside.attr
  have chksum : slot (0 + ldirChksum) = sum := inside.chksum
  have begun : scan.start slot (entryDir index lfnIdx) =
      if ord + 1 = slotCount lfn then ⟨UInt8.ofNat (ord + 1), sum, index⟩ else scan := by
    rw [Scan.start, place, chksum, inside.first, start]
    by_cases whole : ord + 1 = slotCount lfn
    · rw [if_pos whole]
      exact if_neg fun none => absurd (last.mp none) (by rw [decide_eq_true whole]; decide)
    · rw [if_neg whole]
      exact if_pos (last.mpr (decide_eq_false whole))
  rw [readEntry, place, attr, inside.first, if_neg, if_pos rfl, begun]
  · dsimp only
    rw [Scan.continues, place, chksum, inside.first, number]
    refine if_congr ?_ rfl rfl
    rw [decide_eq_true_iff, eq_comm]
  · rintro (same | same | label)
    · exact deleted same
    · exact dot same
    · exact absurd label (by decide)

/-- The entries of a long name of at most 253 characters leave it in the buffer, by induction on
them. -/
theorem walkRead_slots (present : ∀ w ∈ lfn, w ≠ 0) (fits : lfn.length < pickLimit)
    (inside : Slots lfn sum ord slots) (few : ord ≤ slotCount lfn)
    (place : index + slots.length < 2 ^ 16)
    (ready : ord < slotCount lfn → scan.ord = UInt8.ofNat ord ∧ scan.sum = sum ∧
      scan.lfnIdx ≠ 0xFFFF ∧ Holds lfn (ord * 13) lfnBuf) (some : 0 < slotCount lfn) :
    ∃ scan' after, walkRead (slots ++ tail) index scan lfnBuf =
        walkRead tail (index + slots.length) scan' after ∧
      scan'.ord = 0 ∧ scan'.sum = sum ∧ scan'.lfnIdx ≠ 0xFFFF ∧ Holds lfn 0 after := by
  induction inside generalizing index scan lfnBuf with
  | nil =>
    obtain ⟨number, chksum, start, holds⟩ := ready some
    exact ⟨scan, lfnBuf, rfl, number, chksum, start, Nat.zero_mul 13 ▸ holds⟩
  | cons slot others inductionHypothesis =>
    rename_i ord first slots
    rw [List.length_cons] at place
    change lfn.length < 254 at fits
    have small : ord < 20 := by
      have count : slotCount lfn = (lfn.length + 12) / 13 := rfl
      omega
    obtain ⟨⟨nonzero, _⟩, _, _, _, _, _, next, _⟩ :=
      slotNumber_spec (ord + 1 = slotCount lfn) ord small
    obtain ⟨after, picked, holds⟩ := slot.picked present fits few fun less => (ready less).2.2.2
    -- the scan at this entry
    generalize begun : (if ord + 1 = slotCount lfn then
      (⟨UInt8.ofNat (ord + 1), sum, index⟩ : Scan) else scan) = begin'
    have number : begin'.ord = UInt8.ofNat (ord + 1) ∧ begin'.sum = sum ∧
        begin'.lfnIdx ≠ 0xFFFF := by
      rw [← begun]
      split_ifs with whole
      · exact ⟨rfl, rfl, show index ≠ 65535 by omega⟩
      · obtain ⟨number, chksum, start, _⟩ := ready (by omega)
        exact ⟨number, chksum, start⟩
    obtain ⟨number, chksum, start⟩ := number
    obtain ⟨scan', last, run, spec⟩ := @inductionHypothesis (index + 1)
      { begin' with ord := UInt8.ofNat ord } after (by omega) (by omega) fun _ =>
        ⟨rfl, chksum, start, holds⟩
    refine ⟨scan', last, ?_, spec⟩
    have turn := @Slot.readEntry_eq lfn sum ord index scan.lfnIdx first scan lfnBuf slot small
    rw [begun] at turn
    dsimp only at turn
    rw [if_pos ⟨number, chksum⟩, picked, Option.map_some, if_pos rfl, number, next] at turn
    rw [List.cons_append, walkRead, if_neg (slot.first ▸ nonzero), turn, Option.bind_some,
      if_neg Bool.false_ne_true, if_neg (by omega), run, List.length_cons, Nat.add_assoc,
      Nat.add_comm 1]

/-- Once a long name is given up, the entries behind leave it so. -/
theorem walkRead_lost (inside : Slots lfn sum ord slots) (less : ord < slotCount lfn)
    (length : lfn.length ≤ maxLfn) (place : index + slots.length < 2 ^ 16)
    (lost : scan.ord = 0xFF) :
    ∃ scan' after, walkRead (slots ++ tail) index scan lfnBuf =
        walkRead tail (index + slots.length) scan' after ∧ scan'.ord = 0xFF := by
  induction inside generalizing index scan lfnBuf with
  | nil => exact ⟨scan, lfnBuf, rfl, lost⟩
  | cons slot others inductionHypothesis =>
    rename_i ord first slots
    rw [List.length_cons] at place
    have count := slotCount_le length
    obtain ⟨⟨nonzero, _⟩, _, _, _, _, _, _, other⟩ :=
      slotNumber_spec (ord + 1 = slotCount lfn) ord (by omega)
    obtain ⟨scan', last, run, spec⟩ := @inductionHypothesis (index + 1)
      { scan with ord := 0xFF } lfnBuf (by omega) (by omega) rfl
    refine ⟨scan', last, ?_, spec⟩
    have turn := @Slot.readEntry_eq lfn sum ord index scan.lfnIdx first scan lfnBuf slot (by omega)
    rw [if_neg (show ¬ ord + 1 = slotCount lfn by omega)] at turn
    dsimp only at turn
    rw [if_neg fun same => other (same.1.symm.trans lost)] at turn
    rw [List.cons_append, walkRead, if_neg (slot.first ▸ nonzero), turn, Option.bind_some,
      if_neg Bool.false_ne_true, if_neg (by omega), run, List.length_cons, Nat.add_assoc,
      Nat.add_comm 1]

/-- The entries of a longer name are given up at the first of them. -/
theorem walkRead_slots_long (present : ∀ w ∈ lfn, w ≠ 0) (length : lfn.length ≤ maxLfn)
    (long : pickLimit ≤ lfn.length) (inside : Slots lfn sum (slotCount lfn) slots)
    (place : index + slots.length < 2 ^ 16) :
    ∃ scan' after, walkRead (slots ++ tail) index scan lfnBuf =
        walkRead tail (index + slots.length) scan' after ∧ scan'.ord = 0xFF := by
  have count := slotCount_le length
  generalize whole : slotCount lfn = ord at inside
  cases inside with
  | nil =>
    change 254 ≤ lfn.length at long
    have some : slotCount lfn = (lfn.length + 12) / 13 := rfl
    omega
  | cons slot others =>
    rename_i ord first slots
    rw [List.length_cons] at place
    obtain ⟨⟨nonzero, _⟩, _⟩ := slotNumber_spec (ord + 1 = slotCount lfn) ord (by omega)
    obtain ⟨after, failed⟩ := @Slot.notPicked lfn sum ord first lfnBuf slot present length long
      whole.symm
    obtain ⟨scan', last, run, spec⟩ := @walkRead_lost lfn sum ord (index + 1) slots tail
      ⟨0xFF, sum, index⟩ after others (by omega) length (by omega) rfl
    refine ⟨scan', last, ?_, spec⟩
    have turn := @Slot.readEntry_eq lfn sum ord index scan.lfnIdx first scan lfnBuf slot (by omega)
    rw [if_pos whole.symm] at turn
    dsimp only at turn
    rw [if_pos ⟨rfl, rfl⟩, failed, Option.map_some, if_neg Bool.false_ne_true] at turn
    rw [List.cons_append, walkRead, if_neg (slot.first ▸ nonzero), turn, Option.bind_some,
      if_neg Bool.false_ne_true, if_neg (by omega), run, List.length_cons, Nat.add_assoc,
      Nat.add_comm 1]

/-- The loop of `dir_read` stops at a live entry, and keeps the long name if it has all of it. -/
theorem walkRead_live (present : entry 0 ≠ 0) (live : Live entry) :
    walkRead (entry :: rest) index scan lfnBuf =
      some (some (entry, ⟨rest, index,
        if scan.ord ≠ 0 ∨ scan.sum ≠ sumSfn (entry.slice 0 11) then 0xFFFF else scan.lfnIdx⟩),
        lfnBuf) := by
  obtain ⟨deleted, dot, label, long⟩ := live
  have turn : readEntry lfnBuf entry (entryDir index scan.lfnIdx) scan =
      if scan.ord ≠ 0 ∨ scan.sum ≠ sumSfn (entry.slice 0 11) then
        some (true, { scan with lfnIdx := 0xFFFF }, lfnBuf)
      else some (true, scan, lfnBuf) := by
    have place : (entryDir index scan.lfnIdx).entry = 0 := rfl
    have attr : attributes entry (entryDir index scan.lfnIdx) = entry dirAttr &&& amMask := rfl
    rw [readEntry, place, attr, if_neg, if_neg long]
    rintro (same | same | same)
    · exact deleted same
    · exact dot same
    · exact absurd (same.symm.trans label) (by decide)
  rw [walkRead, if_neg present, turn]
  split_ifs <;> rfl

/-- The buffer holds the long name as a string. -/
theorem lfnOf_eq (present : ∀ w ∈ lfn, w ≠ 0) (fits : lfn.length < pickLimit)
    (holds : Holds lfn 0 lfnBuf) : lfnOf lfnBuf = lfn := by
  change lfn.length < 254 at fits
  have split : List.range (maxLfn + 1) =
      List.range' 0 lfn.length ++ lfn.length :: List.range' (lfn.length + 1)
        (255 - lfn.length) := by
    rw [← List.range'_succ, List.range_eq_range']
    have whole : maxLfn + 1 = lfn.length + (255 - lfn.length + 1) := by
      change 256 = _
      omega
    rw [whole, ← List.range'_append_1, Nat.zero_add]
  have name : (List.range' 0 lfn.length).map lfnBuf = lfn := by
    refine List.ext_getElem (by rw [List.length_map, List.length_range']) fun place _ inside => ?_
    rw [List.getElem_map, List.getElem_range', Nat.one_mul, Nat.zero_add,
      holds place (Nat.zero_le _) (Nat.le_of_lt inside), slotChar, if_neg (Nat.ne_of_lt inside),
      List.getD_eq_getElem _ _ inside]
  have terminator : lfnBuf lfn.length = 0 :=
    (holds _ (Nat.zero_le _) (Nat.le_refl _)).trans (if_pos rfl)
  rw [lfnOf, split, List.map_append, name, List.map_cons, terminator,
    List.takeWhile_append_of_pos fun w member => decide_eq_true (present w member),
    List.takeWhile_cons_of_neg (by decide), List.append_nil]

/-- The entries in front of a place: `dir_read` stops at the first live one, or comes to the
place. -/
theorem walkRead_append {before : List Buffer} {found : Option (Buffer × Walk)}
    {after : Nat → Nat} (present : ∀ entry ∈ before, entry 0 ≠ 0)
    (place : index + before.length < 2 ^ 16)
    (run : walkRead (before ++ tail) index scan lfnBuf = some (found, after)) :
    ((before.filter fun entry => Live entry) = [] ∧ ∃ scan' lfnBuf',
      walkRead tail (index + before.length) scan' lfnBuf' = some (found, after)) ∨
    ∃ entry walk behind, found = some (entry, walk) ∧ entry 0 ≠ 0 ∧
      walk.ahead = behind ++ tail ∧
      (before.filter fun entry => Live entry) = entry :: behind.filter (fun entry => Live entry) ∧
      (∀ entry ∈ behind, entry 0 ≠ 0) ∧ walk.index + 1 + behind.length = index + before.length := by
  induction before generalizing index scan lfnBuf with
  | nil => exact .inl ⟨rfl, scan, lfnBuf, run⟩
  | cons first behind inductionHypothesis =>
    obtain ⟨nonzero, others⟩ := List.forall_mem_cons.mp present
    rw [List.length_cons] at place ⊢
    rw [List.cons_append, walkRead, if_neg nonzero] at run
    obtain ⟨read, turn, goesOn⟩ := Option.bind_eq_some_iff.mp run
    have stops := readEntry_stops turn
    by_cases stop : read.1 = true
    · rw [if_pos stop] at goesOn
      obtain ⟨rfl, _⟩ := Prod.mk.inj (Option.some.inj goesOn)
      refine .inr ⟨first, _, behind, rfl, nonzero, rfl, ?_, others, by dsimp only; omega⟩
      exact List.filter_cons_of_pos (decide_eq_true (stops.mp stop))
    · have dead : ¬ decide (Live first) = true := fun live =>
        stop (stops.mpr (of_decide_eq_true live))
      rw [if_neg stop, if_neg (by omega)] at goesOn
      rw [List.filter_cons_of_neg (p := fun entry => decide (Live entry)) dead]
      obtain ⟨none, scan', lfnBuf', same⟩ | ⟨entry, walk, rest', found, some, ahead, filtered,
        some', count⟩ := inductionHypothesis others (by omega) goesOn
      · exact .inl ⟨none, scan', lfnBuf', by rwa [Nat.add_right_comm] at same⟩
      · exact .inr ⟨entry, walk, rest', found, some, ahead, filtered, some', by omega⟩

theorem getFileinfo_lfname (lfnBuf : Nat → Nat) (entry : Buffer) (index start : Nat) :
    (getFileinfo lfnBuf entry (entryDir index start)).lfname =
      if start = 0xFFFF then [] else shownLfn (lfnOf lfnBuf) := rfl

/-- What `dir_read` finds at the place, with the long name if it has at most 253 characters. -/
theorem walkRead_carries (long : LongName lfn) (carries : Carries lfn slots entry)
    (place : index + slots.length < 2 ^ 16) :
    ∃ start after, walkRead (slots ++ entry :: rest) index scan lfnBuf =
        some (some (entry, ⟨rest, index + slots.length, start⟩), after) ∧
      (getFileinfo after entry (entryDir (index + slots.length) start)).lfname =
        if lfn.length < pickLimit then oemName lfn else [] := by
  have some : 0 < slotCount lfn := by
    have nonempty := List.length_pos_iff.mpr long.nonempty
    rw [slotCount]
    omega
  by_cases fits : lfn.length < pickLimit
  · obtain ⟨scan', after, run, number, chksum, start, holds⟩ :=
      @walkRead_slots lfn (sumSfn (entry.slice 0 11)) (slotCount lfn) index slots (entry :: rest)
        scan lfnBuf long.present fits carries.slots (Nat.le_refl _) place
        (fun less => absurd less (Nat.lt_irrefl _)) some
    rw [run, walkRead_live carries.present carries.live, number, chksum,
      if_neg (not_or.mpr ⟨not_not.mpr rfl, not_not.mpr rfl⟩)]
    refine ⟨_, _, rfl, ?_⟩
    rw [getFileinfo_lfname, if_neg start, if_pos fits, lfnOf_eq long.present fits holds]
    exact shownLfn_eq long.coded (fits.trans (by decide))
  · obtain ⟨scan', after, run, lost⟩ :=
      @walkRead_slots_long lfn (sumSfn (entry.slice 0 11)) index slots (entry :: rest) scan lfnBuf
        long.present long.length (Nat.le_of_not_lt fits) carries.slots place
    rw [run, walkRead_live carries.present carries.live, lost, if_pos (.inl (by decide))]
    refine ⟨_, _, rfl, ?_⟩
    rw [getFileinfo_lfname, if_pos rfl, if_neg fits]

end Reading

/-! ### Storing the entries of a long name -/

/-- What is in the buffer when the entries are made: the name and its terminator. -/
def NameBuffer (lfn : List Nat) (lfnBuf : Nat → Nat) : Prop :=
  ∀ place ≤ lfn.length, lfnBuf place = slotChar lfn place

theorem oemToUnicode_lt : ∀ b < 0x100, oemToUnicode b < 0xFFFF := by decide +kernel

/-- The characters of a long name are neither fillers nor terminators. -/
theorem LongName.char_lt {lfn : List Nat} (long : LongName lfn) : ∀ w ∈ lfn, w < 0xFFFF :=
  fun w member => oemToUnicode_unicodeToOem (long.coded w member) ▸
    oemToUnicode_lt _ (unicodeToOem_lt w)

section Storing

variable {lfn : List Nat} {lfnBuf : Nat → Nat} {offsets : List Nat} {win : Buffer}
  {entry place i wc : Nat}

theorem slotChar_lt (long : LongName lfn) (place : Nat) : slotChar lfn place < 2 ^ 16 := by
  rw [slotChar]
  split_ifs
  · decide
  · by_cases inside : place < lfn.length
    · rw [List.getD_eq_getElem _ _ inside]
      exact (long.char_lt _ (List.getElem_mem inside)).trans (by decide)
    · rw [List.getD_eq_default _ _ (Nat.le_of_not_lt inside)]
      decide

theorem fitChars_of_outside {index : Nat}
    (outside : ∀ ofs ∈ offsets, index < entry + ofs ∨ entry + ofs + 2 ≤ index) :
    (fitChars lfnBuf entry offsets win i wc).1 index = win index := by
  induction offsets generalizing win i wc with
  | nil => rfl
  | cons ofs offsets inductionHypothesis =>
    obtain ⟨first, others⟩ := List.forall_mem_cons.mp outside
    exact (inductionHypothesis others).trans (Buffer.storeWord_of_outside _ first)

/-- The loop of `fit_lfn` stores the characters from a place on, by induction on the offsets. It is
behind the terminator, or still in the name. -/
theorem fitChars_spec (long : LongName lfn) (named : NameBuffer lfn lfnBuf)
    (apart : offsets.Pairwise fun first second => first + 2 ≤ second)
    (state : wc = 0xFFFF ∧ lfn.length < place ∨ wc ≠ 0xFFFF ∧ i = place ∧ place ≤ lfn.length) :
    (offsets.map fun ofs => (fitChars lfnBuf entry offsets win i wc).1.loadWord (entry + ofs)) =
        (List.range' place offsets.length).map (slotChar lfn) ∧
      ((fitChars lfnBuf entry offsets win i wc).2.2 = 0xFFFF ∧
          lfn.length < place + offsets.length ∨
        (fitChars lfnBuf entry offsets win i wc).2.2 ≠ 0xFFFF ∧
          (fitChars lfnBuf entry offsets win i wc).2.1 = place + offsets.length ∧
          place + offsets.length ≤ lfn.length) := by
  induction offsets generalizing win i wc place with
  | nil => exact ⟨rfl, state⟩
  | cons ofs offsets inductionHypothesis =>
    obtain ⟨behind, apart⟩ := List.pairwise_cons.mp apart
    have put : (if wc = 0xFFFF then wc else lfnBuf i) = slotChar lfn place := by
      rcases state with ⟨ended, past⟩ | ⟨goesOn, same, inside⟩
      · rw [if_pos ended, ended, slotChar_behind past]
      · rw [if_neg goesOn, same, named place inside]
    have next : (if slotChar lfn place = 0 then 0xFFFF else slotChar lfn place) = 0xFFFF ∧
          lfn.length < place + 1 ∨
        (if slotChar lfn place = 0 then 0xFFFF else slotChar lfn place) ≠ 0xFFFF ∧
          (if wc = 0xFFFF then i else i + 1) = place + 1 ∧ place + 1 ≤ lfn.length := by
      rcases Nat.lt_trichotomy place lfn.length with inside | last | past
      · obtain ⟨ended, past⟩ | ⟨goesOn, same, _⟩ := state
        · omega
        · have char : slotChar lfn place = lfn[place] := by
            rw [slotChar, if_neg (by omega), List.getD_eq_getElem _ _ inside]
          have low := long.char_lt _ (List.getElem_mem inside)
          have some := long.present _ (List.getElem_mem inside)
          refine .inr ⟨?_, by rw [if_neg goesOn, same], inside⟩
          rw [char, if_neg some]
          omega
      · exact .inl ⟨if_pos (if_pos last), by omega⟩
      · refine .inl ⟨?_, by omega⟩
        rw [slotChar_behind past]
        rfl
    obtain ⟨chars, final⟩ := @inductionHypothesis
      (win.storeWord (entry + ofs) (slotChar lfn place)) (place + 1)
      (if wc = 0xFFFF then i else i + 1)
      (if slotChar lfn place = 0 then 0xFFFF else slotChar lfn place) apart next
    rw [fitChars, put, List.length_cons, List.map_cons, List.range'_succ, List.map_cons, chars]
    refine ⟨congrArg (· :: _) ?_, ?_⟩
    · have word := (win.loadWord_storeWord (entry + ofs) (slotChar lfn place)).trans
        (Nat.mod_eq_of_lt (slotChar_lt long place))
      refine Eq.trans (Buffer.loadWord_congr ?_ ?_) word
      · exact fitChars_of_outside fun later member => by have := behind later member; omega
      · exact fitChars_of_outside fun later member => by have := behind later member; omega
    · rwa [Nat.add_assoc, Nat.add_comm 1] at final

/-- What `fit_lfn` stores is an entry of the long name in the buffer. -/
theorem fitLfn_slot {ord : Nat} {sum : UInt8} (long : LongName lfn) (named : NameBuffer lfn lfnBuf)
    (few : ord + 1 ≤ slotCount lfn) : Slot lfn sum (ord + 1)
    (fitLfn lfnBuf win 0 (ord + 1) sum) := by
  have count : slotCount lfn = (lfn.length + 12) / 13 := rfl
  -- the fields in front of the characters
  let fields := (((win.store (0 + ldirChksum) sum).store (0 + dirAttr) amLfn).store (0 + ldirType)
    0).storeWord (0 + dirFstClusLo) 0
  let fitted := fitChars lfnBuf 0 lfnOfs fields ((ord + 1 - 1) * 13) 0
  have stored : fitLfn lfnBuf win 0 (ord + 1) sum = fitted.1.store 0
    (if fitted.2.2 = 0xFFFF ∨ lfnBuf fitted.2.1 = 0 then UInt8.ofNat (ord + 1) ||| 0x40
      else UInt8.ofNat (ord + 1)) := rfl
  obtain ⟨chars, final⟩ := @fitChars_spec lfn lfnBuf lfnOfs fields 0 ((ord + 1 - 1) * 13)
    ((ord + 1 - 1) * 13) 0 long named (by decide) (.inr ⟨by decide, rfl, by omega⟩)
  have outside : ∀ index, (∀ ofs ∈ lfnOfs, index < 0 + ofs ∨ 0 + ofs + 2 ≤ index) →
      fitted.1 index = fields index := fun index apart => fitChars_of_outside apart
  have thirteen : (ord + 1 - 1) * 13 + lfnOfs.length = (ord + 1) * 13 := by
    change (ord + 1 - 1) * 13 + 13 = _
    omega
  rw [thirteen] at final
  have attr : fields dirAttr = amLfn :=
    (Buffer.storeWord_of_outside _ (by decide)).trans
      ((Buffer.store_of_ne _ _ (by decide)).trans (Buffer.store_self _ _ _))
  have chksum : fields ldirChksum = sum :=
    (Buffer.storeWord_of_outside _ (by decide)).trans
      ((Buffer.store_of_ne _ _ (by decide)).trans
        ((Buffer.store_of_ne _ _ (by decide)).trans (Buffer.store_self _ _ _)))
  rw [stored]
  refine ⟨?_, ?_, ?_, ?_⟩
  · refine (Buffer.store_self _ _ _).trans (if_congr ?_ rfl rfl)
    obtain ⟨ended, past⟩ | ⟨goesOn, place, inside⟩ := final
    · exact iff_of_true (.inl ended) (by omega)
    · change fitted.2.1 = _ at place
      rw [or_iff_right goesOn, place, named _ inside]
      by_cases last : (ord + 1) * 13 = lfn.length
      · exact iff_of_true (if_pos last) (by omega)
      · exact iff_of_false (slotChar_ne_zero long.present last) (by omega)
  · rw [Buffer.store_of_ne _ _ (by decide), outside _ (by decide), attr]
    rfl
  · rw [Buffer.store_of_ne _ _ (by decide), outside _ (by decide), chksum]
  · refine Eq.trans (List.map_congr_left fun ofs member => ?_) chars
    have behind : ∀ ofs ∈ lfnOfs, ofs ≠ 0 := by decide
    have apart := behind ofs member
    rw [Buffer.loadWord_store_past _ _ (.inl (by omega)), Nat.zero_add]

/-- The entries that `dir_register` makes for a long name. -/
def storedSlots (lfn : List Nat) (sum : UInt8) : Nat → List Buffer
  | 0 => []
  | ord + 1 =>
    fitLfn (fun place => lfn.getD place 0) Buffer.zero 0 (ord + 1) sum :: storedSlots lfn sum ord

theorem storedSlots_slots {sum : UInt8} (long : LongName lfn) {ord : Nat}
    (few : ord ≤ slotCount lfn) : Slots lfn sum ord (storedSlots lfn sum ord) := by
  have named : NameBuffer lfn fun place => lfn.getD place 0 := by
    intro place inside
    change lfn.getD place 0 = slotChar lfn place
    rw [slotChar]
    split_ifs with last
    · rw [last, List.getD_eq_default _ _ (Nat.le_refl _)]
    · have less : place < lfn.length := Nat.lt_of_le_of_ne inside last
      rw [List.getD_eq_getElem _ _ less, List.getD_eq_getElem _ _ less]
  induction ord with
  | zero => exact .nil
  | succ ord inductionHypothesis =>
    exact .cons (fitLfn_slot long named few) (inductionHypothesis (Nat.le_of_succ_le few))

/-- An entry with its long name in front. -/
theorem carries_stored {lfn : List Nat} {entry : Buffer} (long : LongName lfn)
    (present : entry 0 ≠ 0) (live : Live entry) :
    Carries lfn (storedSlots lfn (sumSfn (entry.slice 0 11)) (slotCount lfn)) entry :=
  ⟨storedSlots_slots long (Nat.le_refl _), present, live⟩

end Storing

/-! ### The information on an entry of a volume -/

/-- The short entry of a file or directory. -/
structure ShortEntry (entry : DirEntry) (slot : Buffer) : Prop where
  sfn : slot.slice 0 11 = entry.sfn
  chars : ∀ c ∈ entry.sfn, c ≠ 0
  body : decide (slot dirNtres &&& 0x08 ≠ 0) = entry.body
  ext : decide (slot dirNtres &&& 0x10 ≠ 0) = entry.ext
  isDir : decide (slot dirAttr &&& amDir ≠ 0) = entry.isDir

theorem shownPart_ne_zero {lower : Bool} {bytes : List UInt8} (chars : ∀ c ∈ bytes, c ≠ 0) :
    ∀ c ∈ shownPart lower bytes, c ≠ 0 := by
  intro c member
  obtain ⟨original, taken, rfl⟩ := List.mem_map.mp member
  exact lowered_ne_zero (chars original ((List.takeWhile_prefix _).subset taken))

/-- `get_fileinfo` shows the short name as it is on the volume. -/
theorem getFileinfo_fname {entry : DirEntry} {slot : Buffer} (short : ShortEntry entry slot)
    (lfnBuf : Nat → Nat) (index start : Nat) :
    (getFileinfo lfnBuf slot (entryDir index start)).fname = (fileInfo entry).fname := by
  have shown : (getFileinfo lfnBuf slot (entryDir index start)).fname =
      (fileInfo entry).fname.takeWhile (· ≠ 0) := by
    have sfn : slot.slice (entryDir index start).entry 11 = entry.sfn := short.sfn
    dsimp only [fileInfo]
    rw [getFileinfo, if_neg (show ¬(entryDir index start).sect = 0 from Nat.one_ne_zero)]
    dsimp only
    rw [sfn, ← short.body, ← short.ext]
    rfl
  rw [shown]
  refine List.takeWhile_eq_self_iff.mpr fun c member => decide_eq_true ?_
  have body : ∀ c ∈ (entry.sfn.take 8).map fun c => if c = 0x05 then 0xe5 else c, c ≠ 0 := by
    intro c member
    obtain ⟨original, inside, rfl⟩ := List.mem_map.mp member
    have some := short.chars original (List.take_subset _ _ inside)
    split_ifs
    · decide
    · exact some
  rcases List.mem_append.mp member with inBody | inExt
  · exact shownPart_ne_zero body c inBody
  · split_ifs at inExt
    · cases inExt
    · rcases List.mem_cons.mp inExt with rfl | inside
      · decide
      · exact shownPart_ne_zero (fun c there => short.chars c (List.drop_subset _ _ there)) c inside

/-- The long name in the information on an entry. -/
theorem fileInfo_lfname {entry : DirEntry} (long : LongName entry.lfn) :
    (fileInfo entry).lfname = if entry.lfn.length < pickLimit then oemName entry.lfn else [] := by
  dsimp only [fileInfo]
  split_ifs with fits
  · exact shownLfn_eq long.coded (fits.trans (by decide))
  · rfl

/-- `f_readdir` in front of an entry with a long name shows what is known of it on the volume. -/
theorem walkReaddir_fileInfo {entry : DirEntry} {slots rest : List Buffer} {slot : Buffer}
    {index start : Nat} {lfnBuf : Nat → Nat} (long : LongName entry.lfn)
    (carries : Carries entry.lfn slots slot) (short : ShortEntry entry slot)
    (place : index + slots.length < 2 ^ 16) :
    (walkReaddir ⟨slots ++ slot :: rest, index, start⟩ lfnBuf).map (fun read => read.1.toFileInfo) =
      some (fileInfo entry) := by
  obtain ⟨lfnIdx, after, run, lfname⟩ := @walkRead_carries entry.lfn index slot slots rest
    ⟨0xFF, 0xFF, start⟩ lfnBuf long carries place
  have fname := getFileinfo_fname short after (index + slots.length) lfnIdx
  have isDir : (getFileinfo after slot (entryDir (index + slots.length) lfnIdx)).isDir =
      (fileInfo entry).isDir := short.isDir
  rw [← fileInfo_lfname long] at lfname
  have same : (getFileinfo after slot (entryDir (index + slots.length) lfnIdx)).toFileInfo =
      fileInfo entry := by
    change FileInfo.mk (getFileinfo after slot (entryDir (index + slots.length) lfnIdx)).fname
      (getFileinfo after slot (entryDir (index + slots.length) lfnIdx)).lfname
      (getFileinfo after slot (entryDir (index + slots.length) lfnIdx)).isDir = _
    rw [fname, lfname, isDir]
  rw [walkReaddir, run, Option.map_some, Option.map_some, same]

/-! ### Walking over a table -/

/-- A short name is shown with twelve characters at most. -/
theorem length_getFileinfo_fname_le (lfnBuf : Nat → Nat) (entry : Buffer) (dj : Dir) :
    (getFileinfo lfnBuf entry dj).fname.length ≤ 12 := by
  rw [getFileinfo]
  split
  · exact Nat.zero_le _
  · have body := length_shownPart_le (entry (dj.entry + dirNtres) &&& 0x08 ≠ 0)
      (((entry.slice dj.entry 11).take 8).map fun c => if c = 0x05 then 0xE5 else c)
    have ext := length_shownPart_le (entry (dj.entry + dirNtres) &&& 0x10 ≠ 0)
      ((entry.slice dj.entry 11).drop 8)
    rw [List.length_map, List.length_take, Buffer.slice_length] at body
    rw [List.length_drop, Buffer.slice_length] at ext
    dsimp only
    refine (List.takeWhile_prefix _).length_le.trans ?_
    rw [List.length_append]
    split_ifs
    · rw [List.length_nil]
      omega
    · rw [List.length_cons]
      omega

section Walking

variable {lfn : List Nat} {slots before rest : List Buffer} {entry : Buffer}
  {tables : FatPath → List Buffer} {calls : TableCalls} {start finish : TableState}
  {walk next : Walk} {infos : List FileInfo}

/-- A call of `f_readdir` in front of an entry with a long name: it shows that entry, or another
live one before it. -/
theorem walkReaddir_carries {lfnBuf after : Nat → Nat} {info : Filinfo} (long : LongName lfn)
    (carries : Carries lfn slots entry) (present : ∀ entry ∈ before, entry 0 ≠ 0)
    (place : walk.index + before.length + slots.length < 2 ^ 16)
    (ahead : walk.ahead = before ++ (slots ++ entry :: rest))
    (run : walkReaddir walk lfnBuf = some (info, next, after)) :
    ((before.filter fun entry => Live entry) = [] ∧ (info.fname = [] ↔ Blank entry) ∧
      info.fname.length ≤ 12 ∧ info.lfname = if lfn.length < pickLimit then oemName lfn else []) ∨
    ∃ first behind, (info.fname = [] ↔ Blank first) ∧
      (before.filter fun entry => Live entry) = first :: behind.filter (fun entry => Live entry) ∧
      (∀ entry ∈ behind, entry 0 ≠ 0) ∧ next.ahead = behind ++ (slots ++ entry :: rest) ∧
      next.index + behind.length = walk.index + before.length := by
  obtain ⟨⟨found, buffer⟩, read, same⟩ := Option.map_eq_some_iff.mp run
  rw [ahead] at read
  obtain ⟨none, scan, lfnBuf', read⟩ | ⟨first, stop, behind, rfl, nonzero, aheadStop, filtered,
    others, count⟩ := walkRead_append present (by omega) read
  · obtain ⟨lfnIdx, last, at', shown⟩ := @walkRead_carries lfn (walk.index + before.length) entry
      slots rest scan lfnBuf' long carries place
    obtain ⟨rfl, rfl⟩ := Prod.mk.inj (Option.some.inj (at'.symm.trans read))
    obtain ⟨rfl, _⟩ := Prod.mk.inj same
    exact .inl ⟨none, getFileinfo_fname_eq_nil carries.present, length_getFileinfo_fname_le _ _ _,
      shown⟩
  · obtain ⟨rfl, rest'⟩ := Prod.mk.inj same
    obtain ⟨rfl, _⟩ := Prod.mk.inj rest'
    refine .inr ⟨first, behind, getFileinfo_fname_eq_nil nonzero, filtered, others, ?_, count⟩
    exact (if_neg (by omega)).trans aheadStop

/-- The live entries up to an entry behind some others. -/
def liveUpTo (before : List Buffer) (entry : Buffer) : List Buffer :=
  (before.filter fun entry => Live entry) ++ [entry]

/-- What a loop over `f_readdir` gets for an entry with a long name, by induction on the calls. It
gets something unless the loop stops at a blank name. -/
theorem Readings.long (readings : Readings tables calls walk infos) (long : LongName lfn)
    (carries : Carries lfn slots entry) (present : ∀ entry ∈ before, entry 0 ≠ 0)
    (place : walk.index + before.length + slots.length < 2 ^ 16)
    (ahead : walk.ahead = before ++ (slots ++ entry :: rest)) :
    (∀ info ∈ infos[(before.filter fun entry => Live entry).length]?,
      info.fname.length ≤ 12 ∧ info.lfname = if lfn.length < pickLimit then oemName lfn else []) ∧
    ((∃ info, infos[(before.filter fun entry => Live entry).length]? = some info) ↔
      ∀ live ∈ liveUpTo before entry, ¬Blank live) := by
  induction readings generalizing before with
  | ended reading =>
    obtain ⟨info, after, run, none⟩ := tableReaddir_ok reading
    have nameless : info.fname = [] := by
      by_contra named
      rw [if_neg named] at none
      cases none
    refine ⟨fun _ none => absurd none (by simp), iff_of_false (fun some => ?_) fun named => ?_⟩
    · obtain ⟨_, some⟩ := some
      exact absurd some (by simp)
    · rw [liveUpTo] at named
      obtain ⟨filtered, blank, _⟩ | ⟨first, behind, blank, filtered, _⟩ :=
        walkReaddir_carries long carries present place ahead run
      · rw [filtered] at named
        exact named entry List.mem_cons_self (blank.mp nameless)
      · rw [filtered] at named
        exact named first List.mem_cons_self (blank.mp nameless)
  | next reading _ inductionHypothesis =>
    obtain ⟨shown, after, run, some⟩ := tableReaddir_ok reading
    have named : shown.fname ≠ [] := fun nameless => by
      rw [if_pos nameless] at some
      cases some
    rw [if_neg named] at some
    obtain rfl := Option.some.inj some
    rw [liveUpTo]
    obtain ⟨filtered, blank, length, lfname⟩ | ⟨first, behind, blank, filtered, others, ahead',
      count⟩ := walkReaddir_carries long carries present place ahead run
    · rw [filtered]
      refine ⟨fun info here => ?_, iff_of_true ⟨_, rfl⟩ fun live member => ?_⟩
      · obtain rfl := Option.some.inj here
        exact ⟨length, lfname⟩
      · rw [List.mem_singleton.mp member]
        exact mt blank.mpr named
    · obtain ⟨shows, reached⟩ := inductionHypothesis others (by omega) ahead'
      rw [filtered, List.length_cons, List.getElem?_cons_succ, List.cons_append,
        List.forall_mem_cons]
      exact ⟨shows, reached.trans (and_iff_right (mt blank.mpr named)).symm⟩

/-- A name with a long one is shown as that one exactly if it has at most 253 characters. -/
theorem name_eq_oemName_iff {info : FileInfo} (long : LongName lfn)
    (short : info.fname.length ≤ 12)
    (lfname : info.lfname = if lfn.length < pickLimit then oemName lfn else []) :
    info.name = oemName lfn ↔ lfn.length ≤ 253 := by
  rw [FileInfo.name, lfname]
  by_cases fits : lfn.length < pickLimit
  · rw [if_pos fits, if_pos (oemName_ne_nil long)]
    exact iff_of_true rfl (Nat.le_of_lt_succ fits)
  · change ¬ lfn.length < 254 at fits
    rw [if_neg (show ¬ lfn.length < pickLimit from fits), if_neg (not_not.mpr rfl)]
    refine iff_of_false (fun same => ?_) (by omega)
    rw [same, length_oemName] at short
    omega

/-- So a loop gets the long name exactly if it has at most 253 characters and no blank name stops
the loop before. -/
theorem Readings.name_iff (readings : Readings tables calls
    ⟨before ++ (slots ++ entry :: rest), 0, 0⟩ infos) (long : LongName lfn)
      (carries : Carries lfn slots entry)
    (present : ∀ entry ∈ before, entry 0 ≠ 0) (place : before.length + slots.length < 2 ^ 16) :
    (infos[(before.filter fun entry => Live entry).length]?).map FileInfo.name =
        some (oemName lfn) ↔
      lfn.length ≤ 253 ∧ ∀ live ∈ liveUpTo before entry, ¬Blank live := by
  obtain ⟨shows, reached⟩ := readings.long long carries present
    (by dsimp only; omega) rfl
  rw [← reached]
  constructor
  · intro named
    obtain ⟨info, here, same⟩ := Option.map_eq_some_iff.mp named
    obtain ⟨short, lfname⟩ := shows info here
    exact ⟨(name_eq_oemName_iff long short lfname).mp same, info, here⟩
  · rintro ⟨fits, info, here⟩
    obtain ⟨short, lfname⟩ := shows info here
    rw [here, Option.map_some, (name_eq_oemName_iff long short lfname).mpr fits]

end Walking

end Hdfmonkey
