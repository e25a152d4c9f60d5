/-
This file models how the commands walk over a directory: `dir_read`, `f_readdir` and
`get_fileinfo` over the entries of a table, and the loops of `ls` and `copy_dir` over
`f_readdir`.

A table is a list of entries of 32 bytes, whatever they hold; where its bytes lie does
not matter here. A directory object is known by the entries that are ahead of it: none
are once its sector is zero. The index number has 16 bits, and the table ends where it
would wrap around.
-/

import Hdfmonkey.FatDir
import Hdfmonkey.CopyDir

namespace Hdfmonkey

open Ff

/-! ### Reading a table -/

/-- `DIR`, over a table: the entries ahead, the index number of the first of them, and where the
long name started. -/
structure Walk where
  ahead : List Buffer
  index : Nat
  lfnIdx : Nat

/-- There is nothing ahead of an index number that does not exist. -/
def Walk.Proper (walk : Walk) : Prop := walk.index < 2 ^ 16 ∨ walk.ahead = []

/-- The object that looks at an entry in a buffer of its own. -/
def entryDir (index lfnIdx : Nat) : Dir :=
  { Dir.blank 0 with index, lfnIdx, sect := 1, dir := some 0 }

/-- The entries behind the current one: none if the index number wraps around. -/
def entriesBehind (index : Nat) (rest : List Buffer) : List Buffer :=
  if (index + 1) % 2 ^ 16 = 0 then [] else rest

/-- The loop of `dir_read`: the object at the entry it stops at, if it does, and the buffer for long
names. A run that leaves the buffer has no outcome. -/
def walkRead : (ahead : List Buffer) → (index : Nat) → Scan → (lfnBuf : Nat → Nat) →
    Option (Option (Buffer × Walk) × (Nat → Nat))
  | [], _, _, lfnBuf => some (none, lfnBuf)
  | entry :: rest, index, scan, lfnBuf =>
    if entry 0 = 0 then some (none, lfnBuf)
    else
      (readEntry lfnBuf entry (entryDir index scan.lfnIdx) scan).bind fun read =>
        if read.1 then some (some (entry, ⟨rest, index, read.2.1.lfnIdx⟩), read.2.2)
        else if (index + 1) % 2 ^ 16 = 0 then some (none, read.2.2)
        else walkRead rest (index + 1) read.2.1 read.2.2

/-- `f_readdir`: the information, the object behind the entry, and the buffer. -/
def walkReaddir (walk : Walk) (lfnBuf : Nat → Nat) : Option (Filinfo × Walk × (Nat → Nat)) :=
  (walkRead walk.ahead walk.index ⟨0xFF, 0xFF, walk.lfnIdx⟩ lfnBuf).map fun read =>
    match read.1 with
    | none => (⟨⟨[], [], false⟩, 0⟩, { walk with ahead := [] }, read.2)
    | some (entry, found) =>
      (getFileinfo read.2 entry (entryDir found.index found.lfnIdx),
        { found with ahead := entriesBehind found.index found.ahead, index := found.index + 1 },
        read.2)

/-! ### What is there to be seen -/

/-- An entry that `f_readdir` is meant to report: it is not deleted, does not start with a dot, and
is no volume label and no part of a long name. -/
def Live (entry : Buffer) : Prop :=
  entry 0 ≠ 0xE5 ∧ entry 0 ≠ 0x2e ∧ isLabel (entry dirAttr &&& amMask) = false ∧
    entry dirAttr &&& amMask ≠ amLfn

instance (entry : Buffer) : Decidable (Live entry) :=
  inferInstanceAs (Decidable (_ ∧ _ ∧ _ ∧ _))

/-- The entries before the end of the table: up to the first zero byte, and up to the last index
number. -/
def beforeEnd (index : Nat) (ahead : List Buffer) : List Buffer :=
  (ahead.take (2 ^ 16 - index)).takeWhile fun entry => entry 0 ≠ 0

/-- The live entries before the end of the table. -/
def liveEntries (index : Nat) (ahead : List Buffer) : List Buffer :=
  (beforeEnd index ahead).filter fun entry => Live entry

/-- The short name of the entry is all blanks, in its body and in its extension. -/
def Blank (entry : Buffer) : Prop := entry 0 = 0x20 ∧ entry 8 = 0x20

instance (entry : Buffer) : Decidable (Blank entry) := inferInstanceAs (Decidable (_ ∧ _))

/-- The information is what `get_fileinfo` makes of the entry. -/
def Describes (entry : Buffer) (info : FileInfo) : Prop :=
  ∃ lfnBuf index lfnIdx, info = (getFileinfo lfnBuf entry (entryDir index lfnIdx)).toFileInfo

/-- The information is all that `get_fileinfo` makes of the entry. -/
def Lists (entry : Buffer) (info : Filinfo) : Prop :=
  ∃ lfnBuf index lfnIdx, info = getFileinfo lfnBuf entry (entryDir index lfnIdx)

theorem Lists.describes {entry : Buffer} {info : Filinfo} (lists : Lists entry info) :
    Describes entry info.toFileInfo := by
  obtain ⟨lfnBuf, index, lfnIdx, rfl⟩ := lists
  exact ⟨lfnBuf, index, lfnIdx, rfl⟩

section Reading

variable {entry : Buffer} {rest ahead : List Buffer} {index lfnIdx : Nat} {scan : Scan}
  {lfnBuf after : Nat → Nat}

/-- The loop of `dir_read` stops at a live entry and at no other. -/
theorem readEntry_stops {read : Bool × Scan × (Nat → Nat)}
    (run : readEntry lfnBuf entry (entryDir index lfnIdx) scan = some read) :
    read.1 = true ↔ Live entry := by
  unfold readEntry at run
  change (if entry 0 = 0xE5 ∨ entry 0 = 0x2e ∨ isLabel (entry (0 + dirAttr) &&& amMask) =
    true then _ else _) = _ at run
  rw [Nat.zero_add] at run
  by_cases invalid : entry 0 = 0xE5 ∨ entry 0 = 0x2e ∨ isLabel (entry dirAttr &&& amMask) = true
  · rw [if_pos invalid] at run
    obtain rfl := Option.some.inj run
    refine iff_of_false (by simp) fun live => ?_
    rcases invalid with deleted | dot | label
    · exact live.1 deleted
    · exact live.2.1 dot
    · exact absurd (label.symm.trans live.2.2.1) (by decide)
  · rw [if_neg invalid] at run
    obtain ⟨deleted, dot, label⟩ : entry 0 ≠ 0xE5 ∧ entry 0 ≠ 0x2e ∧
        ¬isLabel (entry dirAttr &&& amMask) = true := by
      simpa only [not_or] using invalid
    by_cases long : entry dirAttr &&& amMask = amLfn
    · refine iff_of_false ?_ fun live => live.2.2.2 long
      rw [if_pos (show attributes entry (entryDir index lfnIdx) = amLfn from long)] at run
      dsimp only at run
      split_ifs at run
      · obtain ⟨_, _, rfl⟩ := Option.map_eq_some_iff.mp run
        exact Bool.false_ne_true
      · obtain rfl := Option.some.inj run
        exact Bool.false_ne_true
    · refine iff_of_true ?_ ⟨deleted, dot, Bool.eq_false_iff.mpr label, long⟩
      rw [if_neg (show ¬attributes entry (entryDir index lfnIdx) = amLfn from long)] at run
      split_ifs at run
      · obtain rfl := Option.some.inj run
        rfl
      · obtain rfl := Option.some.inj run
        rfl

theorem lowered_ne_zero {lower : Bool} {c : UInt8} (some : c ≠ 0) :
    (if lower ∧ 0x41 ≤ c ∧ c ≤ 0x5a then c + 0x20 else c) ≠ 0 := by
  split_ifs with letter
  · intro same
    have sum := congrArg UInt8.toNat same
    have above := UInt8.le_iff_toNat_le.mp letter.2.1
    have below := UInt8.le_iff_toNat_le.mp letter.2.2
    rw [UInt8.toNat_add] at sum
    change (c.toNat + 32) % 256 = 0 at sum
    change 65 ≤ c.toNat at above
    change c.toNat ≤ 90 at below
    omega
  · exact some

/-- The short name that is shown is empty for a blank name and for no other. -/
theorem getFileinfo_fname_eq_nil (present : entry 0 ≠ 0) :
    (getFileinfo lfnBuf entry (entryDir index lfnIdx)).fname = [] ↔ Blank entry := by
  have sfn : entry.slice 0 11 = entry 0 :: (entry.slice 1 7 ++ entry 8 :: entry.slice 9 2) := rfl
  have eighth : (entry.slice 0 11)[8]? = some (entry 8) := rfl
  unfold getFileinfo
  rw [if_neg (show ¬(entryDir index lfnIdx).sect = 0 from Nat.one_ne_zero)]
  change List.takeWhile (· ≠ 0) (shownPart _ ((List.take 8 (entry.slice 0 11)).map _) ++
    if (entry.slice 0 11)[8]? = some 0x20 then [] else _) = [] ↔ _
  rw [eighth, sfn, List.take_succ_cons, List.map_cons, shownPart, Blank]
  by_cases padded : entry 0 = 0x20
  · rw [padded, if_neg (by decide), List.takeWhile_cons_of_neg (by decide), List.map_nil,
      List.nil_append]
    by_cases blank : entry 8 = 0x20
    · rw [blank, if_pos rfl]
      exact iff_of_true rfl ⟨rfl, rfl⟩
    · rw [if_neg fun same => blank (Option.some.inj same),
        List.takeWhile_cons_of_pos (by decide)]
      exact iff_of_false (List.cons_ne_nil _ _) fun both => blank both.2
  · refine iff_of_false ?_ fun both => padded both.1
    have letter : (if entry 0 = 0x05 then (0xE5 : UInt8) else entry 0) ≠ 0x20 := by
      split_ifs
      · decide
      · exact padded
    have some : (if entry 0 = 0x05 then (0xE5 : UInt8) else entry 0) ≠ 0 := by
      split_ifs
      · decide
      · exact present
    rw [List.takeWhile_cons_of_pos (by simpa using letter), List.map_cons, List.cons_append,
      List.takeWhile_cons_of_pos ?_]
    · exact List.cons_ne_nil _ _
    · exact decide_eq_true (lowered_ne_zero some)

theorem beforeEnd_cons (present : entry 0 ≠ 0) (inside : index < 2 ^ 16) :
    beforeEnd index (entry :: rest) = entry :: beforeEnd (index + 1) rest := by
  obtain ⟨left, count⟩ : ∃ left, 2 ^ 16 - index = left + 1 := ⟨2 ^ 16 - index - 1, by omega⟩
  have behind : 2 ^ 16 - (index + 1) = left := by omega
  rw [beforeEnd, beforeEnd, count, behind, List.take_succ_cons,
    List.takeWhile_cons_of_pos (by simpa using present)]

theorem liveEntries_cons (present : entry 0 ≠ 0) (inside : index < 2 ^ 16) :
    liveEntries index (entry :: rest) =
      (if Live entry then [entry] else []) ++ liveEntries (index + 1) rest := by
  rw [liveEntries, liveEntries, beforeEnd_cons present inside]
  split_ifs with live
  · rw [List.filter_cons_of_pos (by simpa using live)]
    rfl
  · rw [List.filter_cons_of_neg (by simpa using live)]
    rfl

/-- Behind the last index number there is nothing. -/
theorem beforeEnd_entriesBehind (inside : index < 2 ^ 16) :
    beforeEnd (index + 1) (entriesBehind index rest) = beforeEnd (index + 1) rest := by
  rw [entriesBehind]
  split_ifs with wrapped
  · have last : 2 ^ 16 - (index + 1) = 0 := by omega
    rw [beforeEnd, beforeEnd, last, List.take_zero, List.take_zero]
  · rfl

theorem liveEntries_entriesBehind (inside : index < 2 ^ 16) :
    liveEntries (index + 1) (entriesBehind index rest) = liveEntries (index + 1) rest := by
  rw [liveEntries, liveEntries, beforeEnd_entriesBehind inside]

/-- What `dir_read` finds is the first live entry, by induction on the entries ahead. -/
theorem walkRead_first {found : Option (Buffer × Walk)} (inside : index < 2 ^ 16)
    (run : walkRead ahead index scan lfnBuf = some (found, after)) :
    (found = none → liveEntries index ahead = []) ∧
      ∀ entry walk, found = some (entry, walk) → entry 0 ≠ 0 ∧ walk.index < 2 ^ 16 ∧
        liveEntries index ahead = entry :: liveEntries (walk.index + 1) walk.ahead := by
  induction ahead generalizing index scan lfnBuf with
  | nil =>
    obtain ⟨rfl, _⟩ := Prod.mk.inj (Option.some.inj run)
    refine ⟨fun _ => ?_, fun _ _ none => absurd none (by simp)⟩
    rw [liveEntries, beforeEnd, List.take_nil]
    rfl
  | cons entry rest inductionHypothesis =>
    rw [walkRead] at run
    by_cases ended : entry 0 = 0
    · rw [if_pos ended] at run
      obtain ⟨rfl, _⟩ := Prod.mk.inj (Option.some.inj run)
      obtain ⟨left, count⟩ : ∃ left, 2 ^ 16 - index = left + 1 := ⟨2 ^ 16 - index - 1, by omega⟩
      refine ⟨fun _ => ?_, fun _ _ none => absurd none (by simp)⟩
      rw [liveEntries, beforeEnd, count, List.take_succ_cons,
        List.takeWhile_cons_of_neg (by simpa using ended)]
      rfl
    · rw [if_neg ended] at run
      obtain ⟨read, turn, goesOn⟩ := Option.bind_eq_some_iff.mp run
      have stops := readEntry_stops turn
      have split := @liveEntries_cons entry rest index ended inside
      by_cases stop : read.1 = true
      · rw [if_pos stop] at goesOn
        obtain ⟨rfl, _⟩ := Prod.mk.inj (Option.some.inj goesOn)
        rw [if_pos (stops.mp stop)] at split
        refine ⟨fun none => absurd none (by simp), fun _ _ same => ?_⟩
        obtain ⟨rfl, rfl⟩ := Prod.mk.inj (Option.some.inj same)
        exact ⟨ended, inside, split⟩
      · rw [if_neg stop] at goesOn
        rw [if_neg fun live => stop (stops.mpr live), List.nil_append] at split
        rw [split]
        by_cases wrapped : (index + 1) % 2 ^ 16 = 0
        · rw [if_pos wrapped] at goesOn
          obtain ⟨rfl, _⟩ := Prod.mk.inj (Option.some.inj goesOn)
          have last : 2 ^ 16 - (index + 1) = 0 := by omega
          refine ⟨fun _ => ?_, fun _ _ none => absurd none (by simp)⟩
          rw [liveEntries, beforeEnd, last, List.take_zero]
          rfl
        · rw [if_neg wrapped] at goesOn
          exact inductionHypothesis (by omega) goesOn

/-- What `f_readdir` shows is the first live entry, unless its short name is blank. -/
theorem walkReaddir_first {walk next : Walk} {info : Filinfo} (proper : walk.Proper)
    (run : walkReaddir walk lfnBuf = some (info, next, after)) :
    next.Proper ∧
      ((liveEntries walk.index walk.ahead = [] ∧ info.fname = []) ∨
        ∃ entry, Lists entry info ∧ (info.fname = [] ↔ Blank entry) ∧
          liveEntries walk.index walk.ahead = entry :: liveEntries next.index next.ahead) := by
  obtain ⟨⟨found, buffer⟩, read, same⟩ := Option.map_eq_some_iff.mp run
  rcases proper with inside | none
  · obtain ⟨ended, stopped⟩ := walkRead_first inside read
    cases found with
    | none =>
      obtain ⟨rfl, rest⟩ := Prod.mk.inj same
      obtain ⟨rfl, rfl⟩ := Prod.mk.inj rest
      exact ⟨.inr rfl, .inl ⟨ended rfl, rfl⟩⟩
    | some stop =>
      obtain ⟨entry, at'⟩ := stop
      obtain ⟨rfl, rest⟩ := Prod.mk.inj same
      obtain ⟨rfl, rfl⟩ := Prod.mk.inj rest
      obtain ⟨present, inside, first⟩ := stopped entry at' rfl
      refine ⟨?_, .inr ⟨entry, ⟨_, _, _, rfl⟩, getFileinfo_fname_eq_nil present, ?_⟩⟩
      · by_cases last : at'.index + 1 < 2 ^ 16
        · exact .inl last
        · refine .inr (if_pos ?_)
          omega
      · rw [first]
        exact congrArg (entry :: ·) (liveEntries_entriesBehind inside).symm
  · rw [none, walkRead] at read
    obtain ⟨rfl, _⟩ := Prod.mk.inj (Option.some.inj read)
    obtain ⟨rfl, rest⟩ := Prod.mk.inj same
    obtain ⟨rfl, rfl⟩ := Prod.mk.inj rest
    refine ⟨.inr rfl, .inl ⟨?_, rfl⟩⟩
    rw [none, liveEntries, beforeEnd, List.take_nil]
    rfl

end Reading

end Hdfmonkey
