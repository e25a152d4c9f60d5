/-
This file says when the loop of `dir_read` stays in the buffer for long names.

`pick_lfn` takes the low bits of the first byte of an entry for the number of its part, and
writes in front of the buffer if they are zero. The loop calls it for an entry that begins
a long name and for one that goes on with the part before it. So it is up to the table alone
whether a walk over it has an outcome, and not to what was in the buffer.
-/

import Hdfmonkey.DirTable

namespace Hdfmonkey

open Ff

/-- An entry that holds a part of a long name. -/
def Fragment (entry : Buffer) : Prop :=
  entry 0 ≠ 0xE5 ∧ entry 0 ≠ 0x2e ∧ entry dirAttr &&& amMask = amLfn

/-- The characters of the part fit in the buffer, with fillers only behind the terminator. -/
def Picked (entry : Buffer) : Prop := ∃ lfnBuf after, pickLfn lfnBuf entry 0 = some (true, after)

/-- The entries that were passed, the last of them first, end with parts of a long name that belong
together: they have one check sum, and their numbers count down from the part that is marked. -/
def Counted : (passed : List Buffer) → (ord sum : UInt8) → Prop
  | [], _, _ => False
  | entry :: passed, ord, sum =>
    Fragment entry ∧ Picked entry ∧ ord = lfnOrd (entry 0) ∧ sum = entry ldirChksum ∧
      (entry 0 &&& 0x40 = 0 → Counted passed (entry 0 + 1) sum)

/-- A part with the number zero that begins a long name, or goes on with the parts in front. -/
def Stray (passed : List Buffer) (entry : Buffer) : Prop :=
  Fragment entry ∧ entry 0 &&& 0x3F = 0 ∧
    (entry 0 &&& 0x40 = 0 → Counted passed (entry 0 + 1) (entry ldirChksum))

/-- No entry before the end of the table is such a part. -/
def Readable (passed : List Buffer) (index : Nat) (ahead : List Buffer) : Prop :=
  ∀ front entry behind, beforeEnd index ahead = front ++ entry :: behind →
    ¬Stray (front.reverse ++ passed) entry

/-- What the loop knows of the entries it has passed: a part goes on with them exactly if it has the
number that is to come next and the check sum. -/
def Ff.Scan.Knows (scan : Scan) (passed : List Buffer) : Prop :=
  ∀ ord sum, ord &&& 0x40 = 0 → ((ord = scan.ord ∧ scan.sum = sum) ↔ Counted passed (ord + 1) sum)

section Parts

variable {entry : Buffer} {rest ahead passed : List Buffer} {index lfnIdx : Nat} {scan : Scan}
  {lfnBuf lfnBuf' after : Nat → Nat}

/-! ### One part -/

/-- Whether the characters fit does not depend on what is in the buffer. -/
theorem pickChars_same (chars : List Nat) (i wc : Nat) :
    (pickChars chars i wc lfnBuf').1 = (pickChars chars i wc lfnBuf).1 ∧
      (pickChars chars i wc lfnBuf').2.1 = (pickChars chars i wc lfnBuf).2.1 := by
  induction chars generalizing i wc lfnBuf lfnBuf' with
  | nil => exact ⟨rfl, rfl⟩
  | cons uc chars inductionHypothesis =>
    rw [pickChars, pickChars]
    split_ifs
    · exact ⟨rfl, rfl⟩
    · exact inductionHypothesis i wc
    · exact ⟨rfl, rfl⟩
    · exact inductionHypothesis (i + 1) uc

/-- The part is not picked at all if it has the number zero. -/
theorem pickLfn_eq_none : pickLfn lfnBuf entry 0 = none ↔ entry 0 &&& 0x3F = 0 := by
  rw [pickLfn]
  by_cases zero : entry 0 &&& 0x3F = 0
  · exact iff_of_true (if_pos zero) zero
  · refine iff_of_false (fun none => ?_) zero
    rw [if_neg zero] at none
    dsimp only at none
    split_ifs at none

theorem pickLfn_picked {good : Bool} (run : pickLfn lfnBuf entry 0 = some (good, after)) :
    good = true ↔ Picked entry := by
  refine ⟨fun same => ⟨lfnBuf, after, same ▸ run⟩, fun ⟨lfnBuf', after', run'⟩ => ?_⟩
  have number : ¬entry 0 &&& 0x3F = 0 := fun zero => by
    rw [pickLfn_eq_none.mpr zero] at run
    exact absurd run (by simp)
  obtain ⟨whole, place⟩ := @pickChars_same lfnBuf' lfnBuf
    (lfnOfs.map fun ofs => entry.loadWord (0 + ofs)) (((entry 0 &&& 0x3F).toNat - 1) * 13) 1
  rw [pickLfn, if_neg number] at run run'
  dsimp only at run run'
  rw [whole, place] at run
  split_ifs at run run' <;> simp_all

/-! ### A turn of the loop -/

theorem lfnOrd_unmarked (c : UInt8) : lfnOrd c &&& 0x40 = 0 := by
  rw [lfnOrd]
  split_ifs with unmarked
  · exact unmarked
  · rw [UInt8.and_assoc]
    exact UInt8.and_zero

/-- The sentinel is no number of a part that is not marked. -/
theorem ne_sentinel {ord : UInt8} (unmarked : ord &&& 0x40 = 0) : ord ≠ 0xFF := by
  rintro rfl
  exact absurd unmarked (by decide)

theorem Ff.Scan.knows_sentinel (none : ∀ ord sum, ¬Counted passed ord sum) {sum : UInt8} :
    Scan.Knows ⟨0xFF, sum, lfnIdx⟩ passed := fun _ _ unmarked =>
  iff_of_false (fun same => ne_sentinel unmarked same.1) (none _ _)

/-- A part continues the long name that the loop knows of, or it begins one. -/
theorem Ff.Scan.Knows.continues_iff (knows : scan.Knows passed) :
    (scan.start entry (entryDir index lfnIdx)).continues entry (entryDir index lfnIdx) = true ↔
      (entry 0 &&& 0x40 = 0 → Counted passed (entry 0 + 1) (entry ldirChksum)) := by
  have place : (entryDir index lfnIdx).entry = 0 := rfl
  rw [Scan.continues, Scan.start, place, Nat.zero_add, decide_eq_true_eq]
  by_cases unmarked : entry 0 &&& 0x40 = 0
  · rw [if_pos unmarked, lfnOrd, if_pos unmarked, knows _ _ unmarked]
    exact ⟨fun counted _ => counted, fun counted => counted unmarked⟩
  · rw [if_neg unmarked, lfnOrd, if_neg unmarked]
    exact iff_of_true ⟨rfl, rfl⟩ fun same => absurd same unmarked

theorem Ff.Scan.start_ord (continues :
    (scan.start entry (entryDir index lfnIdx)).continues entry (entryDir index lfnIdx) = true) :
    (scan.start entry (entryDir index lfnIdx)).ord = lfnOrd (entry 0) ∧
      (scan.start entry (entryDir index lfnIdx)).sum = entry ldirChksum := by
  have place : (entryDir index lfnIdx).entry = 0 := rfl
  rw [Scan.continues, place, Nat.zero_add, decide_eq_true_eq] at continues
  exact ⟨continues.1.symm, continues.2⟩

/-- A turn has an outcome unless the entry is a stray part. -/
theorem readEntry_iff (knows : scan.Knows passed) :
    (∃ read, readEntry lfnBuf entry (entryDir index lfnIdx) scan = some read) ↔
      ¬Stray passed entry := by
  have place : (entryDir index lfnIdx).entry = 0 := rfl
  have attr : attributes entry (entryDir index lfnIdx) = entry dirAttr &&& amMask := by
    rw [attributes, place, Nat.zero_add]
  have goesOn := @Scan.Knows.continues_iff entry passed index lfnIdx scan knows
  rw [readEntry, place, attr]
  dsimp only
  split_ifs with dead long continues
  · refine iff_of_true ⟨_, rfl⟩ fun ⟨⟨deleted, dot, part⟩, _⟩ => ?_
    rw [part] at dead
    simp [deleted, dot, isLabel] at dead
  · obtain ⟨deleted, dot, _⟩ := not_or.mp dead |>.imp_right not_or.mp
    constructor
    · rintro ⟨read, run⟩ ⟨_, zero, _⟩
      rw [pickLfn_eq_none.mpr zero] at run
      exact absurd run (by simp)
    · intro stays
      cases picked : pickLfn lfnBuf entry 0 with
      | none => exact absurd ⟨⟨deleted, dot, long⟩, pickLfn_eq_none.mp picked,
        goesOn.mp continues⟩ stays
      | some picked => exact ⟨_, rfl⟩
  · exact iff_of_true ⟨_, rfl⟩ fun stray => continues (goesOn.mpr stray.2.2)
  · exact iff_of_true ⟨_, rfl⟩ fun stray => long stray.1.2.2
  · exact iff_of_true ⟨_, rfl⟩ fun stray => long stray.1.2.2

/-- After a turn that goes on, the loop knows of the entry too. -/
theorem readEntry_knows {read : Bool × Scan × (Nat → Nat)} (knows : scan.Knows passed)
    (run : readEntry lfnBuf entry (entryDir index lfnIdx) scan = some read)
    (goesOn : ¬read.1 = true) : read.2.1.Knows (entry :: passed) := by
  have place : (entryDir index lfnIdx).entry = 0 := rfl
  have attr : attributes entry (entryDir index lfnIdx) = entry dirAttr &&& amMask := by
    rw [attributes, place, Nat.zero_add]
  have follows := @Scan.Knows.continues_iff entry passed index lfnIdx scan knows
  rw [readEntry, place, attr] at run
  dsimp only at run
  split_ifs at run with dead long continues
  · obtain rfl := Option.some.inj run
    refine Scan.knows_sentinel fun ord sum counted => ?_
    obtain ⟨⟨deleted, dot, part⟩, _⟩ := counted
    rw [part] at dead
    simp [deleted, dot, isLabel] at dead
  · obtain ⟨deleted, dot, _⟩ := not_or.mp dead |>.imp_right not_or.mp
    obtain ⟨⟨good, buffer⟩, picked, rfl⟩ := Option.map_eq_some_iff.mp run
    obtain ⟨number, check⟩ := Scan.start_ord continues
    have fits := pickLfn_picked picked
    intro ord sum unmarked
    dsimp only
    rw [number, check]
    cases good with
    | false =>
      refine iff_of_false (fun same => ne_sentinel unmarked same.1) fun counted => ?_
      exact absurd (fits.mpr counted.2.1) Bool.false_ne_true
    | true =>
      rw [if_pos rfl]
      constructor
      · rintro ⟨rfl, rfl⟩
        exact ⟨⟨deleted, dot, long⟩, fits.mp rfl, UInt8.sub_add_cancel _ _, rfl,
          follows.mp continues⟩
      · rintro ⟨_, _, same, rfl, _⟩
        exact ⟨by rw [← same, UInt8.add_sub_cancel], rfl⟩
  · obtain rfl := Option.some.inj run
    refine Scan.knows_sentinel fun ord sum counted => continues (follows.mpr fun unmarked => ?_)
    obtain ⟨_, _, _, rfl, before⟩ := counted
    exact before unmarked
  · exact absurd (congrArg Prod.fst (Option.some.inj run)).symm goesOn
  · exact absurd (congrArg Prod.fst (Option.some.inj run)).symm goesOn

/-! ### A walk -/

theorem readable_of_ended (ended : beforeEnd index ahead = []) : Readable passed index ahead :=
  fun _ _ _ split => absurd (ended.symm.trans split) (by simp)

theorem readable_cons (present : entry 0 ≠ 0) (inside : index < 2 ^ 16) :
    Readable passed index (entry :: rest) ↔
      ¬Stray passed entry ∧ Readable (entry :: passed) (index + 1) rest := by
  rw [Readable, beforeEnd_cons present inside]
  constructor
  · intro readable
    refine ⟨readable [] entry _ rfl, fun front other behind split => ?_⟩
    have turn := readable (entry :: front) other behind (by rw [split, List.cons_append])
    rwa [List.reverse_cons, List.append_assoc] at turn
  · rintro ⟨first, others⟩ front other behind split
    cases front with
    | nil =>
      obtain ⟨rfl, _⟩ := List.cons.inj split
      exact first
    | cons _ front =>
      obtain ⟨rfl, later⟩ := List.cons.inj split
      rw [List.reverse_cons, List.append_assoc]
      exact others front other behind later

/-- A live entry is no part of a long name. -/
theorem not_counted_of_live (live : Live entry) (ord sum : UInt8) :
    ¬Counted (entry :: passed) ord sum := fun counted => live.2.2.2 counted.1.2.2

/-- The loop of `dir_read` has an outcome if no part is a stray one; where it comes to the end there
was none, and where it stops there is none if there is none behind. By induction on the entries. -/
theorem walkRead_readable (knows : scan.Knows passed) (inside : index < 2 ^ 16) :
    (Readable passed index ahead → ∃ found after,
      walkRead ahead index scan lfnBuf = some (found, after)) ∧
    ∀ found after, walkRead ahead index scan lfnBuf = some (found, after) →
      (found = none → Readable passed index ahead) ∧
      ∀ entry walk, found = some (entry, walk) → ∃ front, (∀ ord sum, ¬Counted front ord sum) ∧
        (Readable passed index ahead ↔ Readable front (walk.index + 1) walk.ahead) := by
  induction ahead generalizing index scan lfnBuf passed with
  | nil =>
    have ended : beforeEnd index ([] : List Buffer) = [] := by rw [beforeEnd, List.take_nil]; rfl
    refine ⟨fun _ => ⟨none, lfnBuf, rfl⟩, fun found after run => ?_⟩
    obtain ⟨rfl, _⟩ := Prod.mk.inj (Option.some.inj run)
    exact ⟨fun _ => readable_of_ended ended, fun _ _ none => absurd none (by simp)⟩
  | cons entry rest inductionHypothesis =>
    rw [walkRead]
    by_cases ended : entry 0 = 0
    · rw [if_pos ended]
      refine ⟨fun _ => ⟨none, lfnBuf, rfl⟩, fun found after run => ?_⟩
      obtain ⟨rfl, _⟩ := Prod.mk.inj (Option.some.inj run)
      obtain ⟨left, count⟩ : ∃ left, 2 ^ 16 - index = left + 1 := ⟨2 ^ 16 - index - 1, by omega⟩
      refine ⟨fun _ => readable_of_ended ?_, fun _ _ none => absurd none (by simp)⟩
      rw [beforeEnd, count, List.take_succ_cons, List.takeWhile_cons_of_neg (by simpa using ended)]
    · rw [if_neg ended, readable_cons ended inside]
      have defined := @readEntry_iff entry passed index scan.lfnIdx scan lfnBuf knows
      cases turn : readEntry lfnBuf entry (entryDir index scan.lfnIdx) scan with
      | none =>
        rw [turn] at defined
        refine ⟨fun readable => ?_, fun _ _ run => absurd run (by simp)⟩
        obtain ⟨_, run⟩ := defined.mpr readable.1
        exact absurd run (by simp)
      | some read =>
        have stays := defined.mp ⟨read, turn⟩
        have stops := readEntry_stops turn
        rw [Option.bind_some, and_iff_right stays]
        by_cases stop : read.1 = true
        · rw [if_pos stop]
          refine ⟨fun _ => ⟨_, _, rfl⟩, fun found after run => ?_⟩
          obtain ⟨rfl, _⟩ := Prod.mk.inj (Option.some.inj run)
          refine ⟨fun none => absurd none (by simp), fun _ _ same => ?_⟩
          obtain ⟨rfl, rfl⟩ := Prod.mk.inj (Option.some.inj same)
          exact ⟨entry :: passed, not_counted_of_live (stops.mp stop), Iff.rfl⟩
        · rw [if_neg stop]
          by_cases wrapped : (index + 1) % 2 ^ 16 = 0
          · rw [if_pos wrapped]
            refine ⟨fun _ => ⟨_, _, rfl⟩, fun found after run => ?_⟩
            obtain ⟨rfl, _⟩ := Prod.mk.inj (Option.some.inj run)
            have last : 2 ^ 16 - (index + 1) = 0 := by omega
            refine ⟨fun _ => readable_of_ended ?_, fun _ _ none => absurd none (by simp)⟩
            rw [beforeEnd, last, List.take_zero]
            rfl
          · rw [if_neg wrapped]
            exact inductionHypothesis (readEntry_knows knows turn stop) (by omega)

/-- The same of `f_readdir`. -/
theorem walkReaddir_readable {walk : Walk} (proper : walk.Proper)
    (apart : ∀ ord sum, ¬Counted passed ord sum) :
    (Readable passed walk.index walk.ahead → ∃ info next after,
      walkReaddir walk lfnBuf = some (info, next, after)) ∧
    ∀ info next after, walkReaddir walk lfnBuf = some (info, next, after) →
      (liveEntries walk.index walk.ahead = [] → Readable passed walk.index walk.ahead) ∧
      (liveEntries walk.index walk.ahead ≠ [] → ∃ front, (∀ ord sum, ¬Counted front ord sum) ∧
        (Readable passed walk.index walk.ahead ↔ Readable front next.index next.ahead)) := by
  rcases proper with inside | none
  · have knows : Scan.Knows ⟨0xFF, 0xFF, walk.lfnIdx⟩ passed := Scan.knows_sentinel apart
    obtain ⟨defined, readable⟩ := @walkRead_readable walk.ahead passed walk.index _ lfnBuf
      knows inside
    refine ⟨fun all => ?_, fun info next after run => ?_⟩
    · obtain ⟨found, after, read⟩ := defined all
      rw [walkReaddir, read]
      exact ⟨_, _, _, rfl⟩
    · obtain ⟨⟨found, buffer⟩, read, same⟩ := Option.map_eq_some_iff.mp run
      obtain ⟨ended, stopped⟩ := readable found buffer read
      cases found with
      | none =>
        exact ⟨fun _ => ended rfl, fun some => absurd ((walkRead_first inside read).1 rfl) some⟩
      | some stop =>
        obtain ⟨entry, at'⟩ := stop
        obtain ⟨rfl, rest⟩ := Prod.mk.inj same
        obtain ⟨rfl, rfl⟩ := Prod.mk.inj rest
        obtain ⟨_, under, first⟩ := (walkRead_first inside read).2 entry at' rfl
        obtain ⟨front, apart', iff⟩ := stopped entry at' rfl
        refine ⟨fun none => absurd (none.symm.trans first) (List.cons_ne_nil _ _).symm,
          fun _ => ⟨front, apart', iff.trans ?_⟩⟩
        dsimp only
        rw [Readable, Readable, beforeEnd_entriesBehind under]
  · have ended : beforeEnd walk.index walk.ahead = [] := by
      rw [none, beforeEnd, List.take_nil]
      rfl
    have nothing : liveEntries walk.index walk.ahead = [] := by
      rw [liveEntries, ended]
      rfl
    refine ⟨fun _ => ?_, fun _ _ _ _ =>
      ⟨fun _ => readable_of_ended ended, fun some => absurd nothing some⟩⟩
    rw [walkReaddir, none]
    exact ⟨_, _, _, rfl⟩

end Parts

end Hdfmonkey
