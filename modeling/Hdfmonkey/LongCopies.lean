/-
This file proves when a copy keeps a long name.

The destination makes its entry from the name in the code page. Either it stores the long
name, which the code page gives back, or the name was one that a short name and its two
flags can stand for, and then these are shown as the same name again.
-/

import Hdfmonkey.LongNames
import Hdfmonkey.NameSlots

namespace Hdfmonkey

/-! ### Characters that a short name keeps -/

/-- A character that a short name has as it is, but for its case. -/
structure PlainChar (w : Nat) : Prop where
  visible : 0x20 < w
  ascii : w < 0x80
  noDot : w ≠ 0x2e
  legal : w ∉ illegalSfn

/-- The byte of a character in a short name. -/
def sfnByte (w : Nat) : UInt8 := UInt8.ofNat (if 0x61 ≤ w ∧ w ≤ 0x7a then w - 0x20 else w)

/-- The bit of a letter in the cases of its section. -/
def charBit (w : Nat) : Nat :=
  if 0x41 ≤ w ∧ w ≤ 0x5a then 2 else if 0x61 ≤ w ∧ w ≤ 0x7a then 1 else 0

/-- The cases of the letters of a section. -/
def sectionBits (chars : List Nat) : Nat := chars.foldr (fun w bits => charBit w ||| bits) 0

section Chars

variable {state : SfnState} {w : Nat} {chars lfn : List Nat} {di fuel si : Nat}

theorem put_eq (plain : PlainChar w) :
    state.put w = { state with
      fn := state.fn.set state.i (sfnByte w)
      i := state.i + 1
      b := state.b ||| charBit w } := by
  obtain ⟨visible, ascii, _, legal⟩ := plain
  have small : ¬ w ≥ 0x80 := by omega
  have fine : ¬ (w = 0 ∨ w ∈ illegalSfn) := not_or.mpr ⟨by omega, legal⟩
  simp only [SfnState.put, if_neg small, if_neg fine, charBit, sfnByte]
  split_ifs <;> simp only [Nat.or_zero]

/-- Only such a character needs no long name. -/
theorem plainChar_of_put (visible : 0x20 ≤ w) (blank : w ≠ 0x20) (noDot : w ≠ 0x2e)
    (short : (state.put w).long = false) : PlainChar w ∧ state.long = false := by
  by_cases ascii : w < 0x80
  · have small : ¬ w ≥ 0x80 := by omega
    rw [SfnState.put, if_neg small] at short
    dsimp only at short
    rw [if_neg small] at short
    by_cases lossy : w = 0 ∨ w ∈ illegalSfn
    · rw [if_pos lossy] at short
      cases short
    · rw [if_neg lossy] at short
      exact ⟨⟨by omega, ascii, noDot, (not_or.mp lossy).2⟩, short⟩
  · have long : (state.put w).long = true := by
      simp only [SfnState.put, if_pos (show w ≥ 0x80 by omega)]
      split_ifs <;> rfl
    exact absurd (short.symm.trans long) Bool.false_ne_true

theorem put_stays_long (long : state.long = true) : (state.put w).long = true := by
  rw [SfnState.put]
  dsimp only
  split_ifs
  all_goals first | rfl | exact long

/-- A long name once needed stays so. -/
theorem createSfn_stays_long (long : state.long = true) :
    (createSfn lfn di fuel si state).long = true := by
  induction fuel generalizing si state with
  | zero => exact long
  | succ fuel inductionHypothesis =>
    rw [createSfn]
    split
    · exact long
    · dsimp only
      split_ifs
      all_goals first
        | rfl
        | exact long
        | exact inductionHypothesis rfl
        | exact inductionHypothesis long
        | exact inductionHypothesis (put_stays_long long)

/-- What a turn of the loop does if no long name is needed in the end: it takes the character, or it
goes on behind the last dot. -/
theorem createSfn_turn (inside : si < lfn.length) (visible : 0x20 ≤ lfn[si])
    (short : (createSfn lfn di (fuel + 1) si state).long = false) :
    (si + 1 ≠ di ∧ PlainChar lfn[si] ∧ state.i < state.ni ∧
      createSfn lfn di (fuel + 1) si state = createSfn lfn di fuel (si + 1) (state.put lfn[si])) ∨
    (si + 1 = di ∧ state.ni ≠ 11 ∧ createSfn lfn di (fuel + 1) si state =
      createSfn lfn di fuel di { state with i := 8, ni := 11, b := state.b <<< 2 }) := by
  have stays : ∀ {si : Nat} {later : SfnState}, later.long = true →
      ¬ (createSfn lfn di fuel si later).long = false := fun long short =>
    absurd (short.symm.trans (createSfn_stays_long long)) Bool.false_ne_true
  rw [createSfn, List.getElem?_eq_getElem inside] at short ⊢
  dsimp only at short ⊢
  by_cases blank : lfn[si] = 0x20 ∨ lfn[si] = 0x2e ∧ si + 1 ≠ di
  · rw [if_pos blank] at short
    exact absurd short (stays rfl)
  · rw [if_neg blank] at short ⊢
    by_cases full : state.i ≥ state.ni ∨ si + 1 = di
    · rw [if_pos full] at short ⊢
      by_cases last : state.ni = 11
      · rw [if_pos last] at short
        cases short
      · rw [if_neg last] at short ⊢
        by_cases dot : si + 1 = di
        · rw [if_neg (not_not.mpr dot), if_neg (by omega)]
          exact .inr ⟨dot, last, rfl⟩
        · rw [if_pos dot] at short
          by_cases past : si + 1 > di
          · rw [if_pos past] at short
            cases short
          · rw [if_neg past] at short
            exact absurd short (stays rfl)
    · rw [if_neg full] at short ⊢
      obtain ⟨room, before⟩ := not_or.mp full
      obtain ⟨noBlank, noDot⟩ := not_or.mp blank
      have kept : (state.put lfn[si]).long = false :=
        Bool.eq_false_iff.mpr fun long => stays long short
      have plain := plainChar_of_put visible noBlank (fun dot => noDot ⟨dot, before⟩) kept
      exact .inl ⟨before, plain.1, Nat.lt_of_not_ge room, rfl⟩

/-- Behind the last dot, or without one: the loop takes what is left of the name, by induction on
its turns. -/
theorem createSfn_section (enough : lfn.length ≤ fuel + si) (behind : di ≤ si)
    (visible : ∀ w ∈ lfn, 0x20 ≤ w) (room : state.i ≤ state.ni)
    (short : (createSfn lfn di fuel si state).long = false) :
    (∀ w ∈ lfn.drop si, PlainChar w) ∧ state.i + (lfn.drop si).length ≤ state.ni ∧
      createSfn lfn di fuel si state = (lfn.drop si).foldl SfnState.put state := by
  have ended : ∀ {si : Nat} {state : SfnState}, state.i ≤ state.ni → lfn.length ≤ si →
      (∀ w ∈ lfn.drop si, PlainChar w) ∧ state.i + (lfn.drop si).length ≤ state.ni ∧
      state = (lfn.drop si).foldl SfnState.put state := by
    intro si state room past
    rw [List.drop_eq_nil_of_le past]
    exact ⟨fun _ none => absurd none List.not_mem_nil, room, rfl⟩
  induction fuel generalizing si state with
  | zero => exact ended room (by omega)
  | succ fuel inductionHypothesis =>
    by_cases inside : si < lfn.length
    · obtain ⟨_, plain, less, turn⟩ | ⟨dot, _⟩ :=
        createSfn_turn inside (visible _ (List.getElem_mem inside)) short
      · have put := @put_eq state _ plain
        rw [turn] at short ⊢
        obtain ⟨others, kept, run⟩ := inductionHypothesis (by omega) (by omega)
          (by rw [put]; exact less) short
        rw [run, List.drop_eq_getElem_cons inside, List.foldl_cons]
        rw [put] at kept
        refine ⟨List.forall_mem_cons.mpr ⟨plain, others⟩, ?_, rfl⟩
        rw [List.length_cons]
        dsimp only at kept
        omega
      · omega
    · have past : lfn.length ≤ si := Nat.le_of_not_lt inside
      rw [createSfn, List.getElem?_eq_none past]
      exact ended room past

/-- In front of the last dot: the loop takes the body of the name and goes on with the extension, by
induction on its turns. -/
theorem createSfn_sections (enough : lfn.length ≤ fuel + si) (before : si < di)
    (dot : lfn[di - 1]? = some 0x2e) (visible : ∀ w ∈ lfn, 0x20 ≤ w) (room : state.i ≤ state.ni)
    (body : state.ni = 8) (short : (createSfn lfn di fuel si state).long = false) :
    ∃ chars, lfn.drop si = chars ++ 0x2e :: lfn.drop di ∧ (∀ w ∈ chars, PlainChar w) ∧
      (∀ w ∈ lfn.drop di, PlainChar w) ∧ state.i + chars.length ≤ 8 ∧ (lfn.drop di).length ≤ 3 ∧
      createSfn lfn di fuel si state =
        (lfn.drop di).foldl SfnState.put { chars.foldl SfnState.put state with
          i := 8
          ni := 11
          b := (chars.foldl SfnState.put state).b <<< 2 } := by
  have within : di - 1 < lfn.length := (List.getElem?_eq_some_iff.mp dot).1
  induction fuel generalizing si state with
  | zero => omega
  | succ fuel inductionHypothesis =>
    have inside : si < lfn.length := by omega
    obtain ⟨different, plain, less, turn⟩ | ⟨last, _, turn⟩ :=
      createSfn_turn inside (visible _ (List.getElem_mem inside)) short
    · have put := @put_eq state _ plain
      rw [turn] at short ⊢
      obtain ⟨chars, split, plains, ext, kept, few, run⟩ := inductionHypothesis (by omega)
        (by omega) (by rw [put]; exact less) (by rw [put]; exact body) short
      refine ⟨lfn[si] :: chars, ?_, List.forall_mem_cons.mpr ⟨plain, plains⟩, ext, ?_, few, run⟩
      · rw [List.drop_eq_getElem_cons inside, split, List.cons_append]
      · rw [put] at kept
        dsimp only at kept
        rw [List.length_cons]
        omega
    · have here : lfn[si] = 0x2e := by
        have same : di - 1 = si := by omega
        rw [same, List.getElem?_eq_getElem inside] at dot
        exact Option.some.inj dot
      rw [turn] at short ⊢
      obtain ⟨ext, few, run⟩ := createSfn_section (by omega) (Nat.le_refl di) visible
        (show 8 ≤ 11 by decide) short
      refine ⟨[], ?_, fun _ none => absurd none List.not_mem_nil, ext, ?_, ?_, run⟩
      · rw [List.drop_eq_getElem_cons inside, here, last, List.nil_append]
      · rw [List.length_nil]
        omega
      · dsimp only at few
        omega

/-- What the characters of a section make of the short name. -/
theorem foldl_put_eq {front rest : List UInt8} (plain : ∀ w ∈ chars, PlainChar w)
    (fn : state.fn = front ++ rest) (place : state.i = front.length)
    (room : chars.length ≤ rest.length) :
    chars.foldl SfnState.put state = { state with
      fn := front ++ chars.map sfnByte ++ rest.drop chars.length
      i := state.i + chars.length
      b := state.b ||| sectionBits chars } := by
  induction chars generalizing state front rest with
  | nil =>
    rw [List.foldl_nil, List.map_nil, List.append_nil, List.length_nil, List.drop_zero,
      Nat.add_zero, sectionBits, List.foldr_nil, Nat.or_zero, ← fn]
  | cons w chars inductionHypothesis =>
    obtain ⟨first, others⟩ := List.forall_mem_cons.mp plain
    cases rest with
    | nil => exact absurd room (Nat.not_succ_le_zero _)
    | cons c rest =>
      have set : state.fn.set state.i (sfnByte w) = (front ++ [sfnByte w]) ++ rest := by
        rw [fn, place, List.set_append_right _ _ (Nat.le_refl _), Nat.sub_self, List.set_cons_zero,
          List.append_assoc, List.singleton_append]
      rw [List.foldl_cons, put_eq first, @inductionHypothesis _ (front ++ [sfnByte w]) rest others
        (by exact set) (by rw [List.length_append]; exact congrArg (· + 1) place)
        (Nat.le_of_succ_le_succ room)]
      simp only [List.map_cons, List.length_cons, List.drop_succ_cons, List.append_assoc,
        List.cons_append, List.nil_append, sectionBits, List.foldr_cons,
        Nat.or_assoc, Nat.add_assoc, Nat.add_comm 1]

end Chars

/-! ### Short names that are shown as they were -/

theorem sfnByte_spec : ∀ w < 0x80, 0x20 < w →
    sfnByte w ≠ 0x20 ∧ sfnByte w ≠ 0x05 ∧ sfnByte w < 0x80 := by
  decide +kernel

theorem lowered_sfnByte : ∀ lower : Bool, ∀ w < 0x80, (lower = true → charBit w ≠ 2) →
    (lower = false → charBit w ≠ 1) →
    (if lower ∧ 0x41 ≤ sfnByte w ∧ sfnByte w ≤ 0x5a then sfnByte w + 0x20 else sfnByte w) =
      UInt8.ofNat (unicodeToOem w) := by
  decide +kernel

section Shown

variable {chars body ext lfn : List Nat} {w count : Nat} {lower : Bool}

theorem charBit_cases (w : Nat) : charBit w = 0 ∨ charBit w = 1 ∨ charBit w = 2 := by
  rw [charBit]
  split_ifs
  · exact .inr (.inr rfl)
  · exact .inr (.inl rfl)
  · exact .inl rfl

theorem sectionBits_lt (chars : List Nat) : sectionBits chars < 4 := by
  induction chars with
  | nil => exact Nat.zero_lt_succ 3
  | cons w chars inductionHypothesis =>
    refine @Nat.or_lt_two_pow (charBit w) (sectionBits chars) 2 ?_ inductionHypothesis
    rcases charBit_cases w with bit | bit | bit <;> rw [bit] <;> decide

theorem charBit_or_sectionBits (member : w ∈ chars) :
    charBit w ||| sectionBits chars = sectionBits chars := by
  induction chars with
  | nil => exact absurd member List.not_mem_nil
  | cons first chars inductionHypothesis =>
    change charBit w ||| (charBit first ||| sectionBits chars) =
      charBit first ||| sectionBits chars
    rcases List.mem_cons.mp member with rfl | later
    · rw [← Nat.or_assoc, Nat.or_self]
    · rw [← Nat.or_assoc, Nat.or_comm (charBit w), Nat.or_assoc, inductionHypothesis later]

/-- The flag of a section says what the case of its letters is, unless they have both. -/
theorem charBit_ne (member : w ∈ chars) (simple : sectionBits chars ≠ 3)
    (flag : lower = decide (sectionBits chars = 1)) :
    (lower = true → charBit w ≠ 2) ∧ (lower = false → charBit w ≠ 1) := by
  have same := charBit_or_sectionBits member
  have small := sectionBits_lt chars
  rw [flag]
  generalize sectionBits chars = bits at *
  generalize charBit w = bit at *
  constructor
  · rintro one rfl
    rw [of_decide_eq_true one] at same
    exact absurd same (by decide)
  · rintro other rfl
    have different : bits ≠ 1 := of_decide_eq_false other
    obtain rfl | rfl : bits = 0 ∨ bits = 2 := by omega
    · exact absurd same (by decide)
    · exact absurd same (by decide)

/-- A section with letters of one case is shown as it was. -/
theorem shownPart_section (plain : ∀ w ∈ chars, PlainChar w) (simple : sectionBits chars ≠ 3)
    (flag : lower = decide (sectionBits chars = 1)) :
    shownPart lower (chars.map sfnByte ++ List.replicate count 0x20) = oemName chars := by
  have padding : (List.replicate count (0x20 : UInt8)).takeWhile (· ≠ 0x20) = [] := by
    cases count with
    | zero => rfl
    | succ count => exact List.takeWhile_cons_of_neg (by decide)
  rw [shownPart, List.takeWhile_append_of_pos, padding, List.append_nil, List.map_map, oemName]
  · refine List.map_congr_left fun w member => ?_
    obtain ⟨upper, lowerCase⟩ := charBit_ne member simple flag
    exact lowered_sfnByte lower w (plain w member).ascii upper lowerCase
  · intro c member
    obtain ⟨w, inside, rfl⟩ := List.mem_map.mp member
    exact decide_eq_true (sfnByte_spec w (plain w inside).ascii (plain w inside).visible).1

theorem map_kanji {bytes : List UInt8} (none : ∀ c ∈ bytes, c ≠ 0x05) :
    (bytes.map fun c => if c = 0x05 then 0xe5 else c) = bytes :=
  (List.map_congr_left fun c member => if_neg (none c member)).trans (List.map_id _)

/-- The place behind the last dot, or zero. -/
theorem lastDot_cases (lfn : List Nat) :
    lfn.length - (lfn.reverse.takeWhile (· ≠ 0x2e)).length = 0 ∨
      (0 < lfn.length - (lfn.reverse.takeWhile (· ≠ 0x2e)).length ∧
        lfn[lfn.length - (lfn.reverse.takeWhile (· ≠ 0x2e)).length - 1]? = some 0x2e) := by
  have split := List.takeWhile_append_dropWhile (p := fun w : Nat => decide (w ≠ 0x2e))
    (l := lfn.reverse)
  have dot := List.head?_dropWhile_not (fun w : Nat => decide (w ≠ 0x2e)) lfn.reverse
  generalize lfn.reverse.takeWhile (fun w : Nat => decide (w ≠ 0x2e)) = ext at *
  cases rest : lfn.reverse.dropWhile (fun w : Nat => decide (w ≠ 0x2e)) with
  | nil =>
    rw [rest, List.append_nil] at split
    refine .inl ?_
    rw [split, List.length_reverse, Nat.sub_self]
  | cons c more =>
    rw [rest] at split dot
    have same : c = 0x2e := by simpa using dot
    have whole : lfn = more.reverse ++ 0x2e :: ext.reverse := by
      rw [← List.reverse_reverse lfn, ← split, same]
      simp
    have length : lfn.length - ext.length = more.length + 1 := by
      rw [whole, List.length_append, List.length_cons, List.length_reverse, List.length_reverse]
      omega
    refine .inr ⟨by omega, ?_⟩
    rw [length, Nat.add_sub_cancel, whole, List.getElem?_append_right (by rw [List.length_reverse]),
      List.length_reverse, Nat.sub_self]
    rfl

/-- A short name in its two parts. -/
theorem fname_eq {entry : DirEntry} {front back : List UInt8} (sfn : entry.sfn = front ++ back)
    (eight : front.length = 8) (noKanji : ∀ c ∈ front, c ≠ 0x05) :
    (fileInfo entry).fname = shownPart entry.body front ++
      if back.head? = some 0x20 then [] else 0x2e :: shownPart entry.ext back := by
  have taken : entry.sfn.take 8 = front := by rw [sfn, ← eight, List.take_left]
  have dropped : entry.sfn.drop 8 = back := by rw [sfn, ← eight, List.drop_left]
  have ninth : entry.sfn[8]? = back.head? := by rw [← dropped, List.head?_drop]
  dsimp only [fileInfo]
  rw [taken, dropped, ninth, map_kanji noKanji]

/-- The cases of a name that needs no long name, section by section. -/
theorem simple_cases : ∀ body < 4, ∀ ext < 4,
    ((body <<< 2 ||| ext) &&& 0x0c == 0x0c) = false ∧
      ((body <<< 2 ||| ext) &&& 0x03 == 0x03) = false →
    body ≠ 3 ∧ ext ≠ 3 ∧ ((body <<< 2 ||| ext) &&& 0x0c == 0x04) = decide (body = 1) ∧
      ((body <<< 2 ||| ext) &&& 0x03 == 0x01) = decide (ext = 1) := by
  decide

theorem sfnBytes_spec (plain : ∀ w ∈ chars, PlainChar w) :
    ∀ c ∈ chars.map sfnByte ++ List.replicate count 0x20, c ≠ 0x05 ∧ c < 0x80 := by
  intro c member
  rcases List.mem_append.mp member with inside | padding
  · obtain ⟨w, listed, rfl⟩ := List.mem_map.mp inside
    exact (sfnByte_spec w (plain w listed).ascii (plain w listed).visible).2
  · rw [(List.mem_replicate.mp padding).2]
    decide

/-- The state in which the loop begins if no long name is needed. -/
def firstState : SfnState := ⟨List.replicate 11 0x20, 0, 8, 0, false, false⟩

/-- The state in which the loop ends on such a name: the bytes of its sections, and their cases. -/
theorem lastState_short (visible : ∀ w ∈ lfn, 0x20 ≤ w)
    (last : ∀ w ∈ lfn.getLast?, blankOrDot w = false) (short : (lastState lfn).long = false) :
    ∃ body ext, (∀ w ∈ body, PlainChar w) ∧ (∀ w ∈ ext, PlainChar w) ∧ body.length ≤ 8 ∧
      ext.length ≤ 3 ∧ lfn = body ++ (if ext = [] then [] else 0x2e :: ext) ∧
      (lastState lfn).fn = (body.map sfnByte ++ List.replicate (8 - body.length) 0x20) ++
        (ext.map sfnByte ++ List.replicate (3 - ext.length) 0x20) ∧
      lastCases lfn = sectionBits body <<< 2 ||| sectionBits ext := by
  -- nothing to skip at the front
  have begins : (lfn.takeWhile blankOrDot).length = 0 := by
    by_contra skipped
    have long : (lastState lfn).long = true :=
      createSfn_stays_long (decide_eq_true skipped)
    exact absurd (short.symm.trans long) Bool.false_ne_true
  have start : lastState lfn = createSfn lfn
      (lfn.length - (lfn.reverse.takeWhile (· ≠ 0x2e)).length) (lfn.length + 1) 0 firstState := by
    rw [lastState, begins]
    rfl
  rw [start] at short
  rw [lastCases, start]
  obtain none | ⟨some, dot⟩ := lastDot_cases lfn
  · rw [none] at short ⊢
    obtain ⟨plain, few, run⟩ := createSfn_section (by omega) (Nat.le_refl 0) visible
      (Nat.zero_le 8) short
    rw [List.drop_zero] at plain few run
    change 0 + lfn.length ≤ 8 at few
    have folded := @foldl_put_eq firstState lfn [] (List.replicate 11 0x20) plain rfl rfl
      (by rw [List.length_replicate]; omega)
    rw [run, folded]
    refine ⟨lfn, [], plain, fun _ none => absurd none List.not_mem_nil, by omega, Nat.zero_le 3,
      ?_, ?_, ?_⟩
    · rw [if_pos rfl, List.append_nil]
    · have pad : List.replicate (11 - lfn.length) (0x20 : UInt8) =
          List.replicate (8 - lfn.length) 0x20 ++ List.replicate 3 0x20 := by
        rw [List.replicate_append_replicate]
        congr 1
        omega
      dsimp only
      rw [List.nil_append, List.drop_replicate, pad, List.append_assoc]
      rfl
    · change (if 8 = 8 then (0 ||| sectionBits lfn) <<< 2 else _) = _
      rw [if_pos rfl, Nat.zero_or]
      exact (Nat.or_zero _).symm
  · generalize lfn.length - (lfn.reverse.takeWhile (· ≠ 0x2e)).length = di at *
    obtain ⟨body, split, plain, plainExt, few, fewExt, run⟩ := createSfn_sections (by omega) some
      dot visible (Nat.zero_le 8) rfl short
    rw [List.drop_zero] at split
    change 0 + body.length ≤ 8 at few
    have nonemptyExt : lfn.drop di ≠ [] := by
      intro none
      have ends : lfn.getLast? = Option.some 0x2e := by
        rw [split, none, List.getLast?_concat]
      exact absurd (last 0x2e ends) (by decide)
    generalize lfn.drop di = ext at *
    have pad : List.replicate (11 - body.length) (0x20 : UInt8) =
        List.replicate (8 - body.length) 0x20 ++ List.replicate 3 0x20 := by
      rw [List.replicate_append_replicate]
      congr 1
      omega
    have folded := @foldl_put_eq firstState body [] (List.replicate 11 0x20) plain rfl rfl
      (by rw [List.length_replicate]; omega)
    rw [List.nil_append, List.drop_replicate, pad, ← List.append_assoc] at folded
    have eight : (body.map sfnByte ++ List.replicate (8 - body.length) 0x20).length = 8 := by
      rw [List.length_append, List.length_map, List.length_replicate]
      omega
    have foldedExt := fun state fn place => @foldl_put_eq state ext
      (body.map sfnByte ++ List.replicate (8 - body.length) 0x20) (List.replicate 3 0x20) plainExt
      fn place (by rw [List.length_replicate]; exact fewExt)
    rw [run, folded, foldedExt _ rfl eight.symm]
    refine ⟨body, ext, plain, plainExt, by omega, fewExt, ?_, ?_, ?_⟩
    · rw [if_neg nonemptyExt]
      exact split
    · dsimp only
      rw [List.drop_replicate, List.append_assoc (_ ++ _)]
    · change (if 11 = 8 then _ else (0 ||| sectionBits body) <<< 2 ||| sectionBits ext) = _
      rw [if_neg (by decide), Nat.zero_or]

/-- A name that needs no long name is shown again by its short name. -/
theorem fname_of_short {segment : List UInt8} {name : Name} {entry : DirEntry}
    (visible : ∀ w ∈ name.lfn, 0x20 ≤ w) (last : ∀ w ∈ name.lfn.getLast?, blankOrDot w = false)
    (created : createName segment = some name) (short : name.long = false)
    (sfn : entry.sfn = name.fn) (bodyFlag : entry.body = name.body)
    (extFlag : entry.ext = name.ext) : (fileInfo entry).fname = oemName name.lfn := by
  obtain ⟨_, fn, long, flagBody, flagExt⟩ := createName_fields created
  rw [short] at long flagBody flagExt
  obtain ⟨kept, composite, compositeExt⟩ : (lastState name.lfn).long = false ∧
      (lastCases name.lfn &&& 0x0c == 0x0c) = false ∧
      (lastCases name.lfn &&& 0x03 == 0x03) = false := by
    simpa only [Bool.false_eq, Bool.or_eq_false_iff, and_assoc] using long
  obtain ⟨body, ext, plain, plainExt, few, fewExt, spelled, bytes, cases⟩ :=
    lastState_short visible last kept
  rw [cases] at composite compositeExt flagBody flagExt
  obtain ⟨simple, simpleExt, bits, bitsExt⟩ := simple_cases _ (sectionBits_lt body) _
    (sectionBits_lt ext) ⟨composite, compositeExt⟩
  have front := @sfnBytes_spec body (8 - body.length) plain
  have back := @sfnBytes_spec ext (3 - ext.length) plainExt
  have unmarked : (lastState name.lfn).fn.head? ≠ some 0xe5 := by
    intro marked
    have member := List.mem_of_mem_head? marked
    rw [bytes] at member
    rcases List.mem_append.mp member with inside | inside
    · exact absurd (front _ inside).2 (by decide)
    · exact absurd (back _ inside).2 (by decide)
  rw [if_neg unmarked, bytes] at fn
  have eight : (body.map sfnByte ++ List.replicate (8 - body.length) 0x20).length = 8 := by
    rw [List.length_append, List.length_map, List.length_replicate]
    omega
  rw [fname_eq (sfn.trans fn) eight fun c member => (front c member).1,
    shownPart_section plain simple (by rw [bodyFlag, flagBody, ← bits]; rfl),
    shownPart_section plainExt simpleExt (by rw [extFlag, flagExt, ← bitsExt]; rfl), spelled,
    oemName_append]
  congr 1
  cases ext with
  | nil => rfl
  | cons w ext =>
    have visible := (sfnByte_spec w (plainExt w List.mem_cons_self).ascii
      (plainExt w List.mem_cons_self).visible).1
    rw [if_neg (List.cons_ne_nil _ _), List.map_cons, List.cons_append, List.head?_cons, if_neg]
    · rfl
    · exact fun same => visible (Option.some.inj same)

end Shown

/-! ### Short names have eleven bytes -/

section Eleven

variable {segment : List UInt8} {labels : List Label} {label : Label} {name : Name}

theorem dirRegister_sfn_length (created : createName segment = some name)
    (registered : dirRegister labels name = some label) : label.sfn.length = 11 := by
  have eleven := length_fn created
  rw [dirRegister] at registered
  split at registered
  · cases registered
  · rename_i sfn chosen
    obtain rfl := Option.some.inj registered
    split_ifs at chosen
    · obtain ⟨num, listed, rfl⟩ := List.mem_map.mp (List.mem_of_find?_eq_some chosen)
      have bound := List.mem_range'_1.mp listed
      exact length_genNumname name.lfn eleven (by omega)
    · rw [← Option.some.inj chosen]
      exact eleven

end Eleven

/-! ### The names in a copied directory -/

/-- A name as `f_readdir` shows it. -/
def Label.shown (label : Label) : FatPath := DirEntry.shown ⟨label, false, 0, []⟩

/-- The names in a directory of the destination after an entry was copied: a new one, unless the
look-up finds one. -/
def registerShown (labels : List Label) (filename : FatPath) : List Label :=
  match createName filename with
  | none => labels
  | some name =>
    match dirFind labels name with
    | some _ => labels
    | none => labels ++ (dirRegister labels name).toList

/-- The names in a new directory after these entries were copied. -/
def copiedLabels (entries : List DirEntry) : List Label :=
  (entries.map DirEntry.shown).foldl registerShown []

/-- The look-up of a name meets no other: it finds nothing, or an entry that is shown alike. -/
def Unmet (labels : List Label) (filename : FatPath) : Prop :=
  ∀ name, createName filename = some name → ∀ place, dirFind labels name = some place →
    ∀ label ∈ labels[place]?, label.shown = filename

/-- The entry at which a look-up stops once a name was copied: a new one for this name, or the one
found before. -/
inductive Recorded (labels : List Label) (filename : FatPath) : Label → Prop
  | new {label} : Admits labels filename label → Recorded labels filename label
  | met {name place label} : createName filename = some name → dirFind labels name = some place →
      labels[place]? = some label → Recorded labels filename label

section Recorded

variable {labels : List Label} {label : Label} {filename : FatPath} {entry : DirEntry}

theorem registerShown_admits (admits : Admits labels filename label) :
    registerShown labels filename = labels ++ [label] := by
  obtain ⟨name, created, missing, registered⟩ := admits
  simp only [registerShown, created, missing, registered, Option.toList_some]

theorem registerShown_finds {name : Name} {place : Nat} (created : createName filename = some name)
    (found : dirFind labels name = some place) : registerShown labels filename = labels := by
  simp only [registerShown, created, found]

theorem eleven_registerShown (eleven : ∀ label ∈ labels, label.sfn.length = 11) :
    ∀ label ∈ registerShown labels filename, label.sfn.length = 11 := by
  intro label member
  cases created : createName filename with
  | none =>
    simp only [registerShown, created] at member
    exact eleven label member
  | some name =>
    cases found : dirFind labels name with
    | some place =>
      rw [registerShown_finds created found] at member
      exact eleven label member
    | none =>
      simp only [registerShown, created, found] at member
      rcases List.mem_append.mp member with old | new
      · exact eleven label old
      · exact dirRegister_sfn_length created (Option.mem_toList.mp new)

theorem eleven_copiedLabels (entries : List DirEntry) :
    ∀ label ∈ copiedLabels entries, label.sfn.length = 11 := by
  have fold : ∀ (filenames : List FatPath) (labels : List Label),
      (∀ label ∈ labels, label.sfn.length = 11) →
        ∀ label ∈ filenames.foldl registerShown labels, label.sfn.length = 11 := by
    intro filenames
    induction filenames with
    | nil => exact fun _ eleven => eleven
    | cons filename filenames inductionHypothesis =>
      exact fun labels eleven => inductionHypothesis _ (eleven_registerShown eleven)
  exact fold _ [] fun _ none => absurd none List.not_mem_nil

/-- What is shown has at most 253 characters. -/
theorem length_label_shown_le (eleven : label.sfn.length = 11) : label.shown.length ≤ 253 := by
  have short := @length_fname_le ⟨label, false, 0, []⟩ eleven
  rw [Label.shown, DirEntry.shown, FileInfo.name]
  split_ifs
  · dsimp only [fileInfo]
    split_ifs with fits
    · rw [shownLfn]
      split_ifs
      · rw [List.length_map]
        exact Nat.le_of_lt_succ fits
      · exact Nat.zero_le _
    · exact Nat.zero_le _
  · omega

/-- An entry is shown with its long name exactly if that has at most 253 characters. -/
theorem shown_eq_oemName_iff (long : LongName entry.lfn) (eleven : entry.sfn.length = 11) :
    entry.shown = oemName entry.lfn ↔ entry.lfn.length ≤ 253 :=
  name_eq_oemName_iff long (length_fname_le eleven) (fileInfo_lfname long)

/-- `create_name` gets the long name back from its form in the code page. -/
theorem lfn_of_oemName {lfn : List Nat} {name : Name} (long : LongName lfn)
    (created : createName (oemName lfn) = some name) : name.lfn = lfn := by
  have last := List.dropLast_concat_getLast long.nonempty
  have chars : ((oemName lfn).map fun b => oemToUnicode b.toNat) = lfn := by
    rw [oemName, List.map_map]
    refine (List.map_congr_left fun w member => ?_).trans (List.map_id _)
    have small : (UInt8.ofNat (unicodeToOem w)).toNat = unicodeToOem w :=
      UInt8.toNat_ofNat_of_lt' (unicodeToOem_lt w)
    exact (congrArg oemToUnicode small).trans (oemToUnicode_unicodeToOem (long.coded w member))
  exact (createLfn_unstripped (chars.trans last.symm)
    (long.last _ (List.getLast?_eq_getLast_of_ne_nil long.nonempty))
    (createName_fields created).1).trans last

/-- A new entry for a long name is shown with that name. -/
theorem shown_of_admits {lfn : List Nat} (long : LongName lfn) (fits : lfn.length ≤ 253)
    (admits : Admits labels (oemName lfn) label) : label.shown = oemName lfn := by
  obtain ⟨name, created, _, registered⟩ := admits
  obtain ⟨lossy, _⟩ := createName_spec created
  have kept := lfn_of_oemName long created
  rw [dirRegister] at registered
  split at registered
  · cases registered
  · rename_i sfn chosen
    obtain rfl := Option.some.inj registered
    rw [Label.shown, DirEntry.shown, FileInfo.name]
    cases needed : name.long with
    | true =>
      have lfname := @fileInfo_lfname ⟨⟨sfn, name.lfn, name.body, name.ext⟩, false, 0, []⟩
        (by rw [kept]; exact long)
      dsimp only at lfname
      rw [kept, if_pos (show lfn.length < pickLimit from Nat.lt_succ_of_le fits)] at lfname
      rw [if_pos rfl, kept, lfname, if_pos (oemName_ne_nil long)]
    | false =>
      have exact' : name.loss = false :=
        Bool.eq_false_iff.mpr fun loss => absurd (needed.symm.trans (lossy loss)) (by decide)
      rw [exact', if_neg Bool.false_ne_true] at chosen
      have visible : ∀ w ∈ name.lfn, 0x20 ≤ w := kept.symm ▸ fun w member =>
        (long.chars w member).1
      have last : ∀ w ∈ name.lfn.getLast?, blankOrDot w = false := kept.symm ▸ long.last
      have shown := @fname_of_short (oemName lfn) name
        ⟨⟨sfn, [], name.body, name.ext⟩, false, 0, []⟩ visible last created needed
        (Option.some.inj chosen).symm rfl rfl
      have none : (fileInfo ⟨⟨sfn, [], name.body, name.ext⟩, false, 0, []⟩).lfname = [] := rfl
      rw [if_neg Bool.false_ne_true, if_neg (not_not.mpr none), shown, kept]

/-- So an entry that was copied has its long name there exactly if it has at most 253 characters and
the look-up met no other name. -/
theorem Recorded.shown_iff (recorded : Recorded labels entry.shown label)
    (long : LongName entry.lfn)
    (eleven : entry.sfn.length = 11) (others : ∀ label ∈ labels, label.sfn.length = 11) :
    label.shown = oemName entry.lfn ↔ entry.lfn.length ≤ 253 ∧ Unmet labels entry.shown := by
  have own : label.sfn.length = 11 := by
    cases recorded with
    | new admits =>
      obtain ⟨name, created, _, registered⟩ := admits
      exact dirRegister_sfn_length created registered
    | met _ _ present => exact others label (List.mem_of_getElem? present)
  have bound := length_label_shown_le own
  have whole := shown_eq_oemName_iff long eleven
  constructor
  · intro same
    rw [same, length_oemName] at bound
    refine ⟨bound, fun name created place found other here => ?_⟩
    cases recorded with
    | new admits =>
      obtain ⟨name', created', missing, _⟩ := admits
      obtain rfl := Option.some.inj (created.symm.trans created')
      exact absurd (missing.symm.trans found) (Option.some_ne_none _).symm
    | met created' found' present =>
      obtain rfl := Option.some.inj (created.symm.trans created')
      obtain rfl := Option.some.inj (found.symm.trans found')
      obtain rfl := Option.some.inj (present.symm.trans here)
      exact same.trans (whole.mpr bound).symm
  · rintro ⟨fits, unmet⟩
    have shown := whole.mpr fits
    cases recorded with
    | new admits => exact shown_of_admits long fits (shown ▸ admits)
    | met created found present => exact (unmet _ created _ found label present).trans shown

end Recorded

/-! ### A run of the copy -/

/-- The directories of the source that a copy visits from one on, and the names that lead there. -/
inductive NamedVolume.Visited (source : NamedVolume) : Nat → List FatPath → Nat → Prop
  | here {table} : source.Visited table [] table
  | into {table index last : Nat} {names : List FatPath} {entry found : DirEntry} :
      entry ∈ source.listing table → entry.isDir = true →
      source.Finds table entry.shown index found → source.Visited found.table names last →
      source.Visited table (entry.shown :: names) last

/-- What became of an entry at a place of a directory: the one that its name finds in the copy has
its long name exactly if that has at most 253 characters and no name copied before was met. -/
def NameKept (source copy : NamedVolume) (table target place : Nat) (entry : DirEntry) : Prop :=
  ∃ index found, copy.Finds target entry.shown index found ∧
    (found.shown = oemName entry.lfn ↔ entry.lfn.length ≤ 253 ∧
      Unmet (copiedLabels ((source.listing table).take place)) entry.shown)

/-- The long names of the entries of a directory, from a place on. The names in the copy are those
of what is listed: an entry behind one without a short name does not arrive. -/
structure NamesKept (source copy : NamedVolume) (table target start : Nat) : Prop where
  labels : copy.labels target = copiedLabels (source.listing table)
  kept : ∀ place entry, start ≤ place → (source.listing table)[place]? = some entry →
    LongName entry.lfn → entry.sfn.length = 11 → NameKept source copy table target place entry

/-- The same for the directories below. -/
structure TreeKept (source copy : NamedVolume) (table target start : Nat) : Prop where
  names : NamesKept source copy table target start
  below : ∀ place entry, start ≤ place → (source.listing table)[place]? = some entry →
    entry.isDir = true → ∀ index found, source.Finds table entry.shown index found →
      ∀ names last, source.Visited found.table names last →
        ∃ inner, copy.Leads target (entry.shown :: names) inner ∧
          NamesKept source copy last inner 0

section Run

open NamedVolume

variable {source copy later : NamedVolume} {before middle after : NamedDrives}
  {table target start place : Nat} {names : List FatPath} {entry : DirEntry}

theorem NameKept.grown (grown : Grown copy later)
    (kept : NameKept source copy table target place entry) :
    NameKept source later table target place entry := by
  obtain ⟨index, found, finds, same⟩ := kept
  obtain ⟨content, finds'⟩ := grown.finds finds
  exact ⟨index, _, finds', same⟩

/-- The names stay while the directory is left alone. -/
theorem NamesKept.grown (grown : Grown copy later)
    (alone : later.entries target = copy.entries target)
    (kept : NamesKept source copy table target start) :
    NamesKept source later table target start where
  labels := (congrArg (List.map DirEntry.toLabel) alone).trans kept.labels
  kept place entry inside present long eleven :=
    (kept.kept place entry inside present long eleven).grown grown

/-- Names lead to directories that were made later. -/
theorem Ordered.leads_behind {volume : NamedVolume} (ordered : volume.Ordered) {inner : Nat}
    (leads : volume.Leads target names inner) :
    inner = target ∨ (target < inner ∧ inner < volume.fresh) := by
  induction leads with
  | here => exact .inl rfl
  | into finds directory _ inductionHypothesis =>
    obtain ⟨_, _, _, present⟩ := finds
    obtain ⟨above, under⟩ := ordered.ahead _ _
      (List.mem_map_of_mem (List.mem_of_getElem? present)) directory
    have above : _ < _ := above
    rcases inductionHypothesis with rfl | ⟨more, fresh⟩
    · exact .inr ⟨above, under⟩
    · exact .inr ⟨above.trans more, fresh⟩

/-- A directory is kept if its first entry is and the others are. -/
theorem TreeKept.cons (present : (source.listing table)[start]? = some entry)
    (first : LongName entry.lfn → entry.sfn.length = 11 →
      NameKept source copy table target start entry)
    (inside : entry.isDir = true → ∀ index found, source.Finds table entry.shown index found →
      ∀ names last, source.Visited found.table names last →
        ∃ inner, copy.Leads target (entry.shown :: names) inner ∧
          NamesKept source copy last inner 0)
    (others : TreeKept source copy table target (start + 1)) :
    TreeKept source copy table target start where
  names := by
    refine ⟨others.names.labels, fun place entry' from_ here long eleven => ?_⟩
    rcases Nat.eq_or_lt_of_le from_ with rfl | behind
    · obtain rfl := Option.some.inj (present.symm.trans here)
      exact first long eleven
    · exact others.names.kept place entry' behind here long eleven
  below place entry' from_ here := by
    rcases Nat.eq_or_lt_of_le from_ with rfl | behind
    · obtain rfl := Option.some.inj (present.symm.trans here)
      exact inside
    · exact others.below place entry' behind here

/-- The directories that a copy visits from a directory on. -/
theorem TreeKept.visited {last : Nat} (kept : TreeKept source copy table target 0)
    (visited : source.Visited table names last) :
    ∃ inner, copy.Leads target names inner ∧ NamesKept source copy last inner 0 := by
  cases visited with
  | here => exact ⟨target, .here, kept.names⟩
  | into member directory finds rest =>
    obtain ⟨place, present⟩ := List.getElem?_of_mem member
    exact kept.below place _ (Nat.zero_le _) present directory _ _ finds _ _ rest

theorem copiedLabels_succ (present : (source.listing table)[start]? = some entry) :
    copiedLabels ((source.listing table).take (start + 1)) =
      registerShown (copiedLabels ((source.listing table).take start)) entry.shown := by
  rw [copiedLabels, copiedLabels, List.take_add_one, present, List.map_append, List.foldl_append]
  rfl

/-- What a part of the run that copies an entry leaves in the directory. -/
structure Arrived (before after : NamedVolume) (target : Nat) (filename : FatPath) : Prop where
  labels : after.labels target = registerShown (before.labels target) filename
  recorded : ∃ index found, after.Finds target filename index found ∧
    Recorded (before.labels target) filename found.toLabel

theorem Arrived.kept (arrived : Arrived (before 1) (middle 1) target entry.shown)
    (labels : (before 1).labels target = copiedLabels ((source.listing table).take start))
    (long : LongName entry.lfn) (eleven : entry.sfn.length = 11) :
    NameKept source (middle 1) table target start entry := by
  obtain ⟨index, found, finds, recorded⟩ := arrived.recorded
  rw [labels] at recorded
  exact ⟨index, found, finds, recorded.shown_iff long eleven (eleven_copiedLabels _)⟩

/-- A new entry arrives. -/
theorem arrived_append {later : NamedVolume} {made : DirEntry} (plain : PlainName entry.shown)
    (admits : Admits (copy.labels target) entry.shown made.toLabel)
    (entries : later.entries target = copy.entries target ++ [made]) :
    Arrived copy later target entry.shown := by
  have labels : later.labels target = copy.labels target ++ [made.toLabel] := by
    rw [NamedVolume.labels, entries, List.map_append]
    rfl
  exact ⟨labels.trans (registerShown_admits admits).symm, _, made,
    admits.finds plain.findable entries, .new admits⟩

/-- A file arrives as a new entry, or in the one that its name finds. -/
theorem copyFile_arrived {fuel : Nat} (sourceLeads : (before 0).Leads 0 names table)
    (leads : (before 1).Leads 0 names target) (plains : ∀ name ∈ names, PlainName name)
    (plain : PlainName entry.shown) (ordered : (before 1).Ordered)
    (present : target < (before 1).fresh)
    (run : (copyFile named fuel (sourcePath (names ++ [entry.shown]))
      (destinationPath (names ++ [entry.shown]))).Outcome before 0 middle) :
    Reached before middle target ∧ Arrived (before 1) (middle 1) target entry.shown := by
  obtain ⟨index, found, finds, regularFound, ⟨label, admits, rfl⟩ | ⟨place, met, finds', rfl⟩⟩ :=
    copyFile_named sourceLeads leads (segments plains) plain.segment run
  · refine ⟨reached_append ordered present (Nat.le_refl _) nofun, ?_⟩
    rw [Function.update_self]
    exact arrived_append plain admits entries_change_self
  · have reached := @reached_store before target place found.content ordered present
    refine ⟨reached, ?_⟩
    have grown := reached.grown
    rw [Function.update_self] at grown ⊢
    obtain ⟨name, created, looked, here⟩ := finds'
    have same : ((before 1).store target place found.content).labels target =
        (before 1).labels target := by
      refine ((grown.labels target).eq_of_length ?_).symm
      rw [NamedVolume.labels, NamedVolume.labels, List.length_map, List.length_map, store,
        entries_change_self, List.length_modify]
    obtain ⟨content, finds''⟩ := grown.finds ⟨name, created, looked, here⟩
    refine ⟨same.trans (registerShown_finds created looked).symm, place, _, finds'',
      .met created looked ?_⟩
    rw [NamedVolume.labels, List.getElem?_map, here]
    rfl

/-- The loop over the entries of a directory keeps the long names, by induction on its turns and the
levels below. -/
theorem copyEntries_kept {fuel : Nat} (plain : (before 0).Plain)
    (sourceLeads : (before 0).Leads 0 names table) (leads : (before 1).Leads 0 names target)
    (plains : ∀ name ∈ names, PlainName name) (ordered : (before 1).Ordered)
    (present : target < (before 1).fresh)
    (labels : (before 1).labels target = copiedLabels (((before 0).listing table).take start))
    (inside : start ≤ ((before 0).listing table).length)
    (run : (copyEntries named fuel (sourcePath names) (destinationPath names)
      ⟨0, table, start⟩).Outcome before 0 after) :
    Reached before after target ∧ TreeKept (before 0) (after 1) table target start := by
  induction fuel using Nat.strong_induction_on generalizing before after names table target
    start with
  | _ fuel inductionHypothesis =>
  cases fuel with
  | zero => exact absurd run Program.outcome_undefined
  | succ fuel =>
    rw [copyEntries] at run
    obtain ⟨read, afterRead, reads, goesOn⟩ := (Program.outcome_orFail (by decide)).mp run
    obtain ⟨unchanged, ends | ⟨entry, here, rfl⟩⟩ := fReaddir_source inside reads
    · -- the end of what is listed
      rw [ends.2, unchanged] at goesOn
      obtain ⟨_, same⟩ := Program.outcome_pure.mp goesOn
      rw [same]
      have last := List.getElem?_eq_none_iff.mp ends.1
      have outside : ∀ {place entry}, start ≤ place →
          ¬ ((before 0).listing table)[place]? = some entry := fun from_ here =>
        absurd (here.symm.trans (List.getElem?_eq_none (last.trans from_))) (by simp)
      rw [List.take_of_length_le last] at labels
      exact ⟨.refl ordered, ⟨labels, fun _ _ from_ here => absurd here (outside from_)⟩,
        fun _ _ from_ here => absurd here (outside from_)⟩
    · have shown := plain table entry (List.mem_of_getElem? here)
      have turn : start < ((before 0).listing table).length :=
        (List.getElem?_eq_some_iff.mp here).1
      dsimp only at goesOn
      rw [sourcePath_concat, destinationPath_concat, unchanged] at goesOn
      cases kind : entry.isDir with
      | false =>
        rw [if_neg (by exact Bool.eq_false_iff.mp kind)] at goesOn
        obtain ⟨middle, copied, others⟩ := (Program.outcome_checked (by decide)).mp goesOn
        obtain ⟨reached, arrived⟩ := copyFile_arrived sourceLeads leads plains shown ordered present
          copied
        obtain ⟨reachedRest, keptRest⟩ := inductionHypothesis fuel (Nat.lt_succ_self _)
          (reached.source ▸ plain) (reached.source ▸ sourceLeads) (reached.grown.leads leads) plains
          reached.ordered (present.trans_le reached.fresh)
          (by rw [arrived.labels, labels, reached.source, copiedLabels_succ here])
          (reached.source ▸ turn) others
        rw [reached.source] at keptRest
        refine ⟨reached.trans reachedRest (.inl rfl), .cons here (fun long eleven => ?_)
          (fun directory => absurd (kind.symm.trans directory) Bool.false_ne_true) keptRest⟩
        exact (arrived.kept labels long eleven).grown reachedRest.grown
      | true =>
        rw [if_pos (by exact kind)] at goesOn
        obtain ⟨_, made, makes, inside⟩ := (Program.outcome_orFail (by decide)).mp goesOn
        obtain ⟨below, descends, others⟩ := (Program.outcome_checked (by decide)).mp inside
        obtain ⟨reachedMade, next, leadsMade, empty, label, admits, entries⟩ :=
          fMkdir_reached leads plains shown ordered present makes
        have sourceMade := reachedMade.source
        obtain ⟨fewer, less, place, found, finds, directory, run⟩ :=
          copyDir_opens (sourceMade ▸ sourceLeads) plains shown descends
        have plainsBelow : ∀ name ∈ names ++ [entry.shown], PlainName name :=
          List.forall_mem_append.mpr ⟨plains, List.forall_mem_singleton.mpr shown⟩
        have arrived : Arrived (before 1) (made 1) target entry.shown :=
          arrived_append shown admits entries
        -- the levels below, into the new directory
        obtain ⟨reachedBelow, keptBelow⟩ := inductionHypothesis fewer (by omega)
          (sourceMade ▸ plain) ((sourceMade ▸ sourceLeads).concat finds directory) leadsMade
          plainsBelow reachedMade.ordered (by omega)
          (by rw [NamedVolume.labels, empty]; rfl) (Nat.zero_le _) run
        rw [sourceMade] at keptBelow finds
        -- the other entries
        have reached := reachedMade.trans reachedBelow (.inr (Nat.le_refl _))
        have stays : (below 1).labels target = (made 1).labels target := by
          rw [NamedVolume.labels, NamedVolume.labels,
            reachedBelow.frame target (by omega) (by omega)]
        obtain ⟨reachedRest, keptRest⟩ := inductionHypothesis fuel (Nat.lt_succ_self _)
          (reached.source ▸ plain) (reached.source ▸ sourceLeads) (reached.grown.leads leads) plains
          reached.ordered (present.trans_le reached.fresh)
          (by rw [stays, arrived.labels, labels, reached.source, copiedLabels_succ here])
          (reached.source ▸ turn) others
        rw [reached.source] at keptRest
        have later := reachedBelow.grown.trans reachedRest.grown
        refine ⟨reached.trans reachedRest (.inl rfl), .cons here (fun long eleven => ?_)
          (fun _ index found' finds' names' last visited => ?_) keptRest⟩
        · exact (arrived.kept labels long eleven).grown later
        · obtain ⟨_, rfl⟩ := Finds.unique finds finds'
          obtain ⟨inner, leadsInner, kept⟩ := keptBelow.visited visited
          have made' : (made 1).Finds target entry.shown ((before 1).entries target).length
              ⟨label, true, (before 1).fresh, []⟩ := admits.finds shown.findable entries
          obtain ⟨content, findsLater⟩ := later.finds made'
          -- the directory below is behind this one, so the other entries leave it alone
          have new := present
          obtain ⟨above, under⟩ : (before 1).fresh ≤ inner ∧ inner < (below 1).fresh := by
            rcases Ordered.leads_behind reachedBelow.ordered leadsInner with rfl | ⟨more, fresh⟩
            · exact ⟨Nat.le_refl _, by have := reachedBelow.fresh; omega⟩
            · exact ⟨Nat.le_of_lt more, fresh⟩
          exact ⟨inner, .into findsLater rfl (reachedRest.grown.leads leadsInner),
            kept.grown reachedRest.grown (reachedRest.frame inner under (by omega))⟩

end Run

/-- A copy of a disk keeps the long names in every directory it visits. -/
theorem copyDir_kept {source : NamedVolume} {fuel : Nat} {after : NamedDrives}
    (plain : source.Plain)
    (run : (copyDir named fuel [0x30, 0x3a] [0x31, 0x3a]).Outcome (rebuildDrives source) 0 after) :
    TreeKept source (after 1) 0 0 0 := by
  obtain ⟨_, copied⟩ := copyDir_starts run
  exact (copyEntries_kept plain .here .here (fun _ none => absurd none List.not_mem_nil)
    (formatted_ordered source) Nat.zero_lt_one rfl (Nat.zero_le _) copied).2

/-- An entry whose long name has 1 to 255 characters, all of them in the code page: `ls` shows it,
and `copy_dir` works on it, with that name exactly if it has at most 253 characters and no blank
short name ends the loop before it. In every directory that a copy visits the names are those of the
entries up to a blank short name, and of these it is then the name of the copied entry, exactly if
the look-up on the destination met no entry with another name. -/
theorem longNames_kept_iff (tables : FatPath → List Buffer) (calls : TableCalls)
    (source : NamedVolume) (fuel : Nat) (start finish : TableState) (after : NamedDrives) :
    (∀ lfn before slots entry rest, LongName lfn → Carries lfn slots entry →
      (∀ entry ∈ before, entry 0 ≠ 0) → before.length + slots.length < 2 ^ 16 →
      (∀ shown, (listEntries (tabled tables calls) fuel ⟨before ++ (slots ++ entry :: rest), 0, 0⟩
          []).Outcome start (0, shown) finish →
        ((shown[(before.filter fun entry => Live entry).length]?).map FileInfo.name =
            some (oemName lfn) ↔
          lfn.length ≤ 253 ∧ ∀ live ∈ liveUpTo before entry, ¬Blank live)) ∧
      ∀ sourceDirname destinationDirname infos, CopyTurns (tabled tables calls) sourceDirname
          destinationDirname start ⟨before ++ (slots ++ entry :: rest), 0, 0⟩ infos finish →
        ((infos[(before.filter fun entry => Live entry).length]?).map FileInfo.name =
            some (oemName lfn) ↔
          lfn.length ≤ 253 ∧ ∀ live ∈ liveUpTo before entry, ¬Blank live)) ∧
    (source.Plain →
      (copyDir named fuel [0x30, 0x3a] [0x31, 0x3a]).Outcome (rebuildDrives source) 0 after →
      ∀ names table, source.Visited 0 names table → ∃ target, (after 1).Leads 0 names target ∧
        (after 1).labels target = copiedLabels (source.listing table) ∧
        ∀ place entry, (source.listing table)[place]? = some entry → LongName entry.lfn →
          entry.sfn.length = 11 → ∃ index found, (after 1).Finds target entry.shown index found ∧
            (found.shown = oemName entry.lfn ↔ entry.lfn.length ≤ 253 ∧
              Unmet (copiedLabels ((source.listing table).take place)) entry.shown)) := by
  constructor
  · intro lfn before slots entry rest long carries present place
    constructor
    · intro shown run
      obtain ⟨infos, rfl, readings⟩ := listEntries_readings run
      exact readings.name_iff long carries present place
    · intro sourceDirname destinationDirname infos turns
      exact turns.readings.name_iff long carries present place
  · intro plain run names table visited
    obtain ⟨target, leads, kept⟩ := (copyDir_kept plain run).visited visited
    exact ⟨target, leads, kept.labels, fun place entry => kept.kept place entry (Nat.zero_le place)⟩

/-- A file with the long name `foo bar.txt`. -/
def spaced : NamedVolume where
  entries
    | 0 => [⟨⟨[0x46, 0x4f, 0x4f, 0x42, 0x41, 0x52, 0x7e, 0x31, 0x54, 0x58, 0x54],
        [0x66, 0x6f, 0x6f, 0x20, 0x62, 0x61, 0x72, 0x2e, 0x74, 0x78, 0x74], false, false⟩,
        false, 0, [1]⟩]
    | _ => []
  fresh := 1

/-- The entries of a name of so many letters, in front of the short entry `A`. -/
def letterSlots (length : Nat) : List Buffer :=
  storedSlots (List.replicate length 0x61) (Ff.sumSfn ((fileEntry [0x41]).slice 0 11))
    (slotCount (List.replicate length 0x61))

theorem carries_letterSlots {length : Nat} (some : 0 < length) (few : length ≤ maxLfn) :
    Carries (List.replicate length 0x61) (letterSlots length) (fileEntry [0x41]) :=
  carries_stored (longName_replicate some few) (by decide) (by decide)

/-- A name of one letter is shown, and a copy keeps that of the file `foo bar.txt`. -/
theorem longNames_kept_iff_spaced :
    (∃ shown finish, (listEntries (tabled (fun _ => []) emptyCalls) 5
        ⟨[] ++ (letterSlots 1 ++ fileEntry [0x41] :: []), 0, 0⟩ []).Outcome ⟨fun _ => 0, 0⟩
          (0, shown) finish ∧
      (shown[0]?).map FileInfo.name = some (oemName (List.replicate 1 0x61))) ∧
    ∃ after, (copyDir named 5 [0x30, 0x3a] [0x31, 0x3a]).Outcome (rebuildDrives spaced) 0 after ∧
      ∀ entry, (spaced.listing 0)[0]? = some entry → ∃ target index found,
        (after 1).Leads 0 [] target ∧ (after 1).Finds target entry.shown index found ∧
          found.shown = oemName entry.lfn := by
  have lists : (listEntries (tabled (fun _ => []) emptyCalls) 5
      ⟨[] ++ (letterSlots 1 ++ fileEntry [0x41] :: []), 0, 0⟩ [] ⟨fun _ => 0, 0⟩).toOption.map
        (·.1.1) = some 0 := by decide +kernel
  have copies : (copyDir named 5 [0x30, 0x3a] [0x31, 0x3a] (rebuildDrives spaced)).toOption.map
      (·.1) = some 0 := by decide +kernel
  obtain ⟨⟨_, shown⟩, finish, run, rfl⟩ := Program.outcome_of_observed lists
  obtain ⟨_, after, copy, rfl⟩ := Program.outcome_of_observed copies
  have plain : spaced.Plain := by
    intro table entry member
    match table, member with
    | 0, member =>
      rw [List.mem_singleton.mp member]
      exact ⟨by decide, by decide, by decide +kernel⟩
  have few : ([] : List Buffer).length + (letterSlots 1).length < 2 ^ 16 := by decide +kernel
  have named : ∀ live ∈ liveUpTo [] (fileEntry [0x41]), ¬Blank live := by decide +kernel
  have kept := longNames_kept_iff (fun _ => []) emptyCalls spaced 5 ⟨fun _ => 0, 0⟩ finish after
  refine ⟨⟨shown, finish, run, ?_⟩, after, copy, fun entry here => ?_⟩
  · have shows := (kept.1 (List.replicate 1 0x61) [] (letterSlots 1) (fileEntry [0x41]) []
      (longName_replicate Nat.zero_lt_one (by decide)) (carries_letterSlots Nat.zero_lt_one
        (by decide)) (fun _ none => absurd none List.not_mem_nil) few).1 shown run
    exact shows.mpr ⟨by decide, named⟩
  · obtain ⟨target, leads, _, all⟩ := kept.2 plain copy [] 0 .here
    have same : entry = ⟨⟨[0x46, 0x4f, 0x4f, 0x42, 0x41, 0x52, 0x7e, 0x31, 0x54, 0x58, 0x54],
        [0x66, 0x6f, 0x6f, 0x20, 0x62, 0x61, 0x72, 0x2e, 0x74, 0x78, 0x74], false, false⟩,
        false, 0, [1]⟩ := (Option.some.inj here).symm
    have long : LongName entry.lfn := by
      rw [same]
      exact ⟨by decide, by decide, by decide, by decide, by decide⟩
    obtain ⟨index, found, finds, shows⟩ := all 0 entry here long (by rw [same]; rfl)
    refine ⟨target, index, found, leads, finds, shows.mpr ⟨by rw [same]; decide, ?_⟩⟩
    exact fun _ _ place looked => absurd looked.symm (Option.some_ne_none place)

/-- A name of 254 characters is not shown. -/
theorem not_longNames_kept :
    ¬ ∀ (tables : FatPath → List Buffer) (calls : TableCalls) (fuel : Nat)
      (start finish : TableState) (lfn : List Nat) (slots : List Buffer) (entry : Buffer)
      (shown : List FileInfo), LongName lfn → Carries lfn slots entry → ¬Blank entry →
      (listEntries (tabled tables calls) fuel ⟨[] ++ (slots ++ entry :: []), 0, 0⟩ []).Outcome start
        (0, shown) finish →
      (shown[0]?).map FileInfo.name = some (oemName lfn) := by
  intro always
  have lists : (listEntries (tabled (fun _ => []) emptyCalls) 5
      ⟨[] ++ (letterSlots 254 ++ fileEntry [0x41] :: []), 0, 0⟩ [] ⟨fun _ => 0, 0⟩).toOption.map
        (·.1) = some (0, [⟨[0x41], [], false⟩]) := by decide +kernel
  obtain ⟨_, finish, run, rfl⟩ := Program.outcome_of_observed lists
  have same := always (fun _ => []) emptyCalls 5 _ finish (List.replicate 254 0x61)
    (letterSlots 254)
    (fileEntry [0x41]) _ (longName_replicate (by decide) (by decide))
    (carries_letterSlots (by decide) (by decide)) (by decide) run
  have length := congrArg List.length (Option.some.inj same)
  rw [length_oemName, List.length_replicate] at length
  exact absurd length (by decide)

end Hdfmonkey
