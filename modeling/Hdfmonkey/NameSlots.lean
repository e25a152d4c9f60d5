/-
This file compares the slots that a name takes in a copy with those it took on the source.

The destination makes its entry from the name that `f_readdir` shows. A long name comes
back with at most as many characters. A short name of ASCII characters comes back as a
short name, whatever the flags for its case: `create_name` finds nothing lost and no mixed
case in it. But an extended character forces a long name, so an entry that had none takes
a second slot.
-/

import Hdfmonkey.ClusterVolume
import Hdfmonkey.NoOverwrite
import Mathlib.Data.List.TakeWhile

namespace Hdfmonkey

/-- The characters of a short name: no small letter, no space, dot or separator, and nothing that is
illegal. The value 0x05 stands for 0xE5. -/
def shortChar (c : UInt8) : Bool :=
  c = 0x05 || 0x20 < c && !(0x61 ≤ c && c ≤ 0x7a) && !(c = 0x2e || c = 0x2f || c = 0x5c) &&
    !(illegalLfn.contains c.toNat || illegalSfn.contains c.toNat)

/-- A short name as FAT implementations write it: eleven bytes, padded with spaces. -/
structure ShortName (sfn : List UInt8) : Prop where
  length : sfn.length = 11
  nonempty : sfn.head? ≠ some 0x20
  chars : ∀ c ∈ sfn, c = 0x20 ∨ shortChar c = true

/-- A short name with an extended character and no long name beside it. -/
def Label.extended (label : Label) : Bool :=
  label.lfn = [] && label.sfn.any fun c => c = 0x05 || 0x80 ≤ c

/-- The slots that an entry takes in a copy at most. -/
def Label.copySlots (label : Label) : Nat :=
  label.slots + if label.extended then 1 else 0

/-! ### Short names of ASCII characters -/

/-- The bit that a letter sets in the cases of its section. -/
def caseBit (lower : Bool) : Nat := if lower then 1 else 2

/-- A character of a short name in the long name that `create_name` makes of it. -/
structure ShownChar (lower : Bool) (w : Nat) : Prop where
  visible : 0x20 < w
  ascii : w < 0x80
  noDot : w ≠ 0x2e
  legal : w ∉ illegalSfn
  upperCase : lower = true → ¬ (0x41 ≤ w ∧ w ≤ 0x5a)
  lowerCase : lower = false → ¬ (0x61 ≤ w ∧ w ≤ 0x7a)

/-- Nothing was lost so far, and the section has letters of one case only. -/
structure SfnState.Plain (state : SfnState) (start bit : Nat) : Prop where
  loss : state.loss = false
  long : state.long = false
  cases : state.b = start ∨ state.b = start ||| bit

section Chars

variable {lower : Bool} {state : SfnState} {start : Nat}

theorem put_plain {w : Nat} (shown : ShownChar lower w)
    (plain : state.Plain start (caseBit lower)) :
    (state.put w).Plain start (caseBit lower) ∧ (state.put w).i = state.i + 1 ∧
      (state.put w).ni = state.ni := by
  obtain ⟨visible, ascii, _, legal, upperCase, lowerCase⟩ := shown
  have small : ¬ w ≥ 0x80 := by omega
  have fine : ¬ (w = 0 ∨ w ∈ illegalSfn) := not_or.mpr ⟨by omega, legal⟩
  rw [SfnState.put, if_neg small]
  dsimp only
  rw [if_neg small, if_neg fine, if_neg fine]
  refine ⟨⟨plain.loss, plain.long, ?_⟩, rfl, rfl⟩
  have again : ∀ bit, start ||| bit ||| bit = start ||| bit := fun bit => by
    rw [Nat.or_assoc, Nat.or_self]
  dsimp only
  cases lower with
  | true =>
    rw [if_neg (upperCase rfl)]
    split_ifs
    · rcases plain.cases with same | set
      · rw [same]
        exact .inr rfl
      · rw [set]
        exact .inr (again 1)
    · exact plain.cases
  | false =>
    rw [if_neg (lowerCase rfl)]
    split_ifs
    · rcases plain.cases with same | set
      · rw [same]
        exact .inr rfl
      · rw [set]
        exact .inr (again 2)
    · exact plain.cases

theorem foldl_put_plain {chars : List Nat} (shown : ∀ w ∈ chars, ShownChar lower w)
    (plain : state.Plain start (caseBit lower)) :
    (chars.foldl SfnState.put state).Plain start (caseBit lower) ∧
      (chars.foldl SfnState.put state).i = state.i + chars.length ∧
      (chars.foldl SfnState.put state).ni = state.ni := by
  induction chars generalizing state with
  | nil => exact ⟨plain, rfl, rfl⟩
  | cons w chars inductionHypothesis =>
    obtain ⟨first, others⟩ := List.forall_mem_cons.mp shown
    obtain ⟨kept, place, section_⟩ := put_plain first plain
    obtain ⟨kept, places, sections⟩ := inductionHypothesis others kept
    refine ⟨kept, ?_, sections.trans section_⟩
    rw [List.foldl_cons, places, place, List.length_cons]
    omega

/-- The loop of `create_name` takes the characters of a section one by one. -/
theorem createSfn_chars {before chars after : List Nat} {di fuel : Nat}
    (shown : ∀ w ∈ chars, ShownChar lower w) (room : state.i + chars.length ≤ state.ni)
    (apart : di ≤ before.length ∨ before.length + chars.length < di)
    (plain : state.Plain start (caseBit lower)) :
    createSfn (before ++ chars ++ after) di (fuel + chars.length) before.length state =
      createSfn (before ++ chars ++ after) di fuel (before.length + chars.length)
        (chars.foldl SfnState.put state) := by
  induction chars generalizing before state with
  | nil => rfl
  | cons w chars inductionHypothesis =>
    obtain ⟨first, others⟩ := List.forall_mem_cons.mp shown
    obtain ⟨kept, place, section_⟩ := put_plain first plain
    rw [List.length_cons] at room apart
    have here : (before ++ w :: chars ++ after)[before.length]? = some w := by
      rw [List.append_assoc, List.getElem?_append_right (Nat.le_refl _), Nat.sub_self]
      rfl
    have visible : ¬ (w = 0x20 ∨ w = 0x2e ∧ before.length + 1 ≠ di) := by
      have visible := first.visible
      have noDot := first.noDot
      omega
    have inside : ¬ (state.i ≥ state.ni ∨ before.length + 1 = di) := by omega
    have turn : createSfn (before ++ w :: chars ++ after) di (fuel + chars.length + 1)
        before.length state = createSfn (before ++ w :: chars ++ after) di (fuel + chars.length)
          (before.length + 1) (state.put w) := by
      rw [createSfn, here]
      dsimp only
      rw [if_neg visible, if_neg inside]
    have whole : before ++ w :: chars ++ after = (before ++ [w]) ++ chars ++ after := by
      rw [List.append_assoc before [w]]
      rfl
    have length : (before ++ [w]).length = before.length + 1 := List.length_append
    have rest := @inductionHypothesis (state.put w) (before ++ [w]) others (by omega)
      (by omega) kept
    rw [length, ← whole] at rest
    rw [List.length_cons, ← Nat.add_assoc, turn, rest, Nat.add_right_comm, Nat.add_assoc]
    rfl

end Chars

section Sections

variable {body ext : List Nat} {lowerBody lowerExt : Bool}

/-- The loop ends behind the last character. -/
theorem createSfn_ends {lfn : List Nat} {di fuel : Nat} {state : SfnState} :
    createSfn lfn di fuel lfn.length state = state := by
  cases fuel with
  | zero => rfl
  | succ fuel => rw [createSfn, List.getElem?_eq_none (Nat.le_refl _)]

/-- A name without a dot. -/
theorem createSfn_body {state : SfnState} (shown : ∀ w ∈ body, ShownChar lowerBody w)
    (room : state.i + body.length ≤ state.ni) (plain : state.Plain 0 (caseBit lowerBody)) :
    (createSfn body 0 (body.length + 1) 0 state).Plain 0 (caseBit lowerBody) ∧
      (createSfn body 0 (body.length + 1) 0 state).ni = state.ni := by
  have turns := @createSfn_chars _ _ _ [] body [] 0 1 shown room (.inl (Nat.le_refl 0)) plain
  rw [List.nil_append, List.append_nil, List.length_nil, Nat.zero_add, createSfn_ends,
    Nat.add_comm] at turns
  obtain ⟨kept, _, section_⟩ := foldl_put_plain shown plain
  rw [turns]
  exact ⟨kept, section_⟩

/-- A name with a dot between its sections. -/
theorem createSfn_ext {state : SfnState} (shown : ∀ w ∈ body, ShownChar lowerBody w)
    (shownExt : ∀ w ∈ ext, ShownChar lowerExt w) (first : state.ni = 8)
    (room : state.i + body.length ≤ state.ni) (roomExt : ext.length ≤ 3)
    (plain : state.Plain 0 (caseBit lowerBody)) :
    ∃ start, (start = 0 ∨ start = caseBit lowerBody <<< 2) ∧
      (createSfn (body ++ 0x2e :: ext) (body.length + 1) ((body ++ 0x2e :: ext).length + 1) 0
        state).Plain start (caseBit lowerExt) ∧
      (createSfn (body ++ 0x2e :: ext) (body.length + 1) ((body ++ 0x2e :: ext).length + 1) 0
        state).ni = 11 := by
  have turns := @createSfn_chars _ _ _ [] body (0x2e :: ext) (body.length + 1) (ext.length + 2)
    shown room (.inr (by rw [List.length_nil, Nat.zero_add]; exact Nat.lt_succ_self _)) plain
  rw [List.nil_append, List.length_nil, Nat.zero_add] at turns
  obtain ⟨kept, _, section_⟩ := foldl_put_plain shown plain
  generalize body.foldl SfnState.put state = folded at *
  have fuel : (body ++ 0x2e :: ext).length + 1 = ext.length + 2 + body.length := by
    rw [List.length_append, List.length_cons]
    omega
  -- the dot
  have dot : (body ++ 0x2e :: ext)[body.length]? = some 0x2e := by
    rw [List.getElem?_append_right (Nat.le_refl _), Nat.sub_self]
    rfl
  have enters : createSfn (body ++ 0x2e :: ext) (body.length + 1) (ext.length + 2) body.length
      folded = createSfn (body ++ 0x2e :: ext) (body.length + 1) (ext.length + 1)
        (body.length + 1) { folded with i := 8, ni := 11, b := folded.b <<< 2 } := by
    rw [createSfn, dot]
    dsimp only
    rw [if_neg (by simp), if_pos (.inr rfl), if_neg (by omega), if_neg (not_not.mpr rfl),
      if_neg (Nat.lt_irrefl _)]
  rw [fuel, turns, enters]
  -- the extension
  have entered : SfnState.Plain { folded with i := 8, ni := 11, b := folded.b <<< 2 }
      (folded.b <<< 2) (caseBit lowerExt) := ⟨kept.loss, kept.long, .inl rfl⟩
  have rest := @createSfn_chars _ _ _ (body ++ [0x2e]) ext [] (body.length + 1) 1 shownExt
    (by dsimp only; omega) (.inl (by rw [List.length_append]; rfl)) entered
  have whole : body ++ [0x2e] ++ ext ++ [] = body ++ 0x2e :: ext := by
    rw [List.append_nil, List.append_assoc]
    rfl
  have before : (body ++ [0x2e]).length = body.length + 1 := List.length_append
  have behind : body.length + 1 + ext.length = (body ++ 0x2e :: ext).length := by
    rw [List.length_append, List.length_cons]
    omega
  rw [whole, before, behind, createSfn_ends, Nat.add_comm 1] at rest
  obtain ⟨keptExt, _, sectionExt⟩ := foldl_put_plain shownExt entered
  rw [rest]
  refine ⟨folded.b <<< 2, ?_, keptExt, sectionExt⟩
  rcases kept.cases with same | same
  · rw [same]
    exact .inl rfl
  · rw [same, Nat.zero_or]
    exact .inr rfl

/-- Letters of one case in each section leave no composite capitals. -/
theorem simple_capitals {start b : Nat} (begins : start = 0 ∨ start = caseBit lowerBody <<< 2)
    (goesOn : b = start ∨ b = start ||| caseBit lowerExt) :
    (b &&& 0x0c == 0x0c) = false ∧ (b &&& 0x03 == 0x03) = false := by
  rcases begins with rfl | rfl <;> rcases goesOn with rfl | rfl <;> cases lowerBody <;>
    cases lowerExt <;> decide

end Sections

/-- A section of a name as characters. -/
def sectionChars (lower : Bool) (bytes : List UInt8) : List Nat :=
  (shownPart lower bytes).map UInt8.toNat

theorem sectionChars_ne_nil {lower : Bool} {bytes : List UInt8} (begins : bytes.head? ≠ some 0x20)
    (some : 0 < bytes.length) : sectionChars lower bytes ≠ [] := by
  obtain ⟨c, others, rfl⟩ := List.exists_cons_of_ne_nil (List.length_pos_iff.mp some)
  have visible : c ≠ 0x20 := fun same => begins (congrArg Option.some same)
  rw [sectionChars, shownPart,
    List.takeWhile_cons_of_pos (p := fun c : UInt8 => c ≠ 0x20) (decide_eq_true visible)]
  exact List.cons_ne_nil _ _

/-- A character of a short name, in upper or lower case. -/
theorem shownChar_of_short {lower : Bool} {c : UInt8} (short : shortChar c = true)
    (ascii : ¬ (c = 0x05 ∨ 0x80 ≤ c)) :
    ShownChar lower (if lower ∧ 0x41 ≤ c ∧ c ≤ 0x5a then c + 0x20 else c).toNat := by
  obtain ⟨notKanji, low⟩ := not_or.mp ascii
  simp only [shortChar, Bool.or_eq_true, Bool.and_eq_true, decide_eq_true_eq, Bool.not_eq_true',
    Bool.or_eq_false_iff, Bool.and_eq_false_iff, decide_eq_false_iff_not, notKanji, false_or,
    illegalLfn, illegalSfn, List.contains_eq_mem, List.mem_cons, List.not_mem_nil, or_false,
    not_or] at short
  obtain ⟨⟨⟨visible, notSmall⟩, notDot, _⟩, _, legal⟩ := short
  simp only [UInt8.le_iff_toNat_le, UInt8.lt_iff_toNat_lt, ← UInt8.toNat_inj,
    UInt8.reduceToNat] at *
  split_ifs with raised
  · have sum : (c + 0x20).toNat = c.toNat + 32 := by
      rw [UInt8.toNat_add]
      exact Nat.mod_eq_of_lt (show c.toNat + 32 < 256 by omega)
    rw [sum]
    refine ⟨by omega, by omega, by omega, ?_, fun _ => by omega, fun upper => ?_⟩
    · simp only [illegalSfn, List.mem_cons, List.not_mem_nil, or_false]
      omega
    · exact absurd (upper.symm.trans raised.1) Bool.false_ne_true
  · refine ⟨visible, by omega, notDot.1, ?_, fun lower => ?_, fun _ => by omega⟩
    · simp only [illegalSfn, List.mem_cons, List.not_mem_nil, or_false]
      omega
    · exact fun letter => raised ⟨lower, letter⟩

/-- The characters of a part of a short name, as it is shown. -/
theorem shownChar_of_part {lower : Bool} {bytes : List UInt8}
    (chars : ∀ c ∈ bytes, c = 0x20 ∨ shortChar c = true)
    (ascii : ∀ c ∈ bytes, ¬ (c = 0x05 ∨ 0x80 ≤ c)) :
    ∀ w ∈ sectionChars lower bytes, ShownChar lower w := by
  intro w member
  obtain ⟨shown, inside, rfl⟩ := List.mem_map.mp member
  obtain ⟨c, taken, rfl⟩ := List.mem_map.mp inside
  have listed : c ∈ bytes := (List.takeWhile_prefix _).subset taken
  have visible := List.mem_takeWhile_imp (p := fun c : UInt8 => c ≠ 0x20) taken
  exact shownChar_of_short ((chars c listed).resolve_left (of_decide_eq_true visible))
    (ascii c listed)

/-- What `create_name` makes of a name that has nothing to strip. -/
theorem createLfn_unstripped {segment : List UInt8} {others lfn : List Nat} {w : Nat}
    (chars : (segment.map fun b => oemToUnicode b.toNat) = others ++ [w])
    (visible : blankOrDot w = false) (created : createLfn segment = some lfn) :
    lfn = others ++ [w] := by
  rw [createLfn, chars] at created
  split_ifs at created
  obtain rfl := Option.some.inj created
  rw [List.reverse_append, List.reverse_singleton, List.singleton_append,
    List.dropWhile_cons_of_neg (by rw [visible]; exact Bool.false_ne_true), List.reverse_cons,
    List.reverse_reverse]

theorem map_oemToUnicode_ascii {segment : List UInt8} (ascii : ∀ b ∈ segment, b < 0x80) :
    (segment.map fun b => oemToUnicode b.toNat) = segment.map UInt8.toNat :=
  List.map_congr_left fun b member => if_pos (UInt8.lt_iff_toNat_lt.mp (ascii b member))

theorem ShownChar.notBlank {lower : Bool} {w : Nat} (shown : ShownChar lower w) :
    blankOrDot w = false := by
  have visible := shown.visible
  have noDot := shown.noDot
  rw [blankOrDot, Bool.or_eq_false_iff]
  exact ⟨decide_eq_false (by omega), decide_eq_false noDot⟩

theorem takeWhile_shown {lower : Bool} {chars rest : List Nat}
    (shown : ∀ w ∈ chars, ShownChar lower w) (some : chars ≠ []) :
    (chars ++ rest).takeWhile blankOrDot = [] := by
  obtain ⟨w, others, rfl⟩ := List.exists_cons_of_ne_nil some
  have first := (shown w List.mem_cons_self).notBlank
  exact List.takeWhile_cons_of_neg (by rw [first]; exact Bool.false_ne_true)

/-- The dot in front of the extension is the last one. -/
theorem takeWhile_extension {lower : Bool} {chars : List Nat}
    (shown : ∀ w ∈ chars, ShownChar lower w) :
    chars.reverse.takeWhile (· ≠ 0x2e) = chars.reverse := by
  refine List.takeWhile_eq_self_iff.mpr fun w member => ?_
  exact decide_eq_true (shown w (List.mem_reverse.mp member)).noDot

section Created

variable {segment : List UInt8} {body ext : List Nat} {lowerBody lowerExt : Bool} {name : Name}

/-- The state in which the loop of `create_name` ends. -/
def lastState (lfn : List Nat) : SfnState :=
  let si := (lfn.takeWhile blankOrDot).length
  createSfn lfn (lfn.length - (lfn.reverse.takeWhile (· ≠ 0x2e)).length) (lfn.length + 1) si
    ⟨List.replicate 11 0x20, 0, 8, 0, si ≠ 0, si ≠ 0⟩

/-- The cases of the letters of both sections, when the loop of `create_name` has ended. -/
def lastCases (lfn : List Nat) : Nat :=
  if (lastState lfn).ni = 8 then (lastState lfn).b <<< 2 else (lastState lfn).b

/-- A name in the terms of this state. A long name is made if something needed one or if the
capitals are composite. -/
theorem createName_fields (created : createName segment = some name) :
    createLfn segment = some name.lfn ∧
      name.fn = (if (lastState name.lfn).fn.head? = some 0xe5 then
        (lastState name.lfn).fn.set 0 0x05 else (lastState name.lfn).fn) ∧
      name.long = ((lastState name.lfn).long || lastCases name.lfn &&& 0x0c == 0x0c ||
        lastCases name.lfn &&& 0x03 == 0x03) ∧
      name.body = (!name.long && lastCases name.lfn &&& 0x0c == 0x04) ∧
      name.ext = (!name.long && lastCases name.lfn &&& 0x03 == 0x01) := by
  rw [createName] at created
  split at created
  · cases created
  · rename_i lfn long
    obtain rfl := Option.some.inj created
    exact ⟨long, rfl, rfl, rfl, rfl⟩

/-- A name without an extension needs no long name. -/
theorem createName_body (ascii : ∀ b ∈ segment, b < 0x80) (chars : segment.map UInt8.toNat = body)
    (shown : ∀ w ∈ body, ShownChar lowerBody w) (nonempty : body ≠ []) (short : body.length ≤ 8)
    (created : createName segment = some name) : name.long = false := by
  obtain ⟨long, _, same, _⟩ := createName_fields created
  have last := List.dropLast_concat_getLast nonempty
  have whole : name.lfn = body :=
    (createLfn_unstripped ((map_oemToUnicode_ascii ascii).trans (chars.trans last.symm))
      (shown _ (List.getLast_mem nonempty)).notBlank long).trans last
  have begins := @takeWhile_shown _ _ [] shown nonempty
  rw [List.append_nil] at begins
  have noDot : body.length - (body.reverse.takeWhile (· ≠ 0x2e)).length = 0 := by
    rw [takeWhile_extension shown, List.length_reverse, Nat.sub_self]
  have started : SfnState.Plain ⟨List.replicate 11 0x20, 0, 8, 0, false, false⟩ 0
      (caseBit lowerBody) := ⟨rfl, rfl, .inl rfl⟩
  have ends : (lastState body).Plain 0 (caseBit lowerBody) ∧ (lastState body).ni = 8 := by
    rw [lastState, begins, noDot]
    exact createSfn_body shown (by simpa using short) started
  obtain ⟨kept, section_⟩ := ends
  have bits : lastCases body = 0 ∨ lastCases body = caseBit lowerBody <<< 2 := by
    rw [lastCases, if_pos section_]
    rcases kept.cases with none | set
    · exact .inl (by rw [none]; rfl)
    · exact .inr (by rw [set, Nat.zero_or])
  obtain ⟨composite, compositeExt⟩ := @simple_capitals lowerBody lowerBody _ _ bits (.inl rfl)
  rw [same, whole, kept.long, composite, compositeExt]
  rfl

/-- Nor does one with a body and an extension. -/
theorem createName_ext (ascii : ∀ b ∈ segment, b < 0x80)
    (chars : segment.map UInt8.toNat = body ++ 0x2e :: ext)
    (shown : ∀ w ∈ body, ShownChar lowerBody w) (nonempty : body ≠ []) (short : body.length ≤ 8)
    (shownExt : ∀ w ∈ ext, ShownChar lowerExt w) (nonemptyExt : ext ≠ [])
    (shortExt : ext.length ≤ 3) (created : createName segment = some name) :
    name.long = false := by
  obtain ⟨long, _, same, _⟩ := createName_fields created
  have last := List.dropLast_concat_getLast nonemptyExt
  have whole : body ++ 0x2e :: ext = (body ++ 0x2e :: ext.dropLast) ++
    [ext.getLast nonemptyExt] := by
    rw [List.append_assoc, List.cons_append, last]
  have unstripped : name.lfn = body ++ 0x2e :: ext :=
    (createLfn_unstripped ((map_oemToUnicode_ascii ascii).trans (chars.trans whole))
      (shownExt _ (List.getLast_mem nonemptyExt)).notBlank long).trans whole.symm
  have begins := @takeWhile_shown _ _ (0x2e :: ext) shown nonempty
  have dot : (body ++ 0x2e :: ext).length -
      ((body ++ 0x2e :: ext).reverse.takeWhile (· ≠ 0x2e)).length = body.length + 1 := by
    have behind : (body ++ 0x2e :: ext).reverse.takeWhile (· ≠ 0x2e) = ext.reverse := by
      rw [List.reverse_append, List.reverse_cons, List.append_assoc,
        List.takeWhile_append_of_pos fun w member =>
          decide_eq_true (shownExt w (List.mem_reverse.mp member)).noDot,
        List.singleton_append, List.takeWhile_cons_of_neg (by decide), List.append_nil]
    rw [behind, List.length_reverse, List.length_append, List.length_cons]
    omega
  have started : SfnState.Plain ⟨List.replicate 11 0x20, 0, 8, 0, false, false⟩ 0
      (caseBit lowerBody) := ⟨rfl, rfl, .inl rfl⟩
  have ends : ∃ start, (start = 0 ∨ start = caseBit lowerBody <<< 2) ∧
      (lastState (body ++ 0x2e :: ext)).Plain start (caseBit lowerExt) ∧
        (lastState (body ++ 0x2e :: ext)).ni = 11 := by
    rw [lastState, begins, dot]
    exact createSfn_ext shown shownExt rfl (by simpa using short) shortExt started
  obtain ⟨start, first, kept, section_⟩ := ends
  have capitals : lastCases (body ++ 0x2e :: ext) = (lastState (body ++ 0x2e :: ext)).b := by
    rw [lastCases, section_, if_neg (by decide)]
  obtain ⟨composite, compositeExt⟩ := simple_capitals first kept.cases
  rw [same, unstripped, capitals, kept.long, composite, compositeExt]
  rfl

end Created

/-! ### The slots of a name in a copy -/

section Slots

variable {entry : DirEntry} {labels : List Label} {label : Label} {name : Name}

/-- A short name is shown with twelve characters at most. -/
theorem length_fname_le (eleven : entry.sfn.length = 11) : (fileInfo entry).fname.length ≤ 12 := by
  have body := length_shownPart_le entry.body
    ((entry.sfn.take 8).map fun c => if c = 0x05 then 0xe5 else c)
  have ext := length_shownPart_le entry.ext (entry.sfn.drop 8)
  rw [List.length_map, List.length_take] at body
  rw [List.length_drop] at ext
  dsimp only [fileInfo]
  rw [List.length_append]
  split_ifs
  · rw [List.length_nil]
    omega
  · rw [List.length_cons]
    omega

/-- A name is shown as the long one with all its characters, or as the short one. -/
theorem length_shown_le (short : ShortName entry.sfn) :
    entry.shown.length ≤ max entry.lfn.length 12 := by
  rw [DirEntry.shown, FileInfo.name]
  split_ifs
  · dsimp only [fileInfo]
    rw [shownLfn]
    split_ifs
    · rw [List.length_map]
      exact Nat.le_max_left _ _
    · exact Nat.zero_le _
    · exact Nat.zero_le _
  · exact (length_fname_le short.length).trans (Nat.le_max_right _ _)

/-- A short name of ASCII characters is shown as one that needs no long name. -/
theorem createName_shown (short : ShortName entry.sfn) (noLfn : entry.lfn = [])
    (ascii : entry.extended = false) (created : createName entry.shown = some name) :
    name.long = false := by
  rw [Label.extended, noLfn, decide_eq_true rfl, Bool.true_and, List.any_eq_false] at ascii
  have plain : ∀ c ∈ entry.sfn, ¬ (c = 0x05 ∨ 0x80 ≤ c) := by
    intro c member
    have low := ascii c member
    rwa [Bool.not_eq_true, Bool.or_eq_false_iff, decide_eq_false_iff_not, decide_eq_false_iff_not,
      ← not_or] at low
  have chars : ∀ bytes ⊆ entry.sfn, ∀ lower, ∀ w ∈ sectionChars lower bytes, ShownChar lower w :=
    fun bytes inside lower => shownChar_of_part (fun c member => short.chars c (inside member))
      fun c member => plain c (inside member)
  have kanji : (entry.sfn.take 8).map (fun c => if c = 0x05 then 0xe5 else c) =
      entry.sfn.take 8 := by
    refine (List.map_congr_left fun c member => ?_).trans (List.map_id _)
    exact if_neg (not_or.mp (plain c (List.take_subset _ _ member))).1
  have shown : entry.shown = shownPart entry.body (entry.sfn.take 8) ++
      if entry.sfn[8]? = some 0x20 then []
      else 0x2e :: shownPart entry.ext (entry.sfn.drop 8) := by
    have noLong : (fileInfo entry).lfname = [] := by
      dsimp only [fileInfo]
      rw [noLfn]
      rfl
    rw [DirEntry.shown, FileInfo.name, if_neg (not_not.mpr noLong)]
    dsimp only [fileInfo]
    rw [kanji]
  have charsBody := chars _ (List.take_subset 8 _) entry.body
  have charsExt := chars _ (List.drop_subset 8 _) entry.ext
  have low : ∀ {lower : Bool} {bytes : List UInt8},
      (∀ w ∈ sectionChars lower bytes, ShownChar lower w) →
        ∀ b ∈ shownPart lower bytes, b < 0x80 := fun fine b member =>
    UInt8.lt_iff_toNat_lt.mpr (fine _ (List.mem_map_of_mem member)).ascii
  have length := short.length
  have nonempty : sectionChars entry.body (entry.sfn.take 8) ≠ [] :=
    sectionChars_ne_nil (by rw [List.head?_take, if_neg (by decide)]; exact short.nonempty)
      (by rw [List.length_take]; omega)
  have shortBody : (sectionChars entry.body (entry.sfn.take 8)).length ≤ 8 := by
    rw [sectionChars, List.length_map]
    exact (length_shownPart_le _ _).trans (List.length_take_le _ _)
  have shortExt : (sectionChars entry.ext (entry.sfn.drop 8)).length ≤ 3 := by
    rw [sectionChars, List.length_map]
    exact (length_shownPart_le _ _).trans (by rw [List.length_drop]; omega)
  rw [shown] at created
  split_ifs at created with noExt
  · rw [List.append_nil] at created
    exact createName_body (low charsBody) rfl charsBody nonempty shortBody created
  · have nonemptyExt : sectionChars entry.ext (entry.sfn.drop 8) ≠ [] :=
      sectionChars_ne_nil (by rw [List.head?_drop]; exact noExt)
        (by rw [List.length_drop]; omega)
    refine createName_ext ?_ ?_ charsBody nonempty shortBody charsExt nonemptyExt shortExt created
    · exact List.forall_mem_append.mpr ⟨low charsBody, List.forall_mem_cons.mpr
        ⟨by decide, low charsExt⟩⟩
    · rw [List.map_append, List.map_cons]
      rfl

/-- The slots of a name that `dir_register` makes an entry for. -/
theorem slots_of_dirRegister (created : createName entry.shown = some name)
    (registered : dirRegister labels name = some label) :
    label.slots = if name.long then (name.lfn.length + 25) / 13 else 1 := by
  obtain ⟨_, nonempty, _⟩ := createName_spec created
  rw [dirRegister] at registered
  split at registered
  · cases registered
  · obtain rfl := Option.some.inj registered
    rw [Label.slots]
    dsimp only
    cases name.long with
    | true => exact if_neg nonempty
    | false => rfl

/-- An entry takes no more slots in a copy than on the source, or one more if it has an extended
short name only. -/
theorem slots_le (short : ShortName entry.sfn) (admits : Admits labels entry.shown label) :
    label.slots ≤ entry.copySlots := by
  obtain ⟨name, created, _, registered⟩ := admits
  obtain ⟨_, _, length⟩ := createName_spec created
  have shown := length_shown_le short
  rw [slots_of_dirRegister created registered, Label.copySlots, Label.slots]
  by_cases noLfn : entry.lfn = []
  · rw [if_pos noLfn]
    cases ascii : entry.extended with
    | false =>
      rw [createName_shown short noLfn ascii created]
      exact Nat.le_refl 1
    | true =>
      rw [noLfn, List.length_nil] at shown
      rw [if_pos rfl]
      split_ifs <;> omega
  · have some := List.length_pos_iff.mpr noLfn
    rw [if_neg noLfn]
    split_ifs <;> omega

end Slots

end Hdfmonkey
