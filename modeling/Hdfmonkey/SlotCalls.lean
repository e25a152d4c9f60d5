/-
This file states what the calls of a put do to a volume of slots: which entries a
registration leaves in place, where a look-up stops afterwards, and that nothing of it
depends on the bytes of the files.
-/

import Hdfmonkey.NamedPaths
import Hdfmonkey.SlotVolume

namespace Hdfmonkey

open NamedVolume

/-! ### Free slots -/

section Slots

variable {slots new : List DirSlot} {start index : Nat}

/-- The slots that are reserved are free, by induction on those that are still to be looked at. -/
theorem reserveLoop_free {ne n : Nat} {front : List DirSlot}
    (counted : n ≠ 0 → start + n = front.length ∧
      ∀ place < front.length, start ≤ place → front[place]? = some .free) :
    reserveLoop ne slots front.length n start ≤ (front ++ slots).length ∧
      ∀ place < reserveLoop ne slots front.length n start + ne,
        reserveLoop ne slots front.length n start ≤ place →
        ∀ slot, (front ++ slots)[place]? = some slot → slot = .free := by
  induction slots generalizing front n start with
  | nil =>
    rw [reserveLoop, List.append_nil]
    split_ifs with none
    · refine ⟨Nat.le_refl _, fun place _ behind slot present => ?_⟩
      exact absurd (List.getElem?_eq_some_iff.mp present).1 (Nat.not_lt.mpr behind)
    · obtain ⟨length, free⟩ := counted none
      refine ⟨by omega, fun place _ behind slot present => ?_⟩
      have inside := (List.getElem?_eq_some_iff.mp present).1
      exact (Option.some.inj ((free place inside behind).symm.trans present)).symm
  | cons slot slots inductionHypothesis =>
    have longer : (front ++ [slot]).length = front.length + 1 := by
      rw [List.length_append, List.length_singleton]
    have spelled : front ++ slot :: slots = front ++ [slot] ++ slots := by
      rw [List.append_assoc, List.singleton_append]
    rw [reserveLoop, spelled, ← longer]
    dsimp only
    split_ifs with free full first first
    · -- a run of one slot
      refine ⟨by rw [List.length_append]; omega, fun place below behind slot' present => ?_⟩
      obtain rfl : place = front.length := by omega
      rw [List.append_assoc, List.getElem?_append_right (Nat.le_refl _), Nat.sub_self] at present
      exact (Option.some.inj present).symm.trans free
    · -- the last slot of a longer run
      obtain ⟨length, run⟩ := counted first
      refine ⟨by rw [List.length_append]; omega, fun place below behind slot' present => ?_⟩
      by_cases last : place = front.length
      · subst last
        rw [List.append_assoc, List.getElem?_append_right (Nat.le_refl _), Nat.sub_self] at present
        exact (Option.some.inj present).symm.trans free
      · have inside : place < front.length := by omega
        rw [List.append_assoc, List.getElem?_append_left inside, run place inside behind] at present
        exact (Option.some.inj present).symm
    · refine inductionHypothesis fun _ => ⟨by omega, fun place below behind => ?_⟩
      obtain rfl : place = front.length := by omega
      rw [List.getElem?_concat_length, free]
    · obtain ⟨length, run⟩ := counted first
      refine inductionHypothesis fun _ => ⟨by omega, fun place below behind => ?_⟩
      by_cases last : place = front.length
      · rw [last, List.getElem?_concat_length, free]
      · have inside : place < front.length := by omega
        rw [List.getElem?_append_left inside, run place inside behind]
    · exact inductionHypothesis fun some => absurd rfl some

theorem getElem?_overwrite (inside : start ≤ slots.length) :
    (overwrite slots start new)[index]? =
      if index < start then slots[index]?
      else if index < start + new.length then new[index - start]? else slots[index]? := by
  have front : (slots.take start).length = start := List.length_take_of_le inside
  rw [overwrite]
  split_ifs with before within
  · rw [List.append_assoc, List.getElem?_append_left (by omega), List.getElem?_take_of_lt before]
  · rw [List.getElem?_append_left (by rw [List.length_append]; omega),
      List.getElem?_append_right (by omega), front]
  · rw [List.getElem?_append_right (by rw [List.length_append]; omega), List.length_append, front,
      List.getElem?_drop]
    congr 1
    omega

end Slots

theorem slots_pos (label : Label) : 0 < label.slots := by
  rw [Label.slots]
  split_ifs with none
  · exact Nat.one_pos
  · have := List.length_pos_iff.mpr none
    omega

section NewSlots

variable {entry : DirEntry}

theorem length_newSlots : entry.newSlots.length = entry.slots := by
  have some := slots_pos entry.toLabel
  rw [DirEntry.newSlots, List.length_append, List.length_replicate, List.length_singleton]
  omega

/-- The entry is in the last of its slots, and no other holds one. -/
theorem getElem?_newSlots {index : Nat} {found : DirEntry}
    (present : entry.newSlots[index]? = some (.entry found)) :
    index = entry.slots - 1 ∧ found = entry := by
  rw [DirEntry.newSlots, List.getElem?_append, List.length_replicate] at present
  split_ifs at present with inside
  · rw [List.getElem?_replicate_of_lt inside] at present
    cases present
  · rw [List.getElem?_singleton] at present
    split_ifs at present with first
    obtain rfl := DirSlot.entry.inj (Option.some.inj present)
    exact ⟨by omega, rfl⟩

theorem getElem?_newSlots_last : entry.newSlots[entry.slots - 1]? = some (.entry entry) := by
  rw [DirEntry.newSlots, List.getElem?_append_right (by rw [List.length_replicate]),
    List.length_replicate, Nat.sub_self]
  rfl

end NewSlots

namespace SlotVolume

variable {volume before after : SlotVolume} {table index : Nat} {place other : SlotPlace}
  {entry found : DirEntry} {path : FatPath}

/-! ### Entries at their places -/

theorem entryAt_iff :
    volume.entryAt place = some entry ↔ (volume.slots place.1)[place.2]? = some (.entry entry) := by
  rw [entryAt]
  constructor
  · intro present
    split at present
    · rename_i kept slot
      rw [slot, Option.some.inj present]
    · cases present
  · intro slot
    rw [slot]

theorem entryAt_eq_none :
    volume.entryAt place = none ↔
      ∀ entry, (volume.slots place.1)[place.2]? ≠ some (.entry entry) := by
  rw [Option.eq_none_iff_forall_ne_some]
  exact forall_congr' fun entry => not_congr entryAt_iff

theorem slots_change (inside : table < volume.tables.length)
    {change : List DirSlot → List DirSlot} :
    (volume.change table change).slots table = change (volume.slots table) := by
  rw [slots, SlotVolume.change, List.getD_eq_getElem?_getD, List.getElem?_modify_eq, slots,
    List.getD_eq_getElem?_getD, List.getElem?_eq_getElem inside]
  rfl

theorem slots_change_of_ne {other : Nat} (different : other ≠ table)
    {change : List DirSlot → List DirSlot} :
    (volume.change table change).slots other = volume.slots other := by
  rw [slots, SlotVolume.change, List.getD_eq_getElem?_getD,
    List.getElem?_modify_ne _ _ (Ne.symm different), slots, List.getD_eq_getElem?_getD]

/-- The second volume has a new entry at a place where the first has none, and the others. If the
entry is a directory, then it has no entries. -/
structure Adds (before after : SlotVolume) (place : SlotPlace) (entry : DirEntry) : Prop where
  made : after.entryAt place = some entry
  vacant : before.entryAt place = none
  others : ∀ other ≠ place, after.entryAt other = before.entryAt other
  hollow : entry.isDir = true → ∀ index, after.entryAt (entry.table, index) = none

theorem Adds.keeps (adds : Adds before after place entry)
    (present : before.entryAt other = some found) : after.entryAt other = some found := by
  by_cases same : other = place
  · rw [same, adds.vacant] at present
    cases present
  · rw [adds.others other same, present]

/-- An entry is registered in slots that were free. -/
theorem register_adds (registered : volume.register table entry = .ok (place, after)) :
    table < volume.tables.length ∧ after.tables.length = volume.tables.length ∧
      after.entryAt place = some entry ∧ volume.entryAt place = none ∧
        ∀ other ≠ place, after.entryAt other = volume.entryAt other := by
  rw [register] at registered
  split_ifs at registered with inside
  obtain ⟨rfl, rfl⟩ := Prod.mk.inj (Except.ok.inj registered)
  have some := slots_pos entry.toLabel
  obtain ⟨bound, free⟩ := @reserveLoop_free (volume.slots table) 0 entry.slots 0 []
    fun some => absurd rfl some
  rw [List.nil_append, List.length_nil] at bound free
  generalize reserveLoop entry.slots (volume.slots table) 0 0 0 = start at *
  have slot (index : Nat) : ((volume.change table fun slots =>
      overwrite slots start entry.newSlots).slots table)[index]? = _ :=
    (congrArg (fun slots : List DirSlot => slots[index]?) (slots_change inside)).trans
      (getElem?_overwrite bound)
  rw [length_newSlots] at slot
  refine ⟨inside, List.length_modify _ _ _, ?_, ?_, fun other different => ?_⟩
  · rw [entryAt_iff, slot, if_neg (by omega), if_pos (by omega)]
    rw [show start + entry.slots - 1 - start = entry.slots - 1 by omega]
    exact getElem?_newSlots_last
  · rw [entryAt_eq_none]
    intro found present
    exact absurd (free _ (by omega) (by omega) _ present) (by simp)
  · refine Option.ext fun found => ?_
    rw [entryAt_iff, entryAt_iff]
    by_cases here : other.1 = table
    · rw [here, slot]
      split_ifs with below within
      · rfl
      · constructor
        · intro new
          obtain ⟨last, _⟩ := getElem?_newSlots new
          exact absurd (Prod.ext here (by omega)) different
        · intro present
          exact absurd (free _ within (Nat.not_lt.mp below) _ present) (by simp)
      · rfl
    · rw [slots_change_of_ne here]

/-! ### Look-ups -/

/-- A slot that is no entry has no name that a path could have. -/
theorem not_matches_of_seen {slot : DirSlot} {segment : FatPath} {name : Name}
    (created : createName segment = some name) (noEntry : ∀ entry, slot ≠ .entry entry) :
    slot.seen.matches name = false := by
  have eleven := length_fn created
  have unmatched : (Label.mk [] [] false false).matches name = false := by
    rw [Label.matches, decide_eq_false_iff_not]
    rintro (⟨some, _⟩ | ⟨_, same⟩)
    · exact some rfl
    · rw [← same] at eleven
      exact absurd eleven (by decide)
  cases slot with
  | free => exact unmatched
  | part => exact unmatched
  | entry kept => exact absurd rfl (noEntry kept)

/-- A look-up stops at the first entry that its name matches. -/
theorem dirFind_seen_iff {segment : FatPath} {name : Name}
    (created : createName segment = some name) :
    dirFind (volume.seen.labels table) name = some index ↔
      (∃ entry, volume.entryAt (table, index) = some entry ∧ entry.matches name = true) ∧
        ∀ before < index, ∀ entry, volume.entryAt (table, before) = some entry →
          entry.matches name = false := by
  have label (place : Nat) : (volume.seen.labels table)[place]? =
      (volume.slots table)[place]?.map fun slot => slot.seen.toLabel := by
    show (((volume.slots table).map DirSlot.seen).map DirEntry.toLabel)[place]? = _
    rw [List.getElem?_map, List.getElem?_map, Option.map_map]
    rfl
  have stops (place : Nat) : (∃ found, (volume.seen.labels table)[place]? = some found ∧
      found.matches name = true) ↔
      ∃ entry, volume.entryAt (table, place) = some entry ∧ entry.matches name = true := by
    rw [label]
    constructor
    · rintro ⟨found, present, matched⟩
      obtain ⟨slot, here, rfl⟩ := Option.map_eq_some_iff.mp present
      cases slot with
      | free => exact absurd (matched.symm.trans (not_matches_of_seen created nofun)) nofun
      | part => exact absurd (matched.symm.trans (not_matches_of_seen created nofun)) nofun
      | entry kept => exact ⟨kept, entryAt_iff.mpr here, matched⟩
    · rintro ⟨kept, present, matched⟩
      exact ⟨kept.toLabel, by rw [entryAt_iff.mp present]; rfl, matched⟩
  rw [dirFind, List.findIdx?_eq_some_iff_getElem, ← stops]
  constructor
  · rintro ⟨inside, matched, earlier⟩
    refine ⟨⟨_, List.getElem?_eq_getElem inside, matched⟩, fun place before entry present => ?_⟩
    refine Bool.eq_false_iff.mpr fun matched' => ?_
    obtain ⟨found, here, stopped⟩ := (stops place).mpr ⟨entry, present, matched'⟩
    obtain ⟨within, rfl⟩ := List.getElem?_eq_some_iff.mp here
    exact earlier place before stopped
  · rintro ⟨⟨found, here, matched⟩, earlier⟩
    obtain ⟨inside, rfl⟩ := List.getElem?_eq_some_iff.mp here
    refine ⟨inside, matched, fun place before stopped => ?_⟩
    obtain ⟨entry, present, matched'⟩ :=
      (stops place).mp ⟨_, List.getElem?_eq_getElem (before.trans inside), stopped⟩
    exact absurd matched' (by rw [earlier place before entry present]; decide)

theorem directory_seen : (volume.seen.entries table)[index]? = some entry ∧ entry.isDir = true ↔
    volume.entryAt (table, index) = some entry ∧ entry.isDir = true := by
  refine and_congr_left fun directory => ?_
  rw [entryAt_iff]
  show ((volume.slots table).map DirSlot.seen)[index]? = some entry ↔ _
  rw [List.getElem?_map, Option.map_eq_some_iff]
  constructor
  · rintro ⟨slot, present, rfl⟩
    cases slot with
    | free => exact absurd directory (by decide)
    | part => exact absurd directory (by decide)
    | entry kept => exact present
  · exact fun present => ⟨_, present, rfl⟩

/-- A look-up stops where it stopped before, or at the new entry. -/
theorem Adds.finds {segment : FatPath} {name : Name} (adds : Adds before after place entry)
    (created : createName segment = some name)
    (found : dirFind (after.seen.labels table) name = some index) :
    (table, index) = place ∨ dirFind (before.seen.labels table) name = some index := by
  by_cases new : (table, index) = place
  · exact .inl new
  · rw [dirFind_seen_iff created] at found ⊢
    obtain ⟨⟨kept, present, matched⟩, earlier⟩ := found
    rw [adds.others _ new] at present
    exact .inr ⟨⟨kept, present, matched⟩,
      fun other below kept' present' => earlier other below kept' (adds.keeps present')⟩

/-- No path leads to an entry of a directory without entries. -/
theorem followSegments_hollow {fuel : Nat} {target : SlotPlace}
    (hollow : ∀ index, volume.entryAt (table, index) = none) :
    followSegments volume.seen fuel table path ≠ .ok (.entry target.1 target.2) := by
  intro follows
  cases fuel with
  | zero => cases follows
  | succ fuel =>
    rw [followSegments] at follows
    cases created : createName (path.takeWhile fun b => !endsSegment b) with
    | none =>
      rw [created] at follows
      cases follows
    | some name =>
      have missing : dirFind (volume.seen.labels table) name = none := by
        refine Option.eq_none_iff_forall_ne_some.mpr fun index found => ?_
        obtain ⟨⟨kept, present, _⟩, _⟩ := (dirFind_seen_iff created).mp found
        rw [hollow] at present
        cases present
      rw [created] at follows
      dsimp only at follows
      rw [missing] at follows
      dsimp only at follows
      split_ifs at follows
      cases follows

/-- A path that leads to an entry led there before, or the entry is the new one, by induction on the
turns of the loop. -/
theorem Adds.followSegments {fuel : Nat} {target : SlotPlace}
    (adds : Adds before after place entry)
    (follows : followSegments after.seen fuel table path = .ok (.entry target.1 target.2)) :
    target = place ∨
      followSegments before.seen fuel table path = .ok (.entry target.1 target.2) := by
  induction fuel generalizing table path with
  | zero => cases follows
  | succ fuel inductionHypothesis =>
    rw [Hdfmonkey.followSegments] at follows ⊢
    split at follows
    · cases follows
    · rename_i name created
      split at follows
      · split_ifs at follows
        cases follows
      · rename_i index found
        rcases adds.finds created found with new | found'
        · split_ifs at follows with last
          · obtain ⟨rfl, rfl⟩ := Followed.entry.inj (Except.ok.inj follows)
            exact .inl new
          · split at follows
            · rename_i kept present
              split_ifs at follows with directory
              obtain ⟨made, _⟩ := directory_seen.mp ⟨present, directory⟩
              rw [new, adds.made] at made
              obtain rfl := Option.some.inj made
              exact absurd follows (followSegments_hollow (adds.hollow directory))
            · cases follows
        · rw [found']
          dsimp only
          split_ifs at follows ⊢ with last
          · exact .inr follows
          · split at follows
            · rename_i kept present
              split_ifs at follows with directory
              obtain ⟨made, _⟩ := directory_seen.mp ⟨present, directory⟩
              by_cases new : (table, index) = place
              · rw [new, adds.made] at made
                obtain rfl := Option.some.inj made
                exact absurd follows (followSegments_hollow (adds.hollow directory))
              · rw [adds.others _ new] at made
                obtain ⟨present', _⟩ := directory_seen.mpr ⟨made, directory⟩
                rw [present']
                dsimp only
                rw [if_pos directory]
                exact inductionHypothesis follows
            · cases follows

theorem Adds.followPath {target : SlotPlace} (adds : Adds before after place entry)
    (follows : followPath after.seen path = .ok (.entry target.1 target.2)) :
    target = place ∨ followPath before.seen path = .ok (.entry target.1 target.2) := by
  rw [Hdfmonkey.followPath] at follows ⊢
  split_ifs at follows ⊢
  all_goals first
    | exact adds.followSegments follows
    | cases follows

/-! ### Bytes -/

end SlotVolume

/-- A slot without the bytes of its file. -/
def DirSlot.bare (slot : DirSlot) : DirSlot := slot.store []

namespace SlotVolume

variable {volume before after : SlotVolume} {table index : Nat} {place other : SlotPlace}
  {entry found : DirEntry} {path : FatPath} {content : List UInt8}

/-- A volume without the bytes of its files. -/
def bare (volume : SlotVolume) : SlotVolume := ⟨volume.tables.map (List.map DirSlot.bare)⟩

theorem seen_bare (slot : DirSlot) : slot.bare.seen = skeleton slot.seen := by
  cases slot <;> rfl

theorem bare_free {slot : DirSlot} : slot.bare = .free ↔ slot = .free := by
  cases slot with
  | free => exact iff_of_true rfl rfl
  | part => exact iff_of_false nofun nofun
  | entry kept => exact iff_of_false nofun nofun

theorem slots_bare : volume.bare.slots table = (volume.slots table).map DirSlot.bare := by
  rw [slots, bare, List.getD_eq_getElem?_getD, List.getElem?_map, slots,
    List.getD_eq_getElem?_getD]
  cases volume.tables[table]? <;> rfl

theorem entryAt_bare : volume.bare.entryAt place = (volume.entryAt place).map skeleton := by
  rw [entryAt, slots_bare, List.getElem?_map, entryAt]
  cases (volume.slots place.1)[place.2]? with
  | none => rfl
  | some slot => cases slot <;> rfl

theorem entries_bare : volume.bare.seen.entries table =
    (volume.seen.entries table).map skeleton := by
  show (volume.bare.slots table).map DirSlot.seen =
    ((volume.slots table).map DirSlot.seen).map skeleton
  rw [slots_bare, List.map_map, List.map_map]
  exact congrArg (fun seen => (volume.slots table).map seen) (funext seen_bare)

theorem labels_bare : volume.bare.seen.labels table = volume.seen.labels table := by
  rw [NamedVolume.labels, entries_bare, List.map_map]
  rfl

/-- Look-ups do not depend on bytes, by induction on the turns of the loop. -/
theorem followSegments_bare {fuel : Nat} : followSegments volume.bare.seen fuel table path =
    followSegments volume.seen fuel table path := by
  induction fuel generalizing table path with
  | zero => rfl
  | succ fuel inductionHypothesis =>
    rw [Hdfmonkey.followSegments, Hdfmonkey.followSegments]
    split
    · rfl
    · rename_i name _
      rw [labels_bare]
      cases dirFind (volume.seen.labels table) name with
      | none => rfl
      | some index =>
        dsimp only
        split_ifs
        · rfl
        · rw [entries_bare, List.getElem?_map]
          cases (volume.seen.entries table)[index]? with
          | none => rfl
          | some entry =>
            show (if entry.isDir then _ else _) = if entry.isDir then _ else _
            rw [inductionHypothesis]
            rfl

theorem followPath_bare : followPath volume.bare.seen path = followPath volume.seen path := by
  rw [Hdfmonkey.followPath, Hdfmonkey.followPath, followSegments_bare]

theorem reserveLoop_bare {ne n start : Nat} {slots : List DirSlot} :
    reserveLoop ne (slots.map DirSlot.bare) index n start = reserveLoop ne slots index n start := by
  induction slots generalizing index n start with
  | nil => rfl
  | cons slot slots inductionHypothesis =>
    rw [List.map_cons, reserveLoop, reserveLoop]
    simp only [bare_free, inductionHypothesis]

theorem map_modify {α β : Type} {list : List α} {f : α → α} {f' : β → β} {g : α → β}
    (same : ∀ a, g (f a) = f' (g a)) (index : Nat) :
    (list.modify index f).map g = (list.map g).modify index f' := by
  refine List.ext_getElem? fun place => ?_
  rw [List.getElem?_map, List.getElem?_modify, List.getElem?_modify, List.getElem?_map]
  cases list[place]? with
  | none => rfl
  | some a =>
    show some (g (if _ then _ else _)) = some (if _ then _ else _)
    split_ifs
    · rw [same]
    · rfl

theorem bare_change {change change' : List DirSlot → List DirSlot}
    (same : ∀ slots, (change slots).map DirSlot.bare = change' (slots.map DirSlot.bare)) :
    (volume.change table change).bare = volume.bare.change table change' :=
  congrArg SlotVolume.mk (map_modify same table)

theorem bare_store : (volume.store place content).bare = volume.bare := by
  have same (slots : List DirSlot) :
      (slots.modify place.2 (DirSlot.store content)).map DirSlot.bare = slots.map DirSlot.bare := by
    rw [@map_modify _ _ _ _ id DirSlot.bare fun slot => by cases slot <;> rfl, List.modify_id]
  rw [store, @bare_change _ _ _ id same]
  exact congrArg SlotVolume.mk (List.modify_id _ _)

theorem newSlots_bare (noBytes : entry.content = []) :
    entry.newSlots.map DirSlot.bare = entry.newSlots := by
  have same : DirSlot.bare (.entry entry) = .entry entry := by
    obtain ⟨_, _, _, _⟩ := entry
    cases noBytes
    rfl
  rw [DirEntry.newSlots, List.map_append, List.map_replicate, List.map_singleton, same]
  rfl

theorem overwrite_bare {slots new : List DirSlot} {start : Nat} :
    (overwrite slots start new).map DirSlot.bare =
      overwrite (slots.map DirSlot.bare) start (new.map DirSlot.bare) := by
  rw [overwrite, overwrite, List.map_append, List.map_append, List.map_take, List.map_drop,
    List.length_map]

theorem register_bare (noBytes : entry.content = []) : volume.bare.register table entry =
    (volume.register table entry).map fun made => (made.1, made.2.bare) := by
  rw [register, register, slots_bare, reserveLoop_bare]
  have count : volume.bare.tables.length = volume.tables.length := List.length_map _
  rw [count]
  split_ifs
  · generalize reserveLoop entry.slots (volume.slots table) 0 0 0 = start
    have changed := @bare_change volume table (overwrite · start entry.newSlots)
      (overwrite · start entry.newSlots)
      fun slots => overwrite_bare.trans (by rw [newSlots_bare noBytes])
    exact congrArg (fun made => Except.ok (_, made)) changed.symm
  · rfl

theorem openDir_bare : volume.bare.openDir path = volume.openDir path := by
  rw [openDir, openDir, followPath_bare]
  cases followPath volume.seen path with
  | error code => rfl
  | ok followed =>
    cases followed with
    | root => rfl
    | missing table name => rfl
    | entry table index =>
      dsimp only
      rw [entryAt_bare]
      cases volume.entryAt (table, index) <;> rfl

theorem fMkdir_bare : volume.bare.fMkdir path = (volume.fMkdir path).map bare := by
  rw [fMkdir, fMkdir, followPath_bare]
  cases followPath volume.seen path with
  | error code => rfl
  | ok followed =>
    cases followed with
    | root => rfl
    | entry table index => rfl
    | missing table name =>
      dsimp only
      rw [labels_bare]
      cases dirRegister (volume.seen.labels table) name with
      | none => rfl
      | some label =>
        have count : volume.bare.tables.length = volume.tables.length := List.length_map _
        dsimp only
        rw [count, register_bare rfl]
        cases volume.register table ⟨label, true, volume.tables.length, []⟩ with
        | error code => rfl
        | ok made =>
          have same : made.2.bare.tables ++ [[DirSlot.part, DirSlot.part]] =
              (made.2.tables ++ [[DirSlot.part, DirSlot.part]]).map (List.map DirSlot.bare) := by
            rw [List.map_append]
            rfl
          exact congrArg (fun tables => Except.ok (SlotVolume.mk tables)) same

/-! ### What the calls do -/

/-- `f_open` of a file to be written: a new entry, or one that is there without its bytes. -/
theorem openAlways_cases (opens : volume.openAlways path = .ok (place, after)) :
    (∃ table name entry, followPath volume.seen path = .ok (.missing table name) ∧
      entry.isDir = false ∧ Adds volume after place entry) ∨
    ∃ entry, followPath volume.seen path = .ok (.entry place.1 place.2) ∧
      volume.entryAt place = some entry ∧ entry.isDir = false ∧ after = volume.store place [] := by
  rw [openAlways] at opens
  cases follows : followPath volume.seen path with
  | error code =>
    rw [follows] at opens
    cases opens
  | ok followed =>
    rw [follows] at opens
    cases followed with
    | root => cases opens
    | missing table name =>
      dsimp only at opens
      split at opens
      · cases opens
      · obtain ⟨_, _, made, vacant, others⟩ := register_adds opens
        exact .inl ⟨table, name, _, rfl, rfl, made, vacant, others, nofun⟩
    | entry table index =>
      dsimp only at opens
      split at opens
      · cases opens
      · rename_i entry present
        split_ifs at opens with directory
        obtain ⟨rfl, rfl⟩ := Prod.mk.inj (Except.ok.inj opens)
        exact .inr ⟨entry, rfl, present, Bool.eq_false_iff.mpr directory, rfl⟩

/-- A directory that has no entries shows none. -/
theorem entryAt_append {tables : List (List DirSlot)} :
    (SlotVolume.mk (tables ++ [[.part, .part]])).entryAt place =
      (SlotVolume.mk tables).entryAt place := by
  refine Option.ext fun found => ?_
  rw [entryAt_iff, entryAt_iff, slots, slots, List.getD_eq_getElem?_getD,
    List.getD_eq_getElem?_getD, List.getElem?_append]
  split_ifs with inside
  · rfl
  · rw [List.getElem?_eq_none (Nat.not_lt.mp inside), List.getElem?_singleton]
    split_ifs
    · refine iff_of_false (fun present => ?_) nofun
      have member := List.mem_of_getElem? present
      simp at member
    · rfl

/-- `f_mkdir` adds a directory without entries. -/
theorem fMkdir_adds (makes : volume.fMkdir path = .ok after) :
    ∃ place entry, entry.isDir = true ∧ Adds volume after place entry := by
  rw [fMkdir] at makes
  split at makes
  · cases makes
  · cases makes
  · cases makes
  · split at makes
    · cases makes
    · split at makes
      · cases makes
      · rename_i label _ _ made registers
        obtain rfl := Except.ok.inj makes
        obtain ⟨_, count, present, vacant, others⟩ := register_adds registers
        refine ⟨made.1, _, rfl, entryAt_append.trans present, vacant,
          fun other different => entryAt_append.trans (others other different), fun _ index => ?_⟩
        refine entryAt_append.trans ?_
        rw [entryAt_eq_none]
        intro found inside
        rw [slots, List.getD_eq_getElem?_getD, List.getElem?_eq_none (Nat.le_of_eq count)] at inside
        cases inside

end SlotVolume

end Hdfmonkey
