/-
This file proves what `dir_register` leaves on a volume whose FAT shows what its owners
have: the new entry is at a place of the table that was free, the table has got the
clusters it needed for that, and the owners and the sectors of everything else are as they
were. The new entry has neither a start cluster nor a length.

The place is where the loop that reserves entries stops. The parts of the long name are
stored in front of it, from the first entry of the row that it counted.
-/

import Hdfmonkey.TableGrowth

namespace Hdfmonkey

namespace Ff

open Program

/-! ### Reserving -/

/-- An entry that a new one may take: it was deleted, or there was none. -/
def Vacant (entry : Buffer) : Prop := entry 0 = 0xE5 ∨ entry 0 = 0

instance (entry : Buffer) : Decidable (Vacant entry) := inferInstanceAs (Decidable (_ ∨ _))

section Registering

variable {Owner : Type} {vol : Nat} {volume : VolumeContainer} {size : Nat} {build : Build}
  {fmt : FatType} {counts : Prop} {fs : Fatfs} {disk : Nat → Buffer}
  {machine after : Machine} {allocation : Allocation Owner} {table : Owner}
  {start index : Nat} {dj dj' : Dir}

variable [DecidableEq Owner]

/-- The loop stops at the last of a row of entries that are free, by induction on its turns. -/
theorem reserveLoop_reserves {ne fuel n first reserved : Nat}
    (onDirectory : OnDirectory vol volume size build fmt counts fs disk machine allocation table
      start)
    (at' : AtSlot vol fs (allocation.clusters table) start dj index)
    (inside : index < tableLength fs (allocation.clusters table)) (small : index < 2 ^ 16)
    (row : 0 < n → first + n = index) (fewer : n < ne)
    (run : (reserveLoop ne fuel n first dj).Outcome machine (.ok, reserved, dj') after) :
    ∃ fs' disk' allocation' last,
      OnDirectory vol volume size build fmt counts fs' disk' after allocation' table start ∧
      AtSlot vol fs' (allocation'.clusters table) start dj' last ∧
      last < tableLength fs' (allocation'.clusters table) ∧ last < 2 ^ 16 ∧
      Extended table fs disk allocation fs' disk' allocation' ∧ reserved + ne = last + 1 ∧
      Vacant (tableSlot fs' (allocation'.clusters table) disk' last) ∧ dj'.fn = dj.fn := by
  induction fuel generalizing fs disk machine allocation index dj n first with
  | zero => exact absurd run outcome_undefined
  | succ fuel inductionHypothesis =>
    obtain ⟨win, wflag, looked, moved, onTableLooked, shows, _⟩ :=
      at'.looks onDirectory.onTable inside
    have looking := onDirectory.windowed onTableLooked.sees
    have number := at'.number
    have drive := at'.drive
    subst number drive
    rw [reserveLoop] at run
    obtain ⟨_, viewed, again, run⟩ := outcome_bind.mp run
    obtain ⟨rfl, rfl⟩ := again.unique moved
    rw [if_neg (not_not.mpr rfl), outcome_fatfs_bind onTableLooked.sees.registered] at run
    have used : Used fs { fs with win, winsect := dj.sect, wflag } := ⟨_, _, _, _, _, _, rfl⟩
    have onward {counted begun : Nat} (row : 0 < counted → begun + counted = dj.index + 1)
        (fewer : counted < ne)
        (rest : (do
          let next ← dirNext dj true
          if next.1 ≠ .ok then return (next.1, begun, next.2)
          reserveLoop ne fuel counted begun next.2 :
            Program Machine (FResult × Nat × Dir)).Outcome viewed (.ok, reserved, dj') after) :
        ∃ fs' disk' allocation' last,
          OnDirectory dj.fs volume size build fmt counts fs' disk' after allocation' table start ∧
          AtSlot dj.fs fs' (allocation'.clusters table) start dj' last ∧
          last < tableLength fs' (allocation'.clusters table) ∧ last < 2 ^ 16 ∧
          Extended table fs disk allocation fs' disk' allocation' ∧ reserved + ne = last + 1 ∧
          Vacant (tableSlot fs' (allocation'.clusters table) disk' last) ∧ dj'.fn = dj.fn := by
      obtain ⟨⟨res, next⟩, middle, stepped, rest⟩ := outcome_bind.mp rest
      by_cases failed : res ≠ .ok
      · rw [if_pos failed] at rest
        exact absurd (Prod.mk.inj (outcome_pure.mp rest).1).1.symm failed
      rw [if_neg failed] at rest
      obtain rfl := not_not.mp failed
      obtain ⟨small, fs₁, disk₁, allocation₁, onDirectory₁, at₁, inside₁, extended₁, name₁⟩ :=
        dirNext_steps looking { at' with } inside small stepped
      obtain ⟨fs₂, disk₂, allocation₂, last, onDirectory₂, at₂, inside₂, small₂, extended₂, sum,
        vacant, name₂⟩ := inductionHypothesis onDirectory₁ at₁ inside₁ small row fewer rest
      have positive : 0 < fs.csize := onDirectory.area.positive
      have extended := extended₁.trans extended₂ positive
      exact ⟨fs₂, disk₂, allocation₂, last, onDirectory₂, at₂, inside₂, small₂,
        ⟨used.trans extended.used, extended.others, extended.longer, extended.kept⟩, sum, vacant,
        name₂.trans name₁⟩
    have look : ∀ value, win dj.entry = value ↔
        tableSlot fs (allocation.clusters table) disk dj.index 0 = value := fun value => by
      rw [shows.first]
    dsimp only at run
    simp only [look] at run
    by_cases blank : tableSlot fs (allocation.clusters table) disk dj.index 0 = 0xE5 ∨
        tableSlot fs (allocation.clusters table) disk dj.index 0 = 0
    · simp only [blank, true_and, if_true] at run
      have counted : (if n = 0 then dj.index else first) + n = dj.index := by
        split_ifs with none
        · rw [none, Nat.add_zero]
        · exact row (Nat.pos_of_ne_zero none)
      by_cases enough : n + 1 = ne
      · rw [if_pos enough] at run
        obtain ⟨same, rfl⟩ := outcome_pure.mp run
        obtain ⟨-, rest⟩ := Prod.mk.inj same
        obtain ⟨rfl, rfl⟩ := Prod.mk.inj rest
        refine ⟨_, disk, allocation, dj'.index, looking, { at' with }, inside, small,
          ⟨used, fun _ _ => rfl, ⟨[], (List.append_nil _).symm⟩, fun _ _ _ => rfl⟩, ?_, blank, rfl⟩
        rw [← enough, ← Nat.add_assoc, counted]
      · rw [if_neg enough] at run
        exact onward (fun _ => by rw [← Nat.add_assoc, counted]) (by omega) run
    · simp only [blank, false_and, if_false] at run
      exact onward (fun some => absurd some (Nat.lt_irrefl _)) (Nat.zero_lt_of_lt fewer) run

/-! ### Storing -/

omit [DecidableEq Owner] in
/-- The window is at the sector of an entry and is changed there. -/
theorem OnDirectory.stores
    (onDirectory : OnDirectory vol volume size build fmt counts fs disk machine allocation table
      start)
    (at' : AtSlot vol fs (allocation.clusters table) start dj index)
    (inside : index < tableLength fs (allocation.clusters table)) :
    ∃ win wflag looked, (moveWindow dj.fs dj.sect).Outcome machine .ok looked ∧
      looked.fatFs dj.fs = some { fs with win, winsect := dj.sect, wflag } ∧
      dj.Shows win (tableSlot fs (allocation.clusters table) disk index) ∧
      ∀ change, OnDirectory vol volume size build fmt counts
        { fs with win := change, winsect := dj.sect, wflag := true }
        (Function.update disk dj.sect (cut change))
        (looked.register dj.fs (some { fs with win := change, winsect := dj.sect, wflag := true }))
        allocation table start := by
  obtain ⟨win, wflag, looked, moved, onTableLooked, shows, _⟩ :=
    at'.looks onDirectory.onTable inside
  have behind := (onDirectory.onTable.worked inside).2
  rw [← at'.sect] at behind
  have drive := at'.drive
  subst drive
  exact ⟨win, wflag, looked, moved, onTableLooked.sees.registered, shows,
    (onDirectory.windowed onTableLooked.sees).edited behind⟩

omit [DecidableEq Owner] in
/-- The parts of a long name are stored in as many entries, by induction on their number. -/
theorem storeLfn_steps {sum : UInt8} {ne : Nat}
    (onDirectory : OnDirectory vol volume size build fmt counts fs disk machine allocation table
      start)
    (at' : AtSlot vol fs (allocation.clusters table) start dj index)
    (inside : index < tableLength fs (allocation.clusters table)) (small : index < 2 ^ 16)
    (run : (storeLfn sum ne dj).Outcome machine (.ok, dj') after) :
    ∃ fs' disk',
      OnDirectory vol volume size build fmt counts fs' disk' after allocation table start ∧
      Used fs fs' ∧ AtSlot vol fs' (allocation.clusters table) start dj' (index + ne) ∧
      index + ne < tableLength fs' (allocation.clusters table) ∧ dj'.fn = dj.fn := by
  induction ne generalizing fs disk machine index dj with
  | zero =>
    obtain ⟨same, rfl⟩ := outcome_pure.mp run
    obtain rfl := (Prod.mk.inj same).2
    exact ⟨fs, disk, onDirectory, .refl, at', inside, rfl⟩
  | succ ne inductionHypothesis =>
    obtain ⟨win, wflag, looked, moved, registered, _, stores⟩ := onDirectory.stores at' inside
    have number := at'.number
    have drive := at'.drive
    subst number drive
    rw [storeLfn] at run
    obtain ⟨_, viewed, again, run⟩ := outcome_bind.mp run
    obtain ⟨rfl, rfl⟩ := again.unique moved
    rw [if_neg (not_not.mpr rfl)] at run
    obtain ⟨_, _, got, stored⟩ := outcome_bind.mp run
    have same := outcome_get.mp got
    rw [same.1, same.2, outcome_modifyFatfs_bind, registered, Option.map_some] at stored
    have storing := stores (fitLfn viewed.lfnBuf win dj.entry (ne + 1) sum)
    obtain ⟨⟨res, next⟩, middle, stepped, rest⟩ := outcome_bind.mp stored
    by_cases goes : dj.index + 1 < tableLength fs (allocation.clusters table) ∧
        dj.index + 1 < 2 ^ 16
    · obtain ⟨dj'', _, _, _, _, comes, onTableNext, atNext, same⟩ :=
        dirNext_comes false storing.onTable { at' with } goes.1 goes.2
      obtain ⟨result, rfl⟩ := stepped.unique comes
      obtain ⟨rfl, rfl⟩ := Prod.mk.inj result
      rw [if_neg (not_not.mpr rfl)] at rest
      obtain ⟨fs', disk', onDirectoryAfter, used, atAfter, insideAfter, name⟩ :=
        inductionHypothesis (storing.windowed onTableNext.sees) { atNext with } goes.1 goes.2 rest
      refine ⟨fs', disk', onDirectoryAfter, ?_, ?_, ?_, name.trans (by rw [same])⟩
      · exact .trans ⟨_, _, _, _, _, _, rfl⟩ used
      · rw [Nat.add_comm ne, ← Nat.add_assoc]
        exact atAfter
      · rw [Nat.add_comm ne, ← Nat.add_assoc]
        exact insideAfter
    · obtain ⟨dj'', _, _, _, _, ends, _⟩ :=
        dirNext_ends storing.onTable { at' with } inside
          (show tableLength fs (allocation.clusters table) ≤ dj.index + 1 ∨ _ by omega) small
      obtain ⟨result, rfl⟩ := stepped.unique ends
      obtain ⟨rfl, rfl⟩ := Prod.mk.inj result
      rw [if_pos (show ¬FResult.noFile = .ok by decide)] at rest
      exact absurd (Prod.mk.inj (outcome_pure.mp rest).1).1.symm (by decide)

omit [DecidableEq Owner] in
/-- The place of the short name is behind the parts of the long one. -/
theorem initLfn_steps {ne first : Nat}
    (onDirectory : OnDirectory vol volume size build fmt counts fs disk machine allocation table
      start)
    (at' : AtSlot vol fs (allocation.clusters table) start dj index)
    (inside : index < tableLength fs (allocation.clusters table)) (small : index < 2 ^ 16)
    (sum : first + ne = index + 1) (run : (initLfn ne first dj).Outcome machine (.ok, dj') after) :
    ∃ fs' disk',
      OnDirectory vol volume size build fmt counts fs' disk' after allocation table start ∧
      Used fs fs' ∧ AtSlot vol fs' (allocation.clusters table) start dj' index ∧
      dj'.fn = dj.fn := by
  rw [initLfn] at run
  split_ifs at run with long
  · have before : first < tableLength fs (allocation.clusters table) := by omega
    obtain ⟨sought, _, _, _, _, seeks, onTableSought, atFirst, same⟩ :=
      dirSeek_comes onDirectory.onTable at'.drive at'.sclust before
    obtain ⟨_, _, seeking, rest⟩ := outcome_bind.mp run
    obtain ⟨rfl, rfl⟩ := seeking.unique seeks
    rw [if_neg (not_not.mpr rfl)] at rest
    obtain ⟨fs', disk', onDirectoryAfter, used, atAfter, _, name⟩ :=
      storeLfn_steps (onDirectory.windowed onTableSought.sees) { atFirst with } before (by omega)
        rest
    rw [show first + (ne - 1) = index by omega] at atAfter
    exact ⟨fs', disk', onDirectoryAfter, .trans ⟨_, _, _, _, _, _, rfl⟩ used, atAfter,
      name.trans (by rw [same])⟩
  · obtain ⟨same, rfl⟩ := outcome_pure.mp run
    obtain rfl := (Prod.mk.inj same).2
    exact ⟨fs, disk, onDirectory, .refl, at', rfl⟩

/-- Behind its name and its flags the entry of a short name holds zeros. -/
theorem sfnEntry_blank {win : Buffer} {entry offset : Nat} {fn : List UInt8} {flags : UInt8}
    (eleven : fn.length = 11) (behind : 13 ≤ offset) (before : offset < 32) :
    ((win.fill entry 32 0).storeList entry fn).store (entry + dirNtres) flags (entry + offset) =
      0 := by
  rw [Buffer.store_of_ne _ _ (by rw [dirNtres]; omega), Buffer.storeList,
    Buffer.blit_above _ _ _ _ (by omega), Buffer.fill_inside _ _ _ _ (by omega) (by omega)]

omit [DecidableEq Owner] in
/-- The entry of a short name has neither a start cluster nor a length. -/
theorem initSfn_writes
    (onDirectory : OnDirectory vol volume size build fmt counts fs disk machine allocation table
      start)
    (at' : AtSlot vol fs (allocation.clusters table) start dj index)
    (inside : index < tableLength fs (allocation.clusters table))
    (eleven : dj.fn.fn.length = 11) (run : (initSfn dj).Outcome machine (.ok, dj') after) :
    ∃ fs' disk',
      OnDirectory vol volume size build fmt counts fs' disk' after allocation table start ∧
      Used fs fs' ∧ dj' = dj ∧ fs'.winsect = dj.sect ∧
      startCluster (disk' dj.sect) dj.entry = 0 ∧
      (disk' dj.sect).loadDword (dj.entry + dirFileSize) = 0 := by
  obtain ⟨win, wflag, looked, moved, registered, _, stores⟩ := onDirectory.stores at' inside
  have entry : dj.entry = index % 16 * 32 := by
    rw [Dir.entry, at'.dir]
    rfl
  rw [initSfn] at run
  obtain ⟨_, viewed, again, run⟩ := outcome_bind.mp run
  obtain ⟨rfl, rfl⟩ := again.unique moved
  rw [if_neg (not_not.mpr rfl), outcome_modifyFatfs_bind, registered, Option.map_some] at run
  obtain ⟨same, rfl⟩ := outcome_pure.mp run
  obtain rfl := (Prod.mk.inj same).2
  let change := ((win.fill dj'.entry 32 0).storeList dj'.entry dj'.fn.fn).store
    (dj'.entry + dirNtres) (ntFlags dj'.fn)
  have blank (offset : Nat) (behind : 13 ≤ offset) (before : offset < 32) :
      Function.update disk dj'.sect (cut change) dj'.sect (dj'.entry + offset) = 0 := by
    rw [Function.update_self, cut_inside (by rw [sectorSize]; omega)]
    exact sfnEntry_blank eleven behind before
  have word (offset : Nat) (behind : 13 ≤ offset) (before : offset + 1 < 32) :
      (Function.update disk dj'.sect (cut change) dj'.sect).loadWord (dj'.entry + offset) = 0 := by
    rw [Buffer.loadWord, blank offset behind (by omega), Nat.add_assoc,
      blank (offset + 1) (by omega) before]
    rfl
  refine ⟨_, _, stores change, ⟨_, _, _, _, _, _, rfl⟩, rfl, rfl, ?_, ?_⟩
  · rw [startCluster, dirFstClusHi, dirFstClusLo, word 20 (by decide) (by decide),
      word 26 (by decide) (by decide), Nat.zero_mul]
  · rw [Buffer.loadDword, dirFileSize, Nat.add_assoc, word 28 (by decide) (by decide),
      word 30 (by decide) (by decide), Nat.mul_zero]

/-- `dir_register` leaves the new entry at a place that was free. -/
theorem dirRegister_registers
    (onDirectory : OnDirectory vol volume size build fmt counts fs disk machine allocation table
      start)
    (drive : dj.fs = vol) (sclust : dj.sclust = start) (eleven : dj.fn.fn.length = 11)
    (run : (dirRegister dj).Outcome machine (.ok, dj') after) :
    ∃ fs' disk' allocation' index,
      OnDirectory vol volume size build fmt counts fs' disk' after allocation' table start ∧
      AtSlot vol fs' (allocation'.clusters table) start dj' index ∧
      index < tableLength fs' (allocation'.clusters table) ∧ Used fs fs' ∧
      (∀ other, other ≠ table → allocation'.clusters other = allocation.clusters other) ∧
      (Occupied fs allocation dj'.sect →
        disk dj'.sect dj'.entry = 0xE5 ∨ disk dj'.sect dj'.entry = 0) ∧
      fs'.winsect = dj'.sect ∧ startCluster (disk' dj'.sect) dj'.entry = 0 ∧
      (disk' dj'.sect).loadDword (dj'.entry + dirFileSize) = 0 := by
  obtain ⟨numbered, chosen, choosing, run⟩ := outcome_bind.mp run
  obtain ⟨⟨win, winsect, wflag, onTableChosen⟩, drive, sclust, eleven⟩ :=
    chooseSfn_walks onDirectory.onTable drive sclust onDirectory.nonempty eleven choosing
  have choosing := onDirectory.windowed onTableChosen.sees
  by_cases failed : numbered.1 ≠ .ok
  · rw [if_pos failed] at run
    exact absurd (congrArg Prod.fst (outcome_pure.mp run).1).symm failed
  rw [if_neg failed] at run
  -- the row of entries
  obtain ⟨sought, _, _, _, _, seeks, onTableSought, atFirst, same⟩ :=
    dirSeek_comes choosing.onTable drive sclust choosing.nonempty
  obtain ⟨_, _, seeking, run⟩ := outcome_bind.mp run
  obtain ⟨rfl, rfl⟩ := seeking.unique seeks
  rw [if_neg (not_not.mpr rfl)] at run
  obtain ⟨⟨res, first, reserved⟩, _, reserving, run⟩ := outcome_bind.mp run
  by_cases refused : res ≠ .ok
  · rw [if_pos refused] at run
    exact absurd (congrArg Prod.fst (outcome_pure.mp run).1).symm refused
  rw [if_neg refused] at run
  obtain rfl := not_not.mp refused
  have several : 0 < entriesOf dj.fn := by
    rw [entriesOf]
    split_ifs
    · omega
    · exact Nat.one_pos
  obtain ⟨fs₁, disk₁, allocation', last, onDirectory₁, at₁, inside₁, small₁, extended, sum, vacant,
    name₁⟩ := reserveLoop_reserves (choosing.windowed onTableSought.sees) { atFirst with }
      choosing.nonempty (by decide) (fun some => absurd some (Nat.lt_irrefl _)) several reserving
  -- the parts of the long name and the short one
  obtain ⟨⟨res, long⟩, _, storing, run⟩ := outcome_bind.mp run
  by_cases broken : res ≠ .ok
  · rw [if_pos broken] at run
    exact absurd (congrArg Prod.fst (outcome_pure.mp run).1).symm broken
  rw [if_neg broken] at run
  obtain rfl := not_not.mp broken
  obtain ⟨fs₂, disk₂, onDirectory₂, used₂, at₂, name₂⟩ :=
    initLfn_steps onDirectory₁ at₁ inside₁ small₁ sum storing
  have length : tableLength fs₂ (allocation'.clusters table) =
      tableLength fs₁ (allocation'.clusters table) := by
    obtain ⟨_, _, _, _, _, _, rfl⟩ := used₂
    rfl
  have name : long.fn = numbered.2.fn := name₂.trans (name₁.trans (by rw [same]))
  obtain ⟨fs', disk', onDirectory', used', rfl, there, begins, size⟩ :=
    initSfn_writes onDirectory₂ at₂ (length ▸ inside₁)
      (by rw [name]; exact eleven (not_not.mp failed)) run
  have atAfter : AtSlot vol fs' (allocation'.clusters table) start dj' last := by
    obtain ⟨_, _, _, _, _, _, rfl⟩ := used'
    exact { at₂ with }
  have lengthAfter : tableLength fs' (allocation'.clusters table) =
      tableLength fs₁ (allocation'.clusters table) := by
    obtain ⟨_, _, _, _, _, _, rfl⟩ := used'
    exact length
  refine ⟨fs', disk', allocation', last, onDirectory', atAfter, lengthAfter ▸ inside₁, ?_,
    extended.others, fun occupied => ?_, there, begins, size⟩
  · exact (Used.trans ⟨_, _, _, _, _, _, rfl⟩ extended.used).trans (used₂.trans used')
  · have behind := (onDirectory₁.onTable.worked inside₁).2
    have sector : dj'.sect = tableSector fs₁ (allocation'.clusters table) (last / 16) := by
      obtain ⟨_, _, _, _, _, _, rfl⟩ := used₂
      exact at₂.sect
    have place : dj'.entry = last % 16 * 32 := by
      rw [Dir.entry, at₂.dir]
      rfl
    have outside : OutsideFat fs dj'.sect := by
      refine (extended.used.outside _).mp (.inr ?_)
      rw [sector]
      exact (Nat.add_le_add_left (Nat.le_mul_of_pos_left _ onDirectory₁.allots.sees.one) _).trans
        behind
    have kept := extended.kept _ outside occupied
    rw [← kept, sector, place]
    exact vacant

end Registering

end Ff

end Hdfmonkey
