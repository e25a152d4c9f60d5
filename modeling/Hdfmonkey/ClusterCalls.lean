/-
This file says what the operations on clusters and slots do.

The search of `create_chain` goes through the clusters in a fixed order, each of them
once, and takes the first that is free; so it fails only where no cluster is free. A step
of `dir_register` through a table, and a write to a file, succeed if the clusters in use
and those still to come are no more than there are.
-/

import Hdfmonkey.NameSlots
import Mathlib.Order.Interval.Finset.Nat

namespace Hdfmonkey

/-- The slots of a cluster. -/
def Shape.clusterSlots (shape : Shape) : Nat := sectorSize / 32 * shape.csize

/-- The clusters of a chain are those of the volume. -/
def Shape.Holds (shape : Shape) (chain : List Nat) : Prop :=
  ∀ c ∈ chain, 2 ≤ c ∧ c < shape.maxClust

theorem Shape.holds_nil {shape : Shape} : shape.Holds [] := fun _ => nofun

namespace ClusterVolume

/-! ### The search for a free cluster -/

section Search

variable {used : Finset Nat} {mcl scl fuel ncl c : Nat}

/-- The search behind the wrap-around ends at the cluster it began behind. -/
theorem searchFree_wrapped (inside : 1 ≤ ncl) (before : ncl < scl) (bounded : scl < mcl)
    (enough : scl - ncl ≤ fuel) :
    searchFree used mcl scl fuel ncl = (List.range' (ncl + 1) (scl - ncl)).find? (· ∉ used) := by
  induction fuel generalizing ncl with
  | zero => omega
  | succ fuel inductionHypothesis =>
    obtain ⟨left, distance⟩ : ∃ left, scl - ncl = left + 1 := ⟨scl - ncl - 1, by omega⟩
    have noWrap : ¬ ncl + 1 ≥ mcl := by omega
    rw [searchFree, distance, List.range'_succ]
    rw [if_neg noWrap, if_neg (fun wrap => noWrap wrap.1)]
    by_cases free : ncl + 1 ∉ used
    · rw [if_pos free, List.find?_cons_of_pos (by simpa using free)]
    · rw [if_neg free, List.find?_cons_of_neg (by simpa using free)]
      split_ifs with last
      · obtain rfl : left = 0 := by omega
        rfl
      · rw [inductionHypothesis (by omega) (by omega) (by omega),
          show scl - (ncl + 1) = left by omega]

/-- The clusters in the order in which `create_chain` looks at them. -/
def candidates (mcl scl : Nat) : List Nat :=
  List.range' (scl + 1) (mcl - 1 - scl) ++ List.range' 2 (scl - 1)

theorem mem_candidates (begins : 1 ≤ scl) (bounded : scl < mcl) :
    c ∈ candidates mcl scl ↔ 2 ≤ c ∧ c < mcl := by
  rw [candidates, List.mem_append, List.mem_range'_1, List.mem_range'_1]
  omega

theorem searchFree_from (begins : 1 ≤ scl) (behind : scl ≤ ncl) (bounded : ncl < mcl)
    (enough : mcl - 1 - ncl + (scl - 1) ≤ fuel) :
    searchFree used mcl scl fuel ncl =
      (List.range' (ncl + 1) (mcl - 1 - ncl) ++ List.range' 2 (scl - 1)).find? (· ∉ used) := by
  induction fuel generalizing ncl with
  | zero =>
    rw [show mcl - 1 - ncl = 0 by omega, show scl - 1 = 0 by omega]
    rfl
  | succ fuel inductionHypothesis =>
    rw [searchFree]
    by_cases wrap : ncl + 1 ≥ mcl
    · -- past the end of the volume
      rw [show mcl - 1 - ncl = 0 by omega, List.range'_zero, List.nil_append, if_pos wrap]
      by_cases single : 2 > scl
      · rw [if_pos ⟨wrap, single⟩, show scl - 1 = 0 by omega]
        rfl
      · obtain ⟨left, distance⟩ : ∃ left, scl - 1 = left + 1 := ⟨scl - 2, by omega⟩
        rw [if_neg (fun wrapped => single wrapped.2), distance, List.range'_succ]
        by_cases free : 2 ∉ used
        · rw [if_pos free, List.find?_cons_of_pos (by simpa using free)]
        · rw [if_neg free, List.find?_cons_of_neg (by simpa using free)]
          split_ifs with last
          · obtain rfl : left = 0 := by omega
            rfl
          · rw [searchFree_wrapped (by decide) (by omega) (by omega) (by omega),
              show scl - 2 = left by omega]
    · obtain ⟨left, distance⟩ : ∃ left, mcl - 1 - ncl = left + 1 := ⟨mcl - 2 - ncl, by omega⟩
      rw [distance, List.range'_succ, List.cons_append, if_neg wrap,
        if_neg (fun wrapped => wrap wrapped.1)]
      by_cases free : ncl + 1 ∉ used
      · rw [if_pos free, List.find?_cons_of_pos (by simpa using free)]
      · rw [if_neg free, List.find?_cons_of_neg (by simpa using free), if_neg (by omega),
          inductionHypothesis (by omega) (by omega) (by omega),
          show mcl - 1 - (ncl + 1) = left by omega]

/-- The search takes the first free cluster behind the one it begins at, going round once. -/
theorem searchFree_eq (begins : 1 ≤ scl) (bounded : scl < mcl) :
    searchFree used mcl scl mcl scl = (candidates mcl scl).find? (· ∉ used) :=
  searchFree_from begins (Nat.le_refl _) bounded (by omega)

end Search

/-! ### Taking clusters -/

section Chains

variable {volume before middle after : ClusterVolume} {chain : List Nat} {table index steps : Nat}

theorem startCluster_bounds (holds : volume.Holds chain) (some : 1 < volume.maxClust) :
    1 ≤ volume.startCluster chain ∧ volume.startCluster chain < volume.maxClust := by
  rw [startCluster]
  split
  · rename_i clst last
    obtain ⟨lower, upper⟩ := holds clst (List.mem_of_getLast? last)
    exact ⟨by omega, upper⟩
  · split_ifs with unset
    · exact ⟨Nat.le_refl 1, some⟩
    · omega

/-- A new cluster is a free one. -/
theorem createChain_some {created : Nat × ClusterVolume}
    (holds : volume.Holds chain) (some : 1 < volume.maxClust)
    (taken : volume.createChain chain = Option.some created) :
    created.1 ∉ volume.used ∧ 2 ≤ created.1 ∧ created.1 < volume.maxClust ∧
      created.2 = { volume with used := insert created.1 volume.used, lastClust := created.1 } := by
  obtain ⟨begins, bounded⟩ := startCluster_bounds holds some
  rw [createChain, searchFree_eq begins bounded] at taken
  split at taken
  · exact absurd taken nofun
  · rename_i ncl found
    obtain rfl := Option.some.inj taken
    obtain ⟨lower, upper⟩ := (mem_candidates begins bounded).mp (List.mem_of_find?_eq_some found)
    exact ⟨by simpa using List.find?_some found, lower, upper, rfl⟩

/-- There is one as long as not all clusters are in use. -/
theorem createChain_room (holds : volume.Holds chain)
    (room : volume.used.card + 2 < volume.maxClust) :
    ∃ created, volume.createChain chain = some created := by
  obtain ⟨begins, bounded⟩ := startCluster_bounds holds (by omega)
  rw [createChain, searchFree_eq begins bounded]
  split
  · rename_i none
    have all : Finset.Ico 2 volume.maxClust ⊆ volume.used := by
      intro c inside
      have listed := (mem_candidates begins bounded).mpr (Finset.mem_Ico.mp inside)
      simpa using List.find?_eq_none.mp none c listed
    have count := Finset.card_le_card all
    rw [Nat.card_Ico] at count
    omega
  · exact ⟨_, rfl⟩

/-! ### Slots -/

/-- A table got longer, and nothing else changed but the clusters in use. -/
structure Stretched (table : Nat) (before after : ClusterVolume) : Prop where
  shape : after.toShape = before.toShape
  names : after.names = before.names
  fileChain : after.fileChain = before.fileChain
  starved : after.starved = before.starved
  others : ∀ other, other ≠ table → after.tableChain other = before.tableChain other
  holds : before.Holds (before.tableChain table) →
    before.Holds (after.tableChain table)
  longer : (before.tableChain table).length ≤ (after.tableChain table).length
  taken : after.used.card + (before.tableChain table).length =
    before.used.card + (after.tableChain table).length

theorem Stretched.refl : Stretched table before before :=
  ⟨rfl, rfl, rfl, rfl, fun _ _ => rfl, id, Nat.le_refl _, rfl⟩

theorem Stretched.trans (first : Stretched table before middle)
    (second : Stretched table middle after) : Stretched table before after where
  shape := second.shape.trans first.shape
  names := second.names.trans first.names
  fileChain := second.fileChain.trans first.fileChain
  starved := second.starved.trans first.starved
  others other different := (second.others other different).trans (first.others other different)
  holds fits := by
    have later := second.holds
    rw [first.shape] at later
    exact later (first.holds fits)
  longer := first.longer.trans second.longer
  taken := by
    have one := first.taken
    have other := second.taken
    omega

theorem Stretched.tables (stretched : Stretched table before after)
    (tables : ∀ d, before.Holds (before.tableChain d)) (d : Nat) :
    before.Holds (after.tableChain d) := by
  by_cases same : d = table
  · subst same
    exact stretched.holds (tables d)
  · rw [stretched.others d same]
    exact tables d

/-- The cluster that a table is stretched by. -/
theorem stretched_create {created : Nat × ClusterVolume}
    (holds : volume.Holds (volume.tableChain table)) (some : 1 < volume.maxClust)
    (taken : volume.createChain (volume.tableChain table) = Option.some created) :
    Stretched table volume { created.2 with
      tableChain := Function.update volume.tableChain table
        (volume.tableChain table ++ [created.1]) } := by
  obtain ⟨free, lower, upper, same⟩ := createChain_some holds some taken
  rw [same]
  refine ⟨rfl, rfl, rfl, rfl, fun other different => Function.update_of_ne different _ _,
    fun fits => ?_, ?_, ?_⟩
  all_goals dsimp only
  all_goals rw [Function.update_self]
  · exact List.forall_mem_append.mpr ⟨fits, List.forall_mem_singleton.mpr ⟨lower, upper⟩⟩
  · rw [List.length_append]
    exact Nat.le_add_right _ _
  · rw [Finset.card_insert_of_notMem free, List.length_append, List.length_singleton]
    omega

/-- A step within a table that has an area of its own. -/
theorem dirNext_static (static : volume.isStatic table) (short : index + 1 < 2 ^ 16)
    (room : index + 1 < volume.nRootdir) : volume.dirNext table index = .ok volume := by
  rw [dirNext]
  dsimp only
  rw [if_neg (by omega), if_pos static, if_neg (Nat.not_le.mpr room), ite_self]

/-- A step in a table of clusters: if it leaves the last cluster, another one is taken. -/
theorem dirNext_dynamic {clusters : Nat} (dynamic : ¬ volume.isStatic table)
    (power : ∃ k, volume.csize = 2 ^ k)
    (holds : volume.Holds (volume.tableChain table)) (short : index + 1 < 2 ^ 16)
    (inside : index < (volume.tableChain table).length * volume.clusterSlots)
    (fits : index + 1 < clusters * volume.clusterSlots)
    (few : (volume.tableChain table).length ≤ clusters)
    (room : volume.used.card + (clusters - (volume.tableChain table).length) + 2 ≤
      volume.maxClust) :
    ∃ after, volume.dirNext table index = .ok after ∧ Stretched table volume after ∧
      (after.tableChain table).length ≤ clusters ∧
      index + 1 < (after.tableChain table).length * volume.clusterSlots := by
  obtain ⟨k, power⟩ := power
  have positive : 0 < volume.csize := power ▸ Nat.two_pow_pos k
  have mask : ∀ i, i &&& (volume.csize - 1) = i % volume.csize := fun i => by
    rw [power, Nat.and_two_pow_sub_one_eq_mod]
  have slots : volume.clusterSlots = 16 * volume.csize := rfl
  generalize length : (volume.tableChain table).length = clusterCount at *
  rw [slots] at *
  -- a slot behind the last cluster is the first of a new one
  have edge : index + 1 = clusterCount * (16 * volume.csize) → (index + 1) % 16 = 0 ∧
      (index + 1) / 16 % volume.csize = 0 := by
    intro same
    have split := Nat.mod_mul (x := index + 1) (a := 16) (b := volume.csize)
    rw [same, Nat.mul_mod_left, ← same] at split
    omega
  have kept : ¬ index + 1 = clusterCount * (16 * volume.csize) →
      ∃ after, (Except.ok volume : Except FResult ClusterVolume) = .ok after ∧
        Stretched table volume after ∧ (after.tableChain table).length ≤ clusters ∧
        index + 1 < (after.tableChain table).length * (16 * volume.csize) := fun different =>
    ⟨volume, rfl, .refl, by omega, by rw [length]; omega⟩
  rw [dirNext]
  dsimp only
  rw [if_neg (by omega), if_neg dynamic, mask, show sectorSize / 32 = 16 from rfl]
  split_ifs with sector cluster linked
  · exact kept fun same => sector (edge same).1
  · exact kept fun same => cluster (edge same).2
  · refine kept fun same => ?_
    rw [length, Nat.div_div_eq_div_mul, same,
      Nat.mul_div_cancel _ (Nat.mul_pos (by decide) positive)] at linked
    exact absurd linked (Nat.lt_irrefl _)
  · rw [length, Nat.div_div_eq_div_mul, Nat.not_lt] at linked
    have fewer : clusterCount < clusters :=
      linked.trans_lt ((Nat.div_lt_iff_lt_mul (Nat.mul_pos (by decide) positive)).mpr fits)
    obtain ⟨created, taken⟩ := createChain_room holds (by omega)
    rw [taken]
    refine ⟨_, rfl, stretched_create holds (by omega) taken, ?_, ?_⟩
    all_goals dsimp only
    all_goals rw [Function.update_self, List.length_append, length, List.length_singleton]
    · exact fewer
    · rw [Nat.add_mul]
      omega

/-- The slots of a table with a number of clusters. -/
def tableSlots (volume : ClusterVolume) (table clusters : Nat) : Nat :=
  if volume.isStatic table then volume.nRootdir else clusters * volume.clusterSlots

/-- The steps of `dir_register` through a table that may have a number of clusters. -/
theorem walk_ok {clusters : Nat} (power : ∃ k, volume.csize = 2 ^ k)
    (holds : volume.Holds (volume.tableChain table))
    (inside : ¬ volume.isStatic table →
      index < (volume.tableChain table).length * volume.clusterSlots)
    (short : index + steps < 2 ^ 16) (fits : index + steps < volume.tableSlots table clusters)
    (few : (volume.tableChain table).length ≤ clusters)
    (room : volume.used.card + (clusters - (volume.tableChain table).length) + 2 ≤
      volume.maxClust) :
    ∃ after, volume.walk table steps index = (.ok (), after) ∧ Stretched table volume after ∧
      (after.tableChain table).length ≤ clusters := by
  induction steps generalizing index volume with
  | zero => exact ⟨volume, rfl, .refl, few⟩
  | succ steps inductionHypothesis =>
    by_cases static : volume.isStatic table
    · have bound := fits
      rw [tableSlots, if_pos static] at bound
      have turn := dirNext_static static (by omega) (show index + 1 < volume.nRootdir by omega)
      rw [walk, turn]
      exact inductionHypothesis power holds (fun dynamic => absurd static dynamic) (by omega)
        (by omega) few room
    · have bound := fits
      rw [tableSlots, if_neg static] at bound
      obtain ⟨next, turn, stretched, fewNext, insideNext⟩ := dirNext_dynamic static power holds
        (by omega) (inside static) (show index + 1 < _ by omega) few room
      have shape := stretched.shape
      have kind : next.isStatic table ↔ volume.isStatic table := by
        rw [isStatic, isStatic, show next.fmt = volume.fmt from congrArg Shape.fmt shape]
      have taken := stretched.taken
      have longer := stretched.longer
      obtain ⟨after, walked, more, fewAfter⟩ := @inductionHypothesis next (index + 1)
        (by rw [shape]; exact power) (by rw [shape]; exact stretched.holds holds)
        (fun _ => by rw [shape]; exact insideNext) (by omega)
        (by
          rw [tableSlots, if_neg (fun static' => static (kind.mp static')), shape]
          omega)
        fewNext (by rw [shape]; omega)
      rw [walk, turn]
      exact ⟨after, walked, stretched.trans more, fewAfter⟩

/-- Slots for a new entry, in a table that may have a number of clusters. -/
theorem reserve_ok {clusters ne : Nat} (power : ∃ k, volume.csize = 2 ^ k)
    (holds : volume.Holds (volume.tableChain table))
    (begun : ¬ volume.isStatic table → volume.tableChain table ≠ []) (some : 0 < ne)
    (short : volume.slots table + ne ≤ 2 ^ 16)
    (fits : volume.slots table + ne ≤ volume.tableSlots table clusters)
    (few : (volume.tableChain table).length ≤ clusters)
    (room : volume.used.card + (clusters - (volume.tableChain table).length) + 2 ≤
      volume.maxClust) :
    ∃ after, volume.reserve table ne = (.ok (), after) ∧ Stretched table volume after ∧
      (after.tableChain table).length ≤ clusters := by
  refine walk_ok power holds (fun dynamic => ?_) (by omega) (by omega) few room
  obtain ⟨k, power⟩ := power
  refine Nat.mul_pos (List.length_pos_iff.mpr (begun dynamic)) ?_
  rw [Shape.clusterSlots, power]
  exact Nat.mul_pos (by decide) (Nat.two_pow_pos k)

end Chains

/-! ### Files -/

section Files

variable {volume before middle after : ClusterVolume} {table index count : Nat}

theorem fileChain_setChain_self {chain : List Nat} :
    (volume.setChain table index chain).fileChain table index = chain := by
  rw [setChain]
  dsimp only
  rw [Function.update_self, Function.update_self]

theorem fileChain_setChain_of_ne {chain : List Nat} {d place : Nat}
    (different : ¬ (d = table ∧ place = index)) :
    (volume.setChain table index chain).fileChain d place = volume.fileChain d place := by
  rw [setChain]
  dsimp only
  by_cases same : d = table
  · subst same
    rw [Function.update_self, Function.update_of_ne fun here => different ⟨rfl, here⟩]
  · rw [Function.update_of_ne same]

theorem holds_setChain {shape : Shape} {chain : List Nat}
    (files : ∀ d place, shape.Holds (volume.fileChain d place)) (holds : shape.Holds chain)
    (d place : Nat) : shape.Holds ((volume.setChain table index chain).fileChain d place) := by
  by_cases same : d = table ∧ place = index
  · obtain ⟨rfl, rfl⟩ := same
    rw [fileChain_setChain_self]
    exact holds
  · rw [fileChain_setChain_of_ne same]
    exact files d place

/-- A file that is emptied gives back its clusters. -/
theorem emptyFile_spec : (volume.emptyFile table index).toShape = volume.toShape ∧
    (volume.emptyFile table index).tableChain = volume.tableChain ∧
    (volume.emptyFile table index).starved = volume.starved ∧
    (volume.emptyFile table index).fileChain table index = [] ∧
    (volume.emptyFile table index).used.card ≤ volume.used.card ∧
    ∀ shape : Shape, (∀ d place, shape.Holds (volume.fileChain d place)) →
      ∀ d place, shape.Holds ((volume.emptyFile table index).fileChain d place) := by
  rw [emptyFile]
  split
  · rename_i empty
    exact ⟨rfl, rfl, rfl, List.head?_eq_none_iff.mp empty, Nat.le_refl _, fun _ files => files⟩
  · exact ⟨rfl, rfl, rfl, fileChain_setChain_self, Finset.card_le_card Finset.sdiff_subset,
      fun shape files => holds_setChain files Shape.holds_nil⟩

/-- A file got longer by a number of clusters, and nothing else changed but the clusters in use. -/
structure Lengthened (table index count : Nat) (before after : ClusterVolume) : Prop where
  shape : after.toShape = before.toShape
  names : after.names = before.names
  tableChain : after.tableChain = before.tableChain
  starved : after.starved = before.starved
  others : ∀ d place, ¬ (d = table ∧ place = index) →
    after.fileChain d place = before.fileChain d place
  holds : before.Holds (before.fileChain table index) →
    before.Holds (after.fileChain table index)
  length : (after.fileChain table index).length = (before.fileChain table index).length + count
  taken : after.used.card = before.used.card + count

theorem Lengthened.trans {more : Nat} (first : Lengthened table index count before middle)
    (second : Lengthened table index more middle after) :
    Lengthened table index (count + more) before after where
  shape := second.shape.trans first.shape
  names := second.names.trans first.names
  tableChain := second.tableChain.trans first.tableChain
  starved := second.starved.trans first.starved
  others d place different :=
    (second.others d place different).trans (first.others d place different)
  holds fits := by
    have later := second.holds
    rw [first.shape] at later
    exact later (first.holds fits)
  length := by rw [second.length, first.length, Nat.add_assoc]
  taken := by rw [second.taken, first.taken, Nat.add_assoc]

theorem Lengthened.files (lengthened : Lengthened table index count before after)
    (files : ∀ d place, before.Holds (before.fileChain d place)) (d place : Nat) :
    before.Holds (after.fileChain d place) := by
  by_cases same : d = table ∧ place = index
  · obtain ⟨rfl, rfl⟩ := same
    exact lengthened.holds (files d place)
  · rw [lengthened.others d place same]
    exact files d place

/-- The clusters that a file asks for, where there are enough. -/
theorem stretchFile_ok (holds : volume.Holds (volume.fileChain table index))
    (room : volume.used.card + count + 2 ≤ volume.maxClust) :
    Lengthened table index count volume (volume.stretchFile table index count) := by
  induction count generalizing volume with
  | zero => exact ⟨rfl, rfl, rfl, rfl, fun _ _ _ => rfl, id, rfl, rfl⟩
  | succ count inductionHypothesis =>
    obtain ⟨created, taken⟩ := createChain_room holds (by omega)
    obtain ⟨free, lower, upper, same⟩ := createChain_some holds (by omega) taken
    rw [stretchFile, taken]
    dsimp only
    generalize next : created.2.setChain table index (volume.fileChain table index ++ [created.1]) =
      volume'
    have first : Lengthened table index 1 volume volume' := by
      rw [← next, same]
      refine ⟨rfl, rfl, rfl, rfl, fun d place different => ?_, fun fits => ?_, ?_, ?_⟩
      · exact fileChain_setChain_of_ne different
      · rw [fileChain_setChain_self]
        exact List.forall_mem_append.mpr ⟨fits, List.forall_mem_singleton.mpr ⟨lower, upper⟩⟩
      · rw [fileChain_setChain_self, List.length_append, List.length_singleton]
      · exact Finset.card_insert_of_notMem free
    have used := first.taken
    have shape := first.shape
    rw [Nat.add_comm count]
    refine first.trans (inductionHypothesis ?_ ?_)
    · rw [shape]
      exact first.holds holds
    · rw [shape]
      omega

theorem clustersFor_mono (clusterBytes : Nat) {bytes more : Nat} (le : bytes ≤ more) :
    clustersFor clusterBytes bytes ≤ clustersFor clusterBytes more :=
  Nat.div_le_div_right (by omega)

/-- A write that is not short: the file gets the clusters it needs for all its bytes. -/
theorem writeFile_ok {file : NamedFile} {written buff : List UInt8}
    (positive : 0 < volume.clusterBytes)
    (holds : volume.Holds (volume.fileChain file.table file.index))
    (chain : (volume.fileChain file.table file.index).length =
      clustersFor (volume.clusterBytes) written.length)
    (small : written.length + buff.length < 2 ^ 32)
    (room : volume.used.card +
      (clustersFor (volume.clusterBytes) (written.length + buff.length) -
        clustersFor (volume.clusterBytes) written.length) + 2 ≤ volume.maxClust) :
    ∃ after, volume.writeFile file written buff =
        ((buff.length, { file with written := some (written ++ buff) }), after) ∧
      Lengthened file.table file.index
        (clustersFor (volume.clusterBytes) (written.length + buff.length) -
          clustersFor (volume.clusterBytes) written.length) volume after := by
  have noWrap : ¬ volume.build.add written.length buff.length < written.length := by
    have wide := Build.le_word volume.build
    rw [Build.add, Nat.mod_eq_of_lt (by omega)]
    omega
  have lengthened := stretchFile_ok holds room
  have grows := clustersFor_mono (volume.clusterBytes)
    (Nat.le_add_right written.length buff.length)
  have bytes := (clustersFor_le positive).mp
    (Nat.le_refl (clustersFor (volume.clusterBytes) (written.length + buff.length)))
  have length := lengthened.length
  rw [chain, Nat.add_sub_cancel' grows] at length
  refine ⟨volume.stretchFile file.table file.index _, ?_, lengthened⟩
  rw [writeFile, if_neg noWrap, chain, length, Nat.min_eq_left (by omega), if_neg (Nat.lt_irrefl _),
    List.take_length]

end Files

end ClusterVolume

end Hdfmonkey
