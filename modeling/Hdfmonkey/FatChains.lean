/-
This file proves that `create_chain` and `remove_chain` are an allocator of clusters: every
owner, a file or a directory, has a list of clusters of its own, `create_chain` puts the
first free cluster behind the last one of a list, and `remove_chain` gives a list back.

The lists lie in the FAT as links. The search for a free cluster begins behind the last
cluster of the list, or at the hint for a list that is empty, and goes once round the
volume. The count of the free clusters stays exact where it is kept.
-/

import Hdfmonkey.ClusterCalls
import Hdfmonkey.FatTable
import Hdfmonkey.LinkTable

namespace Hdfmonkey

/-! ### The FAT as a table of links -/

/-- What the entry of a cluster stands for. -/
def linkOf (mcl entry : Nat) : Link Nat :=
  if entry = 0 then .free else if entry < mcl then .next entry else .last

/-- The links of the clusters of a volume. -/
def fatLinks (fmt : FatType) (mcl : Nat) (fat : Buffer) : Nat → Link Nat := fun clst =>
  if 2 ≤ clst ∧ clst < mcl then linkOf mcl (fatEntry fmt fat clst) else .free

/-- The number of the free clusters. -/
def freeCount (mcl : Nat) (links : Nat → Link Nat) : Nat :=
  ((Finset.Ico 2 mcl).filter fun clst => links clst = .free).card

section Links

variable {fmt : FatType} {fat : Buffer} {mcl clst val : Nat} {links : Nat → Link Nat}

theorem fatLinks_inside (lower : 2 ≤ clst) (upper : clst < mcl) :
    fatLinks fmt mcl fat clst = linkOf mcl (fatEntry fmt fat clst) := if_pos ⟨lower, upper⟩

theorem range_of_used (used : fatLinks fmt mcl fat clst ≠ .free) : 2 ≤ clst ∧ clst < mcl := by
  by_contra outside
  exact used (if_neg outside)

theorem linkOf_free_iff {entry : Nat} : linkOf mcl entry = .free ↔ entry = 0 := by
  unfold linkOf
  split_ifs with zero
  · simp [zero]
  · simp [zero]
  · simp [zero]

theorem fatLinks_congr {other : Buffer} {length : Nat}
    (same : ∀ index, index < length → fat index = other index)
    (room : fatLength fmt mcl ≤ length) : fatLinks fmt mcl fat = fatLinks fmt mcl other := by
  funext clst
  unfold fatLinks
  split_ifs with inside
  · rw [fatEntry_congr same room inside.2]
  · rfl

/-- An entry that is put links its cluster and no other. -/
theorem fatLinks_storeEntry (lower : 2 ≤ clst) (upper : clst < mcl) :
    fatLinks fmt mcl (storeEntry fmt fat clst val) =
      Function.update (fatLinks fmt mcl fat) clst (linkOf mcl (val % 2 ^ entryBits fmt)) := by
  funext other
  by_cases same : other = clst
  · rw [same, Function.update_self, fatLinks_inside lower upper, fatEntry_storeEntry_self]
  · rw [Function.update_of_ne same, fatLinks, fatLinks, fatEntry_storeEntry_of_ne same]

/-- A cluster that is freed is one more. -/
theorem freeCount_free (lower : 2 ≤ clst) (upper : clst < mcl) (used : links clst ≠ .free) :
    freeCount mcl (Function.update links clst .free) = freeCount mcl links + 1 := by
  have more : (Finset.Ico 2 mcl).filter (fun c => Function.update links clst .free c = .free) =
      insert clst ((Finset.Ico 2 mcl).filter fun c => links c = .free) := by
    ext c
    rw [Finset.mem_insert, Finset.mem_filter, Finset.mem_filter, Finset.mem_Ico]
    by_cases same : c = clst
    · subst same
      simp [lower, upper]
    · rw [Function.update_of_ne same]
      simp [same]
  rw [freeCount, more, Finset.card_insert_of_notMem (by simp [used])]
  rfl

/-- A cluster that is taken is one less. -/
theorem freeCount_take {link : Link Nat} (lower : 2 ≤ clst) (upper : clst < mcl)
    (free : links clst = .free) (used : link ≠ .free) :
    freeCount mcl (Function.update links clst link) + 1 = freeCount mcl links := by
  have back := @freeCount_free mcl clst (Function.update links clst link) lower upper
    (by rwa [Function.update_self])
  rw [Function.update_idem, ← free, Function.update_eq_self] at back
  exact back.symm

/-- The links of used clusters do not count. -/
theorem freeCount_relink {link : Link Nat} (before : links clst ≠ .free) (after : link ≠ .free) :
    freeCount mcl (Function.update links clst link) = freeCount mcl links := by
  refine congrArg Finset.card (Finset.filter_congr fun c _ => ?_)
  by_cases same : c = clst
  · rw [same, Function.update_self]
    simp [before, after]
  · rw [Function.update_of_ne same]

/-- A list that gets a cluster leaves one less. -/
theorem freeCount_linkBehind {cells : List Nat} {fresh : Nat} (linked : Linked links cells)
    (lower : 2 ≤ fresh) (upper : fresh < mcl) (free : links fresh = .free) :
    freeCount mcl (linkBehind links cells fresh) + 1 = freeCount mcl links := by
  have taken := freeCount_take lower upper free Link.last_ne_free
  unfold linkBehind
  cases last : cells.getLast? with
  | none => exact taken
  | some edge =>
    have used := linked.used (List.mem_of_getLast? last)
    have different : edge ≠ fresh := fun same => used (same ▸ free)
    rw [freeCount_relink (by rwa [Function.update_of_ne different]) Link.next_ne_free]
    exact taken

theorem freeCount_le : freeCount mcl links ≤ mcl - 2 := by
  refine (Finset.card_filter_le _ _).trans ?_
  rw [Nat.card_Ico]

end Links

/-! ### The allocator -/

/-- The clusters that the owners have, and the hint where to search next. -/
structure Allocation (Owner : Type) where
  clusters : Owner → List Nat
  hint : Nat

/-- The cluster behind which the search for a free one begins. -/
def searchStart (mcl hint : Nat) (clusters : List Nat) : Nat :=
  match clusters.getLast? with
  | some clst => clst
  | none => if hint = 0 ∨ hint ≥ mcl then 1 else hint

namespace Allocation

variable {Owner : Type}

def Taken (allocation : Allocation Owner) (clst : Nat) : Prop :=
  ∃ owner, clst ∈ allocation.clusters owner

open Classical in
/-- The cluster that an owner is given next. -/
noncomputable def choice (mcl : Nat) (allocation : Allocation Owner) (owner : Owner) : Option Nat :=
  (ClusterVolume.candidates mcl
    (searchStart mcl allocation.hint (allocation.clusters owner))).find? fun clst =>
      ¬allocation.Taken clst

variable [DecidableEq Owner]

/-- An owner is given a cluster. -/
noncomputable def grow (mcl : Nat) (allocation : Allocation Owner) (owner : Owner) :
    Allocation Owner :=
  match allocation.choice mcl owner with
  | none => allocation
  | some fresh =>
    { clusters := Function.update allocation.clusters owner (allocation.clusters owner ++ [fresh])
      hint := fresh }

/-- An owner gives all clusters back. -/
def shed (allocation : Allocation Owner) (owner : Owner) : Allocation Owner :=
  { allocation with clusters := Function.update allocation.clusters owner [] }

end Allocation

namespace Ff

open Program

/-! ### The search for a free cluster -/

section Search

variable {vol : Nat} {volume : VolumeContainer} {size : Nat} {build : Build} {fs : Fatfs}
  {disk : Nat → Buffer} {machine : Machine} {fmt : FatType} {clst scl ncl fuel : Nat}
  {Owner : Type} {lists : Owner → List Nat}

/-- The links of a drive. -/
def linksOf (fmt : FatType) (fs : Fatfs) (disk : Nat → Buffer) : Nat → Link Nat :=
  fatLinks fmt fs.maxClust (fatBytes disk fs.fatbase)

theorem fatEntry_ne_diskError {fat : Buffer} : fatEntry fmt fat clst ≠ diskError := by
  have bound := @fatEntry_lt fmt fat clst
  have width : 2 ^ entryBits fmt ≤ 2 ^ 28 := by cases fmt <;> decide
  rw [diskError]
  omega

/-- No entry is 1, which `get_fat` returns for an error of its own. -/
theorem fatEntry_ne_one (allotted : Allotted (linksOf fmt fs disk) lists) (lower : 2 ≤ clst)
    (upper : clst < fs.maxClust) : fatEntry fmt (fatBytes disk fs.fatbase) clst ≠ 1 := by
  intro stray
  have link : linksOf fmt fs disk clst = .next 1 := by
    rw [linksOf, fatLinks_inside lower upper, stray, linkOf, if_neg (by decide), if_pos (by omega)]
  have range := range_of_used (allotted.next_used link)
  omega

/-- The search for a free cluster finds what it would find in the set of the used ones. Each turn
reads one entry; those left are enough to come back to where the search began. -/
theorem searchFree_sees (sees : Sees vol volume size build fs disk machine)
    (tabled : Tabled volume size fmt fs) (allotted : Allotted (linksOf fmt fs disk) lists)
    {used : Finset Nat} (known : ∀ c, c ∈ used ↔ linksOf fmt fs disk c ≠ .free)
    (bounded : scl < fs.maxClust) (inside : 1 ≤ ncl) (before : ncl < fs.maxClust)
    (enough : scl ≤ ncl ∧ fs.maxClust - 1 - ncl + (scl - 1) < fuel ∨
      ncl < scl ∧ scl - ncl ≤ fuel) :
    ∃ win winsect wflag after,
      (searchFree vol fs.maxClust scl fuel ncl).Outcome machine
        (match ClusterVolume.searchFree used fs.maxClust scl fuel ncl with
          | none => .error 0
          | some fresh => .ok fresh) after ∧
      Strays fs winsect ∧ Sees vol volume size build { fs with win, winsect, wflag } disk
        after := by
  induction fuel generalizing ncl fs machine with
  | zero => omega
  | succ fuel inductionHypothesis =>
    rw [searchFree, ClusterVolume.searchFree]
    by_cases around : ncl + 1 ≥ fs.maxClust ∧ 2 > scl
    · rw [if_pos around, if_pos around]
      exact ⟨_, _, _, _, outcome_pure.mpr ⟨rfl, rfl⟩, .inl rfl, sees⟩
    · rw [if_neg around, if_neg around]
      generalize look : (if ncl + 1 ≥ fs.maxClust then 2 else ncl + 1) = next
      have range : 2 ≤ next ∧ next < fs.maxClust := by
        split_ifs at look
        · omega
        · omega
      obtain ⟨win, winsect, wflag, middle, got, there, seesMiddle⟩ :=
        getFat_sees sees tabled range.1 range.2
      have free : fatEntry fmt (fatBytes disk fs.fatbase) next = 0 ↔ next ∉ used := by
        rw [known, not_not, linksOf, fatLinks_inside range.1 range.2, linkOf_free_iff]
      by_cases found : fatEntry fmt (fatBytes disk fs.fatbase) next = 0
      · refine ⟨win, winsect, wflag, middle, outcome_bind.mpr ⟨_, _, got, ?_⟩, .inr (.inr there),
          seesMiddle⟩
        rw [if_pos found, if_pos (free.mp found)]
        exact outcome_pure.mpr ⟨rfl, rfl⟩
      · have good : ¬(fatEntry fmt (fatBytes disk fs.fatbase) next = diskError ∨
            fatEntry fmt (fatBytes disk fs.fatbase) next = 1) := fun bad =>
          bad.elim fatEntry_ne_diskError (fatEntry_ne_one allotted range.1 range.2)
        rw [if_neg (fun unused => found (free.mpr unused))]
        by_cases back : next = scl
        · refine ⟨win, winsect, wflag, middle, outcome_bind.mpr ⟨_, _, got, ?_⟩, .inr (.inr there),
            seesMiddle⟩
          rw [if_neg found, if_neg good, if_pos back, if_pos back]
          exact outcome_pure.mpr ⟨rfl, rfl⟩
        · have left : scl ≤ next ∧ fs.maxClust - 1 - next + (scl - 1) < fuel ∨
              next < scl ∧ scl - next ≤ fuel := by
            split_ifs at look
            · omega
            · omega
          obtain ⟨win, winsect, wflag, after, run, strays, seesAfter⟩ :=
            inductionHypothesis seesMiddle { tabled with } allotted known bounded
              (Nat.le_of_succ_le range.1) range.2 left
          refine ⟨win, winsect, wflag, after, outcome_bind.mpr ⟨_, _, got, ?_⟩, ?_, seesAfter⟩
          case refine_2 => exact .inr (strays.elim (fun same => .inr (same ▸ there)) id)
          rw [if_neg found, if_neg good, if_neg back, if_neg back]
          exact run

/-- The entry of a cluster that another one follows is that one. -/
theorem next_entry {behind : Nat} (link : linksOf fmt fs disk clst = .next behind) :
    fatEntry fmt (fatBytes disk fs.fatbase) clst = behind := by
  have used : linksOf fmt fs disk clst ≠ .free := by
    rw [link]
    exact Link.next_ne_free
  obtain ⟨lower, upper⟩ := range_of_used used
  rw [linksOf, fatLinks_inside lower upper, linkOf] at link
  split_ifs at link
  exact Link.next.inj link

/-- The entry of the last cluster of a list is past all clusters. -/
theorem last_entry (link : linksOf fmt fs disk clst = .last) :
    fs.maxClust ≤ fatEntry fmt (fatBytes disk fs.fatbase) clst := by
  have used : linksOf fmt fs disk clst ≠ .free := by
    rw [link]
    exact Link.last_ne_free
  obtain ⟨lower, upper⟩ := range_of_used used
  rw [linksOf, fatLinks_inside lower upper, linkOf] at link
  split_ifs at link with zero inside
  exact Nat.le_of_not_lt inside

/-- The search begins behind the last cluster of a list. -/
theorem chainStart_sees {cells : List Nat} (sees : Sees vol volume size build fs disk machine)
    (tabled : Tabled volume size fmt fs) (linked : Linked (linksOf fmt fs disk) cells) :
    ∃ win winsect wflag after,
      (chainStart vol (cells.getLast?.getD 0)).Outcome machine
        (.ok (searchStart fs.maxClust fs.lastClust cells)) after ∧
      Strays fs winsect ∧ Sees vol volume size build { fs with win, winsect, wflag } disk
        after := by
  rw [chainStart, searchStart]
  rcases List.eq_nil_or_concat cells with rfl | ⟨front, edge, rfl⟩
  · refine ⟨_, _, _, _, ?_, .inl rfl, sees⟩
    rw [outcome_fatfs_bind sees.registered, List.getLast?_nil, Option.getD_none, if_pos rfl]
    exact outcome_pure.mpr ⟨rfl, rfl⟩
  · rw [List.concat_eq_append] at *
    rw [List.getLast?_concat]
    have link : linksOf fmt fs disk edge = .last := linked.suffix
    have range := range_of_used (linked.used (List.mem_append_right _ List.mem_cons_self))
    obtain ⟨win, winsect, wflag, after, got, there, seesAfter⟩ :=
      getFat_sees sees tabled range.1 range.2
    have final := last_entry link
    refine ⟨win, winsect, wflag, after, ?_, .inr (.inr there), seesAfter⟩
    rw [outcome_fatfs_bind sees.registered, Option.getD_some, if_neg (by omega)]
    refine outcome_bind.mpr ⟨_, _, got, ?_⟩
    rw [if_neg (by omega), if_neg (by omega)]
    exact outcome_pure.mpr ⟨rfl, rfl⟩

end Search

/-! ### Taking a cluster -/

/-- The object of a drive after calls on the FAT, which may have changed its window, its hint and
its counts. -/
def Reworked (fs after : Fatfs) : Prop :=
  ∃ win winsect wflag fsiFlag lastClust freeClust, Strays fs winsect ∧
    after = { fs with win, winsect, wflag, fsiFlag, lastClust, freeClust }

section Take

variable {vol : Nat} {volume : VolumeContainer} {size : Nat} {build : Build} {fs after : Fatfs}
  {disk : Nat → Buffer} {machine : Machine} {fmt : FatType} {clst val : Nat}
  {Owner : Type} {lists : Owner → List Nat}

theorem Reworked.refl : Reworked fs fs := ⟨_, _, _, _, _, _, .inl rfl, rfl⟩

theorem Reworked.trans {middle : Fatfs} (first : Reworked fs middle)
    (second : Reworked middle after) : Reworked fs after := by
  obtain ⟨_, _, _, _, _, _, strays, rfl⟩ := first
  obtain ⟨_, _, _, _, _, _, further, rfl⟩ := second
  refine ⟨_, _, _, _, _, _, ?_, rfl⟩
  rcases further with same | none | fat
  · rwa [same]
  · exact .inr (.inl none)
  · exact .inr (.inr fat)

theorem Reworked.maxClust (reworked : Reworked fs after) :
    after.maxClust = fs.maxClust := by
  obtain ⟨_, _, _, _, _, _, _, rfl⟩ := reworked
  rfl

theorem Reworked.linksOf (reworked : Reworked fs after) : linksOf fmt after = linksOf fmt fs := by
  obtain ⟨_, _, _, _, _, _, _, rfl⟩ := reworked
  rfl

theorem Reworked.area (reworked : Reworked fs after) : fatArea after = fatArea fs := by
  obtain ⟨_, _, _, _, _, _, _, rfl⟩ := reworked
  rfl

theorem Reworked.fsiSector (reworked : Reworked fs after) : after.fsiSector = fs.fsiSector := by
  obtain ⟨_, _, _, _, _, _, _, rfl⟩ := reworked
  rfl

theorem Reworked.outside (reworked : Reworked fs after) (sector : Nat) :
    OutsideFat after sector ↔ OutsideFat fs sector := by
  obtain ⟨_, _, _, _, _, _, _, rfl⟩ := reworked
  rfl

theorem Reworked.tabled (reworked : Reworked fs after) (tabled : Tabled volume size fmt fs) :
    Tabled volume size fmt after := by
  obtain ⟨_, _, _, _, _, _, _, rfl⟩ := reworked
  exact { tabled with }

/-- The hint and the counts are not seen. -/
theorem Sees.note (sees : Sees vol volume size build fs disk machine) (fsiFlag : Bool)
    (lastClust freeClust : Nat) :
    Sees vol volume size build { fs with fsiFlag, lastClust, freeClust } disk
      (machine.register vol (some { fs with fsiFlag, lastClust, freeClust })) :=
  ⟨{ sees.attends with }, sees.full, sees.enough, sees.word, sees.turns,
    Machine.fatFs_register _ _ _, sees.bound, sees.behind, sees.one, sees.fats, sees.coherent,
    sees.seen, sees.front⟩

/-- `put_fat` links a cluster. -/
theorem putFat_links (sees : Sees vol volume size build fs disk machine)
    (mode : volume.fd.writeable = true) (tabled : Tabled volume size fmt fs) (lower : 2 ≤ clst)
    (upper : clst < fs.maxClust) (val : Nat) :
    ∃ fs' disk' after, (putFat vol clst val).Outcome machine .ok after ∧
      Sees vol volume size build fs' disk' after ∧ Reworked fs fs' ∧ ¬OutsideFat fs fs'.winsect ∧
      (fs'.lastClust = fs.lastClust ∧ fs'.freeClust = fs.freeClust) ∧
      linksOf fmt fs disk' = Function.update (linksOf fmt fs disk) clst
        (linkOf fs.maxClust (val % 2 ^ entryBits fmt)) ∧
      ∀ sector, OutsideFat fs sector → disk' sector = disk sector := by
  obtain ⟨win, winsect, after, disk', run, there, seesAfter, entries, outside⟩ :=
    putFat_sees sees mode tabled lower upper val
  refine ⟨_, disk', after, run, seesAfter, ⟨_, _, _, _, _, _, .inr (.inr there), rfl⟩, there,
    ⟨rfl, rfl⟩, ?_, outside⟩
  rw [linksOf, entries, fatLinks_storeEntry lower upper]
  rfl

/-- A fresh cluster is put behind the last one of a list. -/
theorem link_sees {cells : List Nat} {fresh : Nat}
    (sees : Sees vol volume size build fs disk machine) (mode : volume.fd.writeable = true)
    (tabled : Tabled volume size fmt fs) (linked : Linked (linksOf fmt fs disk) cells)
    (lower : 2 ≤ fresh) (upper : fresh < fs.maxClust) :
    ∃ fs' disk' middle after, (putFat vol fresh 0x0FFFFFFF).Outcome machine .ok middle ∧
      (linkPrevious vol (cells.getLast?.getD 0) fresh).Outcome middle .ok after ∧
      Sees vol volume size build fs' disk' after ∧ Reworked fs fs' ∧ ¬OutsideFat fs fs'.winsect ∧
      (fs'.lastClust = fs.lastClust ∧ fs'.freeClust = fs.freeClust) ∧
      linksOf fmt fs disk' = linkBehind (linksOf fmt fs disk) cells fresh ∧
      ∀ sector, OutsideFat fs sector → disk' sector = disk sector := by
  have width := tabled.width
  obtain ⟨fs₁, disk₁, middle, ended, seesMiddle, reworked, there, same, links, outside⟩ :=
    putFat_links sees mode tabled lower upper 0x0FFFFFFF
  have mark : linkOf fs.maxClust (0x0FFFFFFF % 2 ^ entryBits fmt) = .last := by
    have all : 0x0FFFFFFF % 2 ^ entryBits fmt + 1 = 2 ^ entryBits fmt := by cases fmt <;> rfl
    rw [linkOf, if_neg (by omega), if_neg (by omega)]
  rw [mark] at links
  rcases List.eq_nil_or_concat cells with rfl | ⟨front, edge, rfl⟩
  · exact ⟨fs₁, disk₁, middle, middle, ended, outcome_pure.mpr ⟨rfl, rfl⟩, seesMiddle, reworked,
      there, same, links, outside⟩
  · rw [List.concat_eq_append] at *
    have range := range_of_used (linked.used (List.mem_append_right _ List.mem_cons_self))
    have tabled' := reworked.tabled tabled
    have clusters := reworked.maxClust
    obtain ⟨fs₂, disk₂, after, linkedRun, seesAfter, reworked', there', same', links', outside'⟩ :=
      putFat_links seesMiddle mode tabled' range.1 (clusters ▸ range.2) fresh
    rw [reworked.linksOf, links, clusters, Nat.mod_eq_of_lt (Nat.lt_trans upper width), linkOf,
      if_neg (by omega), if_pos upper] at links'
    refine ⟨fs₂, disk₂, middle, after, ended, ?_, seesAfter, reworked.trans reworked',
      fun away => there' ((reworked.outside _).mpr away),
        ⟨same'.1.trans same.1, same'.2.trans same.2⟩, ?_, fun sector away => ?_⟩
    · rw [List.getLast?_concat, Option.getD_some, linkPrevious, if_neg (by omega)]
      exact linkedRun
    · rw [links', linkBehind, List.getLast?_concat]
    · rw [outside' sector ((reworked.outside sector).mpr away), outside sector away]

end Take

/-! ### The count and the hint -/

/-- An FSInfo sector with a count of the free clusters and a hint. -/
structure Informs (sector : Buffer) (freeClust lastClust : Nat) : Prop where
  signature : sector.loadWord bs55AA = 0xAA55
  lead : sector.loadDword fsiLeadSig = 0x41615252
  struc : sector.loadDword fsiStrucSig = 0x61417272
  count : sector.loadDword fsiFreeCount = freeClust
  hint : sector.loadDword fsiNxtFree = lastClust

/-- If a count is kept it is exact, and the FSInfo sector of FAT32 has it unless it is to be
written. -/
structure Accounted (counts : Prop) (fmt : FatType) (fs : Fatfs) (disk : Nat → Buffer) : Prop where
  counted : counts → fs.freeClust = freeCount fs.maxClust (linksOf fmt fs disk)
  uncounted : ¬counts → fs.freeClust = 0xFFFFFFFF
  hinted : fmt = .fat32 → counts → fs.lastClust < 2 ^ 32
  informed : fmt = .fat32 → counts → fs.fsiFlag = false →
    Informs (disk fs.fsiSector) fs.freeClust fs.lastClust

section Give

variable {vol : Nat} {volume : VolumeContainer} {size : Nat} {build : Build} {fs : Fatfs}
  {disk : Nat → Buffer} {machine : Machine} {fmt : FatType} {clst : Nat} {counts : Prop}

/-- A count that is kept is not the mark of one that is not. -/
theorem Accounted.small (accounted : Accounted counts fmt fs disk)
    (tabled : Tabled volume size fmt fs) (sees : Sees vol volume size build fs disk machine)
    (known : counts) : fs.freeClust < 2 ^ 28 := by
  have most := @freeCount_le fs.maxClust (linksOf fmt fs disk)
  have width := tabled.width
  have widest : 2 ^ entryBits fmt ≤ 2 ^ 28 := by cases fmt <;> decide
  have count := accounted.counted known
  omega

/-- The account after a cluster was taken or given back: a count that is kept is changed along with
the links, and then the FSInfo sector is to be written. -/
theorem accounted_note {fs' : Fatfs} {disk' : Nat → Buffer} {fsiFlag : Bool}
    {lastClust freeClust : Nat} (reworked : Reworked fs fs')
    (counted : counts → freeClust = freeCount fs.maxClust (linksOf fmt fs disk') ∧ fsiFlag = true)
    (uncounted : ¬counts → freeClust = 0xFFFFFFFF)
    (hinted : fmt = .fat32 → counts → lastClust < 2 ^ 32) :
    Accounted counts fmt { fs' with fsiFlag, lastClust, freeClust } disk' := by
  have clusters := reworked.maxClust
  have links := congrFun (@Reworked.linksOf _ _ fmt reworked) disk'
  refine ⟨fun known => ?_, uncounted, hinted, fun _ known clean => ?_⟩
  · change freeClust = freeCount fs'.maxClust (Ff.linksOf fmt fs' disk')
    rw [clusters, links]
    exact (counted known).1
  · exact absurd ((counted known).2.symm.trans clean) Bool.false_ne_true.symm

/-- A turn of the loop of `remove_chain` frees a cluster and goes on with what its entry says. -/
theorem removeLinks_turn (fuel : Nat) (sees : Sees vol volume size build fs disk machine)
    (mode : volume.fd.writeable = true) (tabled : Tabled volume size fmt fs)
    (accounted : Accounted counts fmt fs disk) (used : linksOf fmt fs disk clst ≠ .free)
    (sound : fatEntry fmt (fatBytes disk fs.fatbase) clst ≠ 1) :
    ∃ fs' disk' middle,
      (∀ result after,
        (removeLinks vol fuel (fatEntry fmt (fatBytes disk fs.fatbase) clst)).Outcome middle result
          after → (removeLinks vol (fuel + 1) clst).Outcome machine result after) ∧
      Sees vol volume size build fs' disk' middle ∧ Reworked fs fs' ∧ fs'.lastClust = fs.lastClust ∧
      linksOf fmt fs disk' = Function.update (linksOf fmt fs disk) clst .free ∧
      Accounted counts fmt fs' disk' ∧ (counts → fs'.fsiFlag = true) ∧
      ∀ sector, OutsideFat fs sector → disk' sector = disk sector := by
  obtain ⟨lower, upper⟩ := range_of_used used
  obtain ⟨win, winsect, wflag, first, got, there, seesFirst⟩ := getFat_sees sees tabled lower upper
  obtain ⟨fs₂, disk', second, freed, seesSecond, reworked, _, same, links, outside⟩ :=
    putFat_links seesFirst mode { tabled with } lower upper 0
  have links' : linksOf fmt fs disk' = Function.update (linksOf fmt fs disk) clst .free := links
  have reworked : Reworked fs fs₂ := .trans ⟨_, _, _, _, _, _, .inr (.inr there), rfl⟩ reworked
  have present : fatEntry fmt (fatBytes disk fs.fatbase) clst ≠ 0 := by
    rw [linksOf, fatLinks_inside lower upper, Ne, linkOf_free_iff] at used
    exact used
  have count : fs₂.freeClust = fs.freeClust := same.2
  obtain ⟨fsiFlag, freeClust, noted, counted, uncounted⟩ : ∃ fsiFlag freeClust,
      (if fs₂.freeClust = 0xFFFFFFFF then fs₂
        else { fs₂ with freeClust := build.add fs₂.freeClust 1, fsiFlag := true }) =
        { fs₂ with fsiFlag, lastClust := fs₂.lastClust, freeClust } ∧
      (counts → freeClust = freeCount fs.maxClust (linksOf fmt fs disk') ∧ fsiFlag = true) ∧
      (¬counts → freeClust = 0xFFFFFFFF) := by
    by_cases known : counts
    · have small := accounted.small tabled sees known
      have word := build.le_word
      refine ⟨true, build.add fs₂.freeClust 1, if_neg (by omega), fun _ => ⟨?_, rfl⟩,
        fun unknown => absurd known unknown⟩
      rw [count, links', build.add_of_lt (by omega), freeCount_free lower upper used,
        accounted.counted known]
    · have unknown := count.trans (accounted.uncounted known)
      exact ⟨fs₂.fsiFlag, fs₂.freeClust, if_pos unknown, fun also => absurd also known,
        fun _ => unknown⟩
  refine ⟨{ fs₂ with fsiFlag, lastClust := fs₂.lastClust, freeClust }, disk',
    second.register vol (some { fs₂ with fsiFlag, lastClust := fs₂.lastClust, freeClust }),
    fun result after run => ?_, seesSecond.note fsiFlag fs₂.lastClust freeClust,
    reworked.trans ⟨_, _, _, _, _, _, .inl rfl, rfl⟩, same.1, links',
    accounted_note reworked counted uncounted fun type known =>
    same.1 ▸ accounted.hinted type known, fun known => (counted known).2, outside⟩
  rw [removeLinks, outcome_fatfs_bind sees.registered, if_neg (Nat.not_le.mpr upper)]
  refine outcome_bind.mpr ⟨_, _, got, ?_⟩
  rw [if_neg present, if_neg sound, if_neg fatEntry_ne_diskError]
  refine outcome_bind.mpr ⟨_, _, freed, ?_⟩
  rw [if_neg (not_not.mpr rfl)]
  refine outcome_bind.mpr ⟨_, _, outcome_get.mpr ⟨rfl, rfl⟩, ?_⟩
  rw [outcome_modifyFatfs_bind, seesSecond.registered, Option.map_some, seesSecond.word, noted]
  exact run

/-- The loop of `remove_chain` gives a list back, by induction on the clusters behind the first. -/
theorem removeLinks_sees {rest : List Nat} (fuel : Nat)
    (sees : Sees vol volume size build fs disk machine) (mode : volume.fd.writeable = true)
    (tabled : Tabled volume size fmt fs) (accounted : Accounted counts fmt fs disk)
    (linked : Linked (linksOf fmt fs disk) (clst :: rest)) (enough : rest.length + 1 < fuel) :
    ∃ fs' disk' after, (removeLinks vol fuel clst).Outcome machine .ok after ∧
      Sees vol volume size build fs' disk' after ∧ Reworked fs fs' ∧ fs'.lastClust = fs.lastClust ∧
      linksOf fmt fs disk' = giveBack (linksOf fmt fs disk) (clst :: rest) ∧
      Accounted counts fmt fs' disk' ∧ (counts → fs'.fsiFlag = true) ∧
      ∀ sector, OutsideFat fs sector → disk' sector = disk sector := by
  have used := linked.used List.mem_cons_self
  have range := range_of_used used
  induction rest generalizing clst fuel fs disk machine with
  | nil =>
    have final := last_entry linked
    obtain ⟨left, rfl⟩ : ∃ left, fuel = left + 2 := Nat.exists_eq_add_of_le' enough
    obtain ⟨fs', disk', middle, turn, seesAfter, reworked, hint, links, counts, noted, outside⟩ :=
      removeLinks_turn (left + 1) sees mode tabled accounted used (by omega)
    rw [giveBack_cons, giveBack_nil]
    refine ⟨fs', disk', middle, turn _ _ ?_, seesAfter, reworked, hint, links, counts, noted,
      outside⟩
    rw [removeLinks, outcome_fatfs_bind seesAfter.registered,
      if_pos (by rw [reworked.maxClust]; exact final)]
    exact outcome_pure.mpr ⟨rfl, rfl⟩
  | cons behind rest inductionHypothesis =>
    have next := next_entry linked.1
    have usedNext := linked.2.used List.mem_cons_self
    have rangeNext := range_of_used usedNext
    obtain ⟨left, rfl⟩ : ∃ left, fuel = left + 1 :=
      Nat.exists_eq_add_of_le' (Nat.one_le_of_lt enough)
    obtain ⟨fs', disk', middle, turn, seesMiddle, reworked, hint, links, counts, _, outside⟩ :=
      removeLinks_turn left sees mode tabled accounted used (by omega)
    have apart : clst ∉ behind :: rest := (List.nodup_cons.mp linked.nodup).1
    have shown : linksOf fmt fs' disk' = Function.update (linksOf fmt fs disk) clst .free :=
      (congrFun reworked.linksOf disk').trans links
    have behindLinked : Linked (linksOf fmt fs' disk') (behind :: rest) := by
      rw [shown]
      exact linked.2.congr fun cell member =>
        Function.update_of_ne (fun same : cell = clst => apart (same ▸ member)) _ _
    have again := behindLinked.used List.mem_cons_self
    obtain ⟨fs'', disk'', after, run, seesAfter, reworked', hint', links', counts', noted',
      outside'⟩ :=
      inductionHypothesis left seesMiddle (reworked.tabled tabled) counts behindLinked
        (Nat.lt_of_succ_lt_succ enough) again (range_of_used again)
    rw [shown, reworked.linksOf] at links'
    rw [next] at turn
    rw [giveBack_cons]
    exact ⟨fs'', disk'', after, turn _ _ run, seesAfter, reworked.trans reworked',
      hint'.trans hint, links', counts', noted', fun sector away =>
        (outside' sector ((reworked.outside sector).mpr away)).trans (outside sector away)⟩

end Give

/-! ### The allocator on a drive -/

/-- The FAT of a drive shows what the owners have. -/
structure Allots {Owner : Type} (vol : Nat) (volume : VolumeContainer) (size : Nat) (build : Build)
    (fmt : FatType) (counts : Prop) (fs : Fatfs) (disk : Nat → Buffer) (machine : Machine)
    (allocation : Allocation Owner) : Prop where
  sees : Sees vol volume size build fs disk machine
  tabled : Tabled volume size fmt fs
  allotted : Allotted (linksOf fmt fs disk) allocation.clusters
  hint : fs.lastClust = allocation.hint
  accounted : Accounted counts fmt fs disk

section Allocator

variable {Owner : Type} {vol : Nat} {volume : VolumeContainer} {size : Nat} {build : Build}
  {fs : Fatfs} {disk : Nat → Buffer} {machine : Machine} {fmt : FatType} {counts : Prop}
  {allocation : Allocation Owner}

theorem Allots.range (allots : Allots vol volume size build fmt counts fs disk machine allocation)
    {owner : Owner} {clst : Nat} (member : clst ∈ allocation.clusters owner) :
    2 ≤ clst ∧ clst < fs.maxClust :=
  range_of_used ((allots.allotted.linked owner).used member)

/-- The search begins at a cluster of the volume, or in front of the first. -/
theorem Allots.start_bounds (allots : Allots vol volume size build fmt counts fs disk machine
    allocation)
    (owner : Owner) :
    1 ≤ searchStart fs.maxClust fs.lastClust (allocation.clusters owner) ∧
      searchStart fs.maxClust fs.lastClust (allocation.clusters owner) < fs.maxClust := by
  have begun := allots.tabled.begun
  unfold searchStart
  cases last : (allocation.clusters owner).getLast? with
  | none =>
    dsimp only
    split_ifs with unset
    · exact ⟨Nat.le_refl 1, begun⟩
    · omega
  | some edge =>
    obtain ⟨lower, upper⟩ := allots.range (List.mem_of_getLast? last)
    exact ⟨Nat.le_of_succ_le lower, upper⟩

open Classical in
/-- The search in the used clusters is the choice of the allocator. -/
theorem Allots.choice (allots : Allots vol volume size build fmt counts fs disk machine allocation)
    (owner : Owner) :
    ∃ used : Finset Nat, (∀ c, c ∈ used ↔ linksOf fmt fs disk c ≠ .free) ∧
      ClusterVolume.searchFree used fs.maxClust
        (searchStart fs.maxClust fs.lastClust (allocation.clusters owner)) (fs.maxClust + 1)
        (searchStart fs.maxClust fs.lastClust (allocation.clusters owner)) =
        allocation.choice fs.maxClust owner := by
  obtain ⟨begins, bounded⟩ := allots.start_bounds owner
  refine ⟨(Finset.Ico 2 fs.maxClust).filter fun c => linksOf fmt fs disk c ≠ .free, fun c => ?_, ?_⟩
  · rw [Finset.mem_filter, Finset.mem_Ico]
    exact ⟨And.right, fun used => ⟨range_of_used used, used⟩⟩
  · rw [ClusterVolume.searchFree_from begins (Nat.le_refl _) bounded (by omega),
      Allocation.choice, ← allots.hint, ClusterVolume.candidates]
    refine congrArg (List.find? · _) (funext fun c => ?_)
    have taken : ¬allocation.Taken c ↔ linksOf fmt fs disk c = .free :=
      not_exists.trans allots.allotted.free_iff.symm
    rw [decide_eq_decide, taken, Finset.mem_filter, Finset.mem_Ico]
    constructor
    · intro unlisted
      by_contra used
      exact unlisted ⟨range_of_used used, used⟩
    · exact fun free listed => listed.2 free

/-- The cluster that is chosen is a free one of the volume. -/
theorem Allots.chosen (allots : Allots vol volume size build fmt counts fs disk machine allocation)
    {owner : Owner} {fresh : Nat} (choice : allocation.choice fs.maxClust owner = some fresh) :
    2 ≤ fresh ∧ fresh < fs.maxClust ∧ linksOf fmt fs disk fresh = .free := by
  obtain ⟨begins, bounded⟩ := allots.start_bounds owner
  rw [Allocation.choice, ← allots.hint] at choice
  have listed := (ClusterVolume.mem_candidates begins bounded).mp (List.mem_of_find?_eq_some choice)
  have free : ¬allocation.Taken fresh := by simpa using List.find?_some choice
  exact ⟨listed.1, listed.2, allots.allotted.free_iff.mpr (not_exists.mp free)⟩

variable [DecidableEq Owner]

/-- `create_chain` gives an owner the next free cluster. -/
theorem createChain_grows (allots : Allots vol volume size build fmt counts fs disk machine
    allocation)
    (mode : volume.fd.writeable = true) (owner : Owner) :
    ∃ fs' disk' after,
      (createChain vol ((allocation.clusters owner).getLast?.getD 0)).Outcome machine
        ((allocation.choice fs.maxClust owner).getD 0) after ∧
      Allots vol volume size build fmt counts fs' disk' after (allocation.grow fs.maxClust owner) ∧
      Reworked fs fs' ∧
      (∀ fresh, allocation.choice fs.maxClust owner = some fresh → ¬OutsideFat fs fs'.winsect) ∧
      ∀ sector, OutsideFat fs sector → disk' sector = disk sector := by
  obtain ⟨begins, bounded⟩ := allots.start_bounds owner
  obtain ⟨used, known, found⟩ := allots.choice owner
  have linked := allots.allotted.linked owner
  obtain ⟨win₁, winsect₁, wflag₁, first, started, strays₁, seesFirst⟩ :=
    chainStart_sees allots.sees allots.tabled linked
  obtain ⟨win₂, winsect₂, wflag₂, second, searched, strays₂, seesSecond⟩ :=
    @searchFree_sees _ _ _ _ _ _ _ _ _ _ (fs.maxClust + 1) _ _ seesFirst
      { allots.tabled with } allots.allotted _ known bounded begins bounded
      (.inl ⟨Nat.le_refl _, by dsimp only; omega⟩)
  rw [found] at searched
  have searching : Reworked fs { fs with win := win₂, winsect := winsect₂, wflag := wflag₂ } :=
    .trans ⟨win₁, winsect₁, wflag₁, _, _, _, strays₁, rfl⟩ ⟨_, _, _, _, _, _, strays₂, rfl⟩
  rw [Allocation.grow]
  cases choice : allocation.choice fs.maxClust owner with
  | none =>
    rw [choice] at searched
    refine ⟨_, disk, second, ?_,
      ⟨seesSecond, { allots.tabled with }, allots.allotted, allots.hint, { allots.accounted with }⟩,
      searching, fun _ none => absurd none (by simp), fun _ _ => rfl⟩
    rw [createChain, outcome_fatfs_bind allots.sees.registered]
    exact outcome_bind.mpr ⟨_, _, started, outcome_bind.mpr ⟨_, _, searched,
      outcome_pure.mpr ⟨rfl, rfl⟩⟩⟩
  | some fresh =>
    rw [choice] at searched
    obtain ⟨lower, upper, free⟩ := allots.chosen choice
    obtain ⟨fs₃, disk', third, fourth, ended, joined, seesFourth, reworked, there, same, links,
      outside⟩ := link_sees seesSecond mode { allots.tabled with } linked lower upper
    have reworked : Reworked fs fs₃ := searching.trans reworked
    have links' : linksOf fmt fs disk' =
        linkBehind (linksOf fmt fs disk) (allocation.clusters owner) fresh := links
    have count : fs₃.freeClust = fs.freeClust := same.2
    obtain ⟨fsiFlag, freeClust, noted, counted, uncounted⟩ : ∃ fsiFlag freeClust,
        (if fs₃.freeClust = 0xFFFFFFFF then { fs₃ with lastClust := fresh }
          else { fs₃ with
            lastClust := fresh
            freeClust := build.sub fs₃.freeClust 1
            fsiFlag := true }) = { fs₃ with fsiFlag, lastClust := fresh, freeClust } ∧
        (counts → freeClust = freeCount fs.maxClust (linksOf fmt fs disk') ∧ fsiFlag = true) ∧
        (¬counts → freeClust = 0xFFFFFFFF) := by
      by_cases known : counts
      · have small := allots.accounted.small allots.tabled allots.sees known
        have before := allots.accounted.counted known
        have less := freeCount_linkBehind linked lower upper free
        have word := build.le_word
        refine ⟨true, build.sub fs₃.freeClust 1, if_neg (by omega), fun _ => ⟨?_, rfl⟩,
          fun unknown => absurd known unknown⟩
        rw [count, links', build.sub_of_le (by omega) (by omega)]
        omega
      · have unknown := count.trans (allots.accounted.uncounted known)
        exact ⟨fs₃.fsiFlag, fs₃.freeClust, if_pos unknown, fun also => absurd also known,
          fun _ => unknown⟩
    refine ⟨{ fs₃ with fsiFlag, lastClust := fresh, freeClust }, disk',
      fourth.register vol (some { fs₃ with fsiFlag, lastClust := fresh, freeClust }), ?_, ?_,
      reworked.trans ⟨_, _, _, _, _, _, .inl rfl, rfl⟩, fun _ _ => there, outside⟩
    · rw [createChain, outcome_fatfs_bind allots.sees.registered]
      refine outcome_bind.mpr ⟨_, _, started, outcome_bind.mpr ⟨_, _, searched, ?_⟩⟩
      dsimp only
      refine outcome_bind.mpr ⟨_, _, ended, ?_⟩
      rw [if_neg (not_not.mpr rfl)]
      refine outcome_bind.mpr ⟨_, _, joined, ?_⟩
      rw [if_neg (not_not.mpr rfl)]
      refine outcome_bind.mpr ⟨_, _, outcome_get.mpr ⟨rfl, rfl⟩, ?_⟩
      rw [outcome_modifyFatfs_bind, seesFourth.registered, Option.map_some, seesFourth.word, noted]
      exact outcome_pure.mpr ⟨rfl, rfl⟩
    · have shown : linksOf fmt { fs₃ with fsiFlag, lastClust := fresh, freeClust } disk' =
          linkBehind (linksOf fmt fs disk) (allocation.clusters owner) fresh :=
        (congrFun reworked.linksOf disk').trans links'
      refine ⟨seesFourth.note fsiFlag fresh freeClust, { reworked.tabled allots.tabled with }, ?_,
        rfl, accounted_note reworked counted uncounted fun _ _ => ?_⟩
      · rw [shown]
        exact allots.allotted.grow owner free
      · have width := Nat.lt_trans upper (allots.tabled.width)
        have widest : 2 ^ entryBits fmt ≤ 2 ^ 28 := by cases fmt <;> decide
        omega

/-- `remove_chain` gives back what an owner has. -/
theorem removeChain_sheds (allots : Allots vol volume size build fmt counts fs disk machine
    allocation)
    (mode : volume.fd.writeable = true) {owner : Owner} {clst : Nat} {rest : List Nat}
    (cells : allocation.clusters owner = clst :: rest) :
    ∃ fs' disk' after, (removeChain vol clst).Outcome machine .ok after ∧
      Allots vol volume size build fmt counts fs' disk' after (allocation.shed owner) ∧
      Reworked fs fs' ∧ (counts → fs'.fsiFlag = true) ∧
      ∀ sector, OutsideFat fs sector → disk' sector = disk sector := by
  have linked := allots.allotted.linked owner
  have inside : (clst :: rest).toFinset ⊆ Finset.Ico 2 fs.maxClust := fun c member =>
    Finset.mem_Ico.mpr (allots.range (cells ▸ List.mem_toFinset.mp member))
  have length := Finset.card_le_card inside
  rw [cells] at linked
  rw [List.toFinset_card_of_nodup linked.nodup, Nat.card_Ico, List.length_cons] at length
  have turns := allots.sees.turns.clusters
  have range := range_of_used (linked.used List.mem_cons_self)
  obtain ⟨fs', disk', after, run, seesAfter, reworked, hint, links, counts, noted, outside⟩ :=
    removeLinks_sees machine.fuel allots.sees mode allots.tabled allots.accounted
      linked (by omega)
  have shown : linksOf fmt fs' disk' = giveBack (linksOf fmt fs disk) (clst :: rest) :=
    (congrFun reworked.linksOf disk').trans links
  refine ⟨fs', disk', after, ?_, ⟨seesAfter, reworked.tabled allots.tabled, ?_,
    hint.trans allots.hint, counts⟩, reworked, noted, outside⟩
  · rw [removeChain, outcome_fatfs_bind allots.sees.registered, if_neg (by omega)]
    exact outcome_bind.mpr ⟨_, _, outcome_get.mpr ⟨rfl, rfl⟩, run⟩
  · rw [shown, ← cells]
    exact allots.allotted.shed owner

end Allocator

/-! ### Runs of the allocator -/

/-- What an owner asks for: another cluster, or that all it has are given back. -/
inductive Request (Owner : Type) where
  | grow (owner : Owner)
  | shed (owner : Owner)

/-- What the allocator does on a request. -/
noncomputable def Request.apply {Owner : Type} [DecidableEq Owner] (mcl : Nat)
    (allocation : Allocation Owner) : Request Owner → Allocation Owner
  | .grow owner => allocation.grow mcl owner
  | .shed owner => allocation.shed owner

/-- The calls that the requests of some owners lead to. Each keeps a list of the clusters it was
given. -/
def serve {Owner : Type} [DecidableEq Owner] (vol : Nat) :
    List (Request Owner) → (clusters : Owner → List Nat) →
      Program Machine (Except FResult (Owner → List Nat))
  | [], clusters => return .ok clusters
  | .grow owner :: rest, clusters => do
    let clst ← createChain vol ((clusters owner).getLast?.getD 0)
    if clst = 1 then return .error .intErr
    if clst = diskError then return .error .diskErr
    serve vol rest (if clst = 0 then clusters
      else Function.update clusters owner (clusters owner ++ [clst]))
  | .shed owner :: rest, clusters => do
    match clusters owner with
    | [] => serve vol rest clusters
    | clst :: _ =>
      let res ← removeChain vol clst
      if res ≠ .ok then return .error res
      serve vol rest (Function.update clusters owner [])

section Runs

variable {Owner : Type} [DecidableEq Owner] {vol : Nat} {volume : VolumeContainer} {size : Nat}
  {build : Build} {fs : Fatfs} {disk : Nat → Buffer} {machine : Machine} {fmt : FatType}
  {counts : Prop} {allocation : Allocation Owner}

/-- One request: the calls do what the allocator does. -/
theorem serve_step (request : Request Owner) (rest : List (Request Owner))
    (allots : Allots vol volume size build fmt counts fs disk machine allocation)
    (mode : volume.fd.writeable = true) :
    ∃ fs' disk' middle,
      (∀ result after, (serve vol rest (request.apply fs.maxClust allocation).clusters).Outcome
        middle result after →
          (serve vol (request :: rest) allocation.clusters).Outcome machine result after) ∧
      Allots vol volume size build fmt counts fs' disk' middle
      (request.apply fs.maxClust allocation) ∧ Reworked fs fs' ∧ ∀ sector, OutsideFat fs sector →
        disk' sector = disk sector := by
  cases request with
  | grow owner =>
    obtain ⟨fs', disk', middle, created, allotsMiddle, reworked, _, outside⟩ :=
      createChain_grows allots mode owner
    refine ⟨fs', disk', middle, fun result after run => ?_, allotsMiddle, reworked, outside⟩
    refine outcome_bind.mpr ⟨_, _, created, ?_⟩
    rw [Request.apply, Allocation.grow] at run
    cases choice : allocation.choice fs.maxClust owner with
    | none =>
      rw [choice] at run
      exact run
    | some fresh =>
      rw [choice] at run
      obtain ⟨lower, upper, _⟩ := allots.chosen choice
      have width := Nat.lt_trans upper (allots.tabled.width)
      have widest : 2 ^ entryBits fmt ≤ 2 ^ 28 := by cases fmt <;> decide
      rw [Option.getD_some, if_neg (by omega), if_neg (by rw [diskError]; omega), if_neg (by omega)]
      exact run
  | shed owner =>
    rw [serve]
    cases cells : allocation.clusters owner with
    | nil =>
      have same : (Request.shed owner).apply fs.maxClust allocation = allocation := by
        rw [Request.apply, Allocation.shed, ← cells, Function.update_eq_self]
      rw [same]
      exact ⟨fs, disk, machine, fun _ _ run => run, allots, .refl, fun _ _ => rfl⟩
    | cons clst behind =>
      obtain ⟨fs', disk', middle, removed, allotsMiddle, reworked, _, outside⟩ :=
        removeChain_sheds allots mode cells
      refine ⟨fs', disk', middle, fun result after run => ?_, allotsMiddle, reworked, outside⟩
      refine outcome_bind.mpr ⟨_, _, removed, ?_⟩
      rw [if_neg (not_not.mpr rfl)]
      exact run

/-- A run of requests, by induction on them: the owners get what the allocator gives, and the FAT
shows it. -/
theorem serve_allocates (requests : List (Request Owner))
    (allots : Allots vol volume size build fmt counts fs disk machine allocation)
    (mode : volume.fd.writeable = true) :
    ∃ fs' disk' after,
      (serve vol requests allocation.clusters).Outcome machine
        (.ok (requests.foldl (Request.apply fs.maxClust) allocation).clusters) after ∧
      Allots vol volume size build fmt counts fs' disk' after
        (requests.foldl (Request.apply fs.maxClust) allocation) ∧
      Reworked fs fs' ∧ ∀ sector, OutsideFat fs sector → disk' sector = disk sector := by
  induction requests generalizing fs disk machine allocation with
  | nil => exact ⟨fs, disk, machine, outcome_pure.mpr ⟨rfl, rfl⟩, allots, .refl, fun _ _ => rfl⟩
  | cons request rest inductionHypothesis =>
    obtain ⟨fs₁, disk₁, middle, step, allotsMiddle, reworked, outside⟩ :=
      serve_step request rest allots mode
    obtain ⟨fs', disk', after, run, allotsAfter, further, outside'⟩ :=
      inductionHypothesis allotsMiddle
    rw [reworked.maxClust] at run allotsAfter
    exact ⟨fs', disk', after, step _ _ run, allotsAfter, reworked.trans further, fun sector away =>
      (outside' sector ((reworked.outside sector).mpr away)).trans (outside sector away)⟩

end Runs

end Ff

end Hdfmonkey
