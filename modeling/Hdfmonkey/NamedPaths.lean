/-
This file follows the paths that a copy puts together.

They consist of names as `f_readdir` shows them, each behind a slash. Such a path leads
through directories one name at a time, and it goes on leading to the same directory
while entries are added to the volume and files are written.
-/

import Hdfmonkey.NamedVolume

namespace Hdfmonkey

/-- A name that is a segment of a path as it stands. -/
structure Segment (name : FatPath) : Prop where
  nonempty : name ≠ []
  plain : ∀ b ∈ name, endsSegment b = false

/-- A name that is a segment of a path as it stands and fits in the buffer of a long name. -/
structure PlainName (name : FatPath) : Prop where
  nonempty : name ≠ []
  short : name.length < maxLfn
  plain : ∀ b ∈ name, endsSegment b = false

theorem PlainName.segment {name : FatPath} (plain : PlainName name) : Segment name :=
  ⟨plain.nonempty, plain.plain⟩

theorem segments {names : List FatPath} (plains : ∀ name ∈ names, PlainName name) :
    ∀ name ∈ names, Segment name := fun name member => (plains name member).segment

/-- The names, each behind a slash. -/
def joined (names : List FatPath) : FatPath := names.flatMap (0x2f :: ·)

theorem joined_cons (name : FatPath) (names : List FatPath) :
    joined (name :: names) = 0x2f :: (name ++ joined names) := rfl

theorem joined_concat (names : List FatPath) (name : FatPath) :
    joined (names ++ [name]) = joined names ++ 0x2f :: name := by
  rw [joined, joined, List.flatMap_append, List.flatMap_singleton]

theorem head_joined (names : List FatPath) (name : FatPath) :
    (joined (names ++ [name])).head? = some 0x2f := by
  cases names <;> rfl

theorem length_le_joined (names : List FatPath) : names.length ≤ (joined names).length := by
  induction names with
  | nil => exact Nat.le_refl _
  | cons name names inductionHypothesis =>
    rw [joined_cons, List.length_cons, List.length_cons, List.length_append]
    omega

namespace NamedVolume

/-- The entry at which the look-up of a name in a directory stops. -/
def Finds (volume : NamedVolume) (table : Nat) (filename : FatPath) (index : Nat)
    (entry : DirEntry) : Prop :=
  ∃ name, createName filename = some name ∧ dirFind (volume.labels table) name = some index ∧
    (volume.entries table)[index]? = some entry

/-- The names lead from a directory to another. -/
inductive Leads (volume : NamedVolume) : Nat → List FatPath → Nat → Prop where
  | here {table : Nat} : volume.Leads table [] table
  | into {table index target : Nat} {name : FatPath} {names : List FatPath} {entry : DirEntry}
      (finds : volume.Finds table name index entry) (directory : entry.isDir = true)
      (leads : volume.Leads entry.table names target) :
    volume.Leads table (name :: names) target

/-- Where a name leads that is the last of a path. -/
def child (volume : NamedVolume) (table : Nat) (filename : FatPath) : Except FResult Followed :=
  match createName filename with
  | none => .error .invalidName
  | some name =>
    match dirFind (volume.labels table) name with
    | none => .ok (.missing table name)
    | some index => .ok (.entry table index)

variable {volume : NamedVolume} {table target : Nat} {names : List FatPath} {filename : FatPath}

theorem Finds.unique {index index' : Nat} {entry entry' : DirEntry}
    (finds : volume.Finds table filename index entry)
    (finds' : volume.Finds table filename index' entry') : index' = index ∧ entry' = entry := by
  obtain ⟨name, created, found, present⟩ := finds
  obtain ⟨name', created', found', present'⟩ := finds'
  obtain rfl := Option.some.inj (created.symm.trans created')
  obtain rfl := Option.some.inj (found.symm.trans found')
  exact ⟨rfl, Option.some.inj (present'.symm.trans present)⟩

theorem Leads.concat {index : Nat} {entry : DirEntry} (leads : volume.Leads table names target)
    (finds : volume.Finds target filename index entry) (directory : entry.isDir = true) :
    volume.Leads table (names ++ [filename]) entry.table := by
  induction leads with
  | here => exact .into finds directory .here
  | into found inside _ inductionHypothesis => exact .into found inside (inductionHypothesis finds)

/-! ### Following a path -/

theorem takeWhile_plain {rest : FatPath} (plain : Segment filename)
    (ends : rest.head?.all endsSegment = true) :
    (filename ++ rest).takeWhile (fun b => !endsSegment b) = filename := by
  rw [List.takeWhile_append_of_pos fun b member => by rw [plain.plain b member]; rfl]
  cases rest with
  | nil => exact List.append_nil _
  | cons b rest =>
    have ends : endsSegment b = true := ends
    rw [List.takeWhile_cons_of_neg (by rw [ends]; exact Bool.false_ne_true), List.append_nil]

/-- A turn of the loop takes a plain name. -/
theorem followSegments_plain {fuel : Nat} {rest : FatPath} (plain : Segment filename)
    (ends : rest.head?.all endsSegment = true) :
    followSegments volume (fuel + 1) table (filename ++ rest) =
      match createName filename with
      | none => .error .invalidName
      | some name =>
        match dirFind (volume.labels table) name with
        | none =>
          if rest.head?.all (· < 0x20) then .ok (.missing table name) else .error .noPath
        | some index =>
          if rest.head?.all (· < 0x20) then .ok (.entry table index)
          else match (volume.entries table)[index]? with
            | some entry =>
              if entry.isDir then followSegments volume fuel entry.table rest.tail
              else .error .noPath
            | none => .error .intErr := by
  have turn := followSegments.eq_2 volume table (filename ++ rest) fuel
  rw [takeWhile_plain plain ends, List.drop_left] at turn
  exact turn

/-- Names that lead somewhere take a turn each. -/
theorem followSegments_append {fuel : Nat} {rest : List FatPath}
    (leads : volume.Leads table names target) (plains : ∀ name ∈ names, Segment name)
    (more : rest ≠ []) (enough : names.length ≤ fuel) :
    followSegments volume fuel table (joined (names ++ rest)).tail =
      followSegments volume (fuel - names.length) target (joined rest).tail := by
  induction leads generalizing fuel with
  | here => rfl
  | into finds directory leads inductionHypothesis =>
    cases fuel with
    | zero => exact absurd enough (Nat.not_succ_le_zero _)
    | succ fuel =>
      rename_i names _
      obtain ⟨first, others⟩ := List.forall_mem_cons.mp plains
      obtain ⟨named, created, found, present⟩ := finds
      have separator : (joined (names ++ rest)).head? = some 0x2f := by
        obtain ⟨name, tail, spelled⟩ :=
          List.exists_cons_of_ne_nil (List.append_ne_nil_of_right_ne_nil names more)
        rw [spelled]
        rfl
      rw [List.cons_append, joined_cons, List.tail_cons,
        followSegments_plain first (by rw [separator]; rfl), created]
      dsimp only
      rw [found, separator]
      dsimp only
      rw [present, if_neg (by decide)]
      dsimp only
      rw [if_pos directory, inductionHypothesis others (Nat.le_of_succ_le_succ enough),
        List.length_cons, Nat.succ_sub_succ]

/-- A path of segments, with or without the slash in front, is followed from the root directory. -/
theorem followPath_segments (plains : ∀ name ∈ names, Segment name) (some : names ≠ []) :
    followPath volume (joined names) =
        followSegments volume ((joined names).tail.length + 1) 0 (joined names).tail ∧
      followPath volume (joined names).tail =
        followSegments volume ((joined names).tail.length + 1) 0 (joined names).tail := by
  obtain ⟨first, others, rfl⟩ := List.exists_cons_of_ne_nil some
  obtain ⟨nonempty, plain⟩ := plains first List.mem_cons_self
  obtain ⟨b, name, rfl⟩ := List.exists_cons_of_ne_nil nonempty
  have visible : decide (b < 0x20) = false ∧ (decide (b = 0x2f) || decide (b = 0x5c)) = false := by
    have ordinary := plain b List.mem_cons_self
    rw [endsSegment, Bool.or_assoc, Bool.or_eq_false_iff] at ordinary
    exact ordinary
  have begins : (joined ((b :: name) :: others)).tail.head? = Option.some b := rfl
  have starts : (joined ((b :: name) :: others)).tail.head?.all (· < 0x20) = false := by
    rw [begins]
    exact visible.1
  have separator : (Option.some (0x2f : UInt8)).any (fun b => b = 0x2f || b = 0x5c) = true := by
    decide
  have relative : (joined ((b :: name) :: others)).tail.head?.any
      (fun b => b = 0x2f || b = 0x5c) = false := by
    rw [begins]
    exact visible.2
  have slash : (joined ((b :: name) :: others)).head? = Option.some 0x2f := rfl
  constructor
  · rw [followPath, slash, separator, if_pos rfl, starts, if_neg Bool.false_ne_true]
  · rw [followPath, relative, if_neg Bool.false_ne_true, starts, if_neg Bool.false_ne_true]

/-- A path whose last name is in a directory that the others lead to. -/
theorem followSegments_leads (leads : volume.Leads 0 names target)
    (plains : ∀ name ∈ names, Segment name) (plain : Segment filename) :
    followSegments volume ((joined (names ++ [filename])).tail.length + 1) 0
      (joined (names ++ [filename])).tail = volume.child target filename := by
  have fuel := length_le_joined (names ++ [filename])
  rw [List.length_append, List.length_singleton] at fuel
  have turns : ∃ less, (joined (names ++ [filename])).tail.length + 1 - names.length =
    less + 1 := by
    rw [List.length_tail]
    exact ⟨_, (Nat.succ_pred_eq_of_pos (by omega)).symm⟩
  obtain ⟨less, turns⟩ := turns
  rw [followSegments_append leads plains (List.cons_ne_nil _ _)
    (by rw [List.length_tail]; omega), turns]
  have last := @followSegments_plain volume target filename less [] plain rfl
  rw [List.append_nil] at last
  rw [joined_cons, List.tail_cons]
  show followSegments volume (less + 1) target (filename ++ []) = _
  rw [List.append_nil, last]
  rfl

/-- A path that goes on behind a name that is not there. -/
theorem followSegments_missing {name : Name} {more : List FatPath}
    (leads : volume.Leads 0 names target) (plains : ∀ name ∈ names, Segment name)
    (plain : Segment filename) (created : createName filename = some name)
    (missing : dirFind (volume.labels target) name = none) (some : more ≠ []) :
    followSegments volume ((joined (names ++ filename :: more)).tail.length + 1) 0
      (joined (names ++ filename :: more)).tail = .error .noPath := by
  have fuel := length_le_joined (names ++ filename :: more)
  rw [List.length_append, List.length_cons] at fuel
  have turns : ∃ less, (joined (names ++ filename :: more)).tail.length + 1 - names.length =
      less + 1 := by
    rw [List.length_tail]
    exact ⟨_, (Nat.succ_pred_eq_of_pos (by omega)).symm⟩
  obtain ⟨less, turns⟩ := turns
  have separator : (joined more).head? = Option.some 0x2f := by
    obtain ⟨first, tail, rfl⟩ := List.exists_cons_of_ne_nil some
    rfl
  rw [followSegments_append leads plains (List.cons_ne_nil _ _)
    (by rw [List.length_tail]; omega), turns, joined_cons, List.tail_cons,
    followSegments_plain plain (by rw [separator]; rfl), created]
  dsimp only
  rw [missing, separator]
  rfl

/-! ### What stays in place -/

/-- An entry but for the bytes of the file. -/
def skeleton (entry : DirEntry) : DirEntry := { entry with content := [] }

/-- The second volume has the entries of the first at their places, with other bytes perhaps, and
new ones behind them. -/
def Grown (before after : NamedVolume) : Prop :=
  ∀ table, (before.entries table).map skeleton <+: (after.entries table).map skeleton

variable {before after : NamedVolume}

theorem Grown.refl : Grown volume volume := fun _ => List.prefix_rfl

theorem Grown.trans {middle : NamedVolume} (first : Grown before middle)
    (second : Grown middle after) : Grown before after :=
  fun table => (first table).trans (second table)

theorem Grown.labels (grown : Grown before after) (table : Nat) :
    before.labels table <+: after.labels table := by
  have labels := (grown table).map DirEntry.toLabel
  rwa [List.map_map, List.map_map] at labels

theorem Grown.finds {index : Nat} {entry : DirEntry} (grown : Grown before after)
    (finds : before.Finds table filename index entry) :
    ∃ content, after.Finds table filename index { entry with content } := by
  obtain ⟨name, created, found, present⟩ := finds
  obtain ⟨more, labels⟩ := grown.labels table
  obtain ⟨others, entries⟩ := grown table
  have kept : ((after.entries table).map skeleton)[index]? = some (skeleton entry) := by
    rw [← entries, List.getElem?_append_left, List.getElem?_map, present]
    · rfl
    · rw [List.length_map]
      exact (List.getElem?_eq_some_iff.mp present).1
  rw [List.getElem?_map, Option.map_eq_some_iff] at kept
  obtain ⟨entry', present', same⟩ := kept
  refine ⟨entry'.content, name, created, ?_, ?_⟩
  · rw [dirFind] at found ⊢
    rw [← labels, List.findIdx?_append, found]
    rfl
  · rw [present']
    exact congrArg (fun skeleton => some { skeleton with content := entry'.content }) same

theorem Grown.leads (grown : Grown before after) (leads : before.Leads table names target) :
    after.Leads table names target := by
  induction leads with
  | here => exact .here
  | into finds directory _ inductionHypothesis =>
    obtain ⟨content, finds⟩ := grown.finds finds
    exact .into finds directory inductionHypothesis

theorem entries_change_self {change : List DirEntry → List DirEntry} :
    (volume.change table change).entries table = change (volume.entries table) :=
  Function.update_self _ _ _

theorem entries_change_of_ne {change : List DirEntry → List DirEntry} {other : Nat}
    (different : other ≠ table) :
    (volume.change table change).entries other = volume.entries other :=
  Function.update_of_ne different _ _

theorem change_change {change later : List DirEntry → List DirEntry} :
    (volume.change table change).change table later = volume.change table (later ∘ change) := by
  rw [NamedVolume.change, entries_change_self]
  exact congrArg (fun entries => { volume with entries }) (Function.update_idem _ _ _)

/-- Writing to the entry at the end of a directory. -/
theorem store_append {entry : DirEntry} {content : List UInt8} :
    (volume.change table (· ++ [entry])).store table (volume.entries table).length content =
      volume.change table (· ++ [{ entry with content }]) := by
  rw [store, change_change, NamedVolume.change, NamedVolume.change]
  refine congrArg (fun kept => { volume with entries := Function.update volume.entries table kept })
    ?_
  show (volume.entries table ++ [entry]).modify _ _ = _
  rw [List.modify_eq_take_drop, List.take_left, List.drop_left]
  rfl

theorem store_store {index : Nat} {content later : List UInt8} :
    (volume.store table index content).store table index later =
      volume.store table index later := by
  rw [store, store, change_change, store, NamedVolume.change, NamedVolume.change]
  refine congrArg (fun kept => { volume with entries := Function.update volume.entries table kept })
    ?_
  exact List.modify_modify_eq _ _ _ _

/-- A change of a directory that keeps its entries in place. -/
theorem grown_change {change : List DirEntry → List DirEntry}
    (keeps : (volume.entries table).map skeleton <+: (change (volume.entries table)).map skeleton) :
    Grown volume (volume.change table change) := by
  intro other
  by_cases same : other = table
  · subst same
    rwa [entries_change_self]
  · exact (congrArg (List.map skeleton) (entries_change_of_ne same)).symm ▸ List.prefix_rfl

theorem skeleton_modify {entries : List DirEntry} {index : Nat} {content : List UInt8} :
    (entries.modify index fun entry => { entry with content }).map skeleton =
      entries.map skeleton := by
  refine List.ext_getElem? fun place => ?_
  rw [List.getElem?_map, List.getElem?_map, List.getElem?_modify]
  cases entries[place]? with
  | none => rfl
  | some entry =>
    show some (skeleton (if _ then _ else _)) = some (skeleton entry)
    split_ifs <;> rfl

end NamedVolume

end Hdfmonkey
