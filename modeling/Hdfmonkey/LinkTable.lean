/-
This file develops tables of links: a cell of such a table is free, or names the cell
behind it in a list, or is the last one of its list.

Several owners have a list each. The lists share no cell and leave out none that is in
use, and they stay so when a list gets a free cell at its end and when all cells of a list
are given back.
-/

import Mathlib.Data.List.Basic
import Mathlib.Data.List.Nodup
import Mathlib.Logic.Function.Basic
import Mathlib.Tactic.SplitIfs

/-- What a cell of a table of links says. -/
inductive Link (Cell : Type) where
  | free
  | next (cell : Cell)
  | last
  deriving DecidableEq, Repr

namespace Link

variable {Cell : Type} {cell : Cell}

theorem last_ne_free : (last : Link Cell) ≠ free := by simp

theorem next_ne_free : next cell ≠ free := by simp

theorem next_ne_last : next cell ≠ last := by simp

end Link

/-- The cells of a list name each other in their order, and the last one ends it. -/
def Linked {Cell : Type} (table : Cell → Link Cell) : List Cell → Prop
  | [] => True
  | [cell] => table cell = .last
  | cell :: behind :: rest => table cell = .next behind ∧ Linked table (behind :: rest)

namespace Linked

section Lists

variable {Cell : Type} {table other : Cell → Link Cell} {cell : Cell} {cells rest more : List Cell}

theorem tail (linked : Linked table (cell :: rest)) : Linked table rest := by
  cases rest with
  | nil => trivial
  | cons behind rest => exact linked.2

theorem suffix {front : List Cell} (linked : Linked table (front ++ rest)) : Linked table rest := by
  induction front with
  | nil => exact linked
  | cons first front inductionHypothesis => exact inductionHypothesis linked.tail

theorem used (linked : Linked table cells) (member : cell ∈ cells) : table cell ≠ .free := by
  induction cells with
  | nil => exact absurd member List.not_mem_nil
  | cons first rest inductionHypothesis =>
    rcases List.mem_cons.mp member with rfl | later
    · cases rest with
      | nil =>
        rw [show table cell = .last from linked]
        exact Link.last_ne_free
      | cons behind rest =>
        rw [linked.1]
        exact Link.next_ne_free
    · exact inductionHypothesis linked.tail later

/-- The cell behind one of a list is in the list. -/
theorem next_mem {target : Cell} (linked : Linked table cells) (member : cell ∈ cells)
    (link : table cell = .next target) : target ∈ cells := by
  induction cells with
  | nil => exact absurd member List.not_mem_nil
  | cons first rest inductionHypothesis =>
    cases rest with
    | nil =>
      rw [List.mem_singleton.mp member] at link
      exact absurd (link.symm.trans linked) Link.next_ne_last
    | cons behind rest =>
      rcases List.mem_cons.mp member with rfl | later
      · have same := Link.next.inj (link.symm.trans linked.1)
        rw [same]
        exact List.mem_cons_of_mem _ List.mem_cons_self
      · exact List.mem_cons_of_mem _ (inductionHypothesis linked.2 later)

/-- A list depends on what its own cells say. -/
theorem congr (linked : Linked table cells) (same : ∀ cell ∈ cells, other cell = table cell) :
    Linked other cells := by
  induction cells with
  | nil => trivial
  | cons first rest inductionHypothesis =>
    have here := same first List.mem_cons_self
    have behind := inductionHypothesis linked.tail fun cell member =>
      same cell (List.mem_cons_of_mem _ member)
    cases rest with
    | nil => exact here.trans linked
    | cons second rest => exact ⟨here.trans linked.1, behind⟩

/-- The first cell fixes the list. -/
theorem unique (first : Linked table (cell :: rest)) (second : Linked table (cell :: more)) :
    rest = more := by
  induction rest generalizing cell more with
  | nil =>
    cases more with
    | nil => rfl
    | cons behind more => exact absurd (second.1.symm.trans first) Link.next_ne_last
  | cons behind rest inductionHypothesis =>
    cases more with
    | nil => exact absurd (first.1.symm.trans second) Link.next_ne_last
    | cons other more =>
      have same := Link.next.inj (first.1.symm.trans second.1)
      subst same
      rw [inductionHypothesis first.2 second.2]

/-- No list comes back to a cell. -/
theorem nodup (linked : Linked table cells) : cells.Nodup := by
  induction cells with
  | nil => exact List.nodup_nil
  | cons first rest inductionHypothesis =>
    refine List.nodup_cons.mpr ⟨fun again => ?_, inductionHypothesis linked.tail⟩
    obtain ⟨front, more, split⟩ := List.append_of_mem again
    have later : Linked table (first :: more) := by
      have behind := linked.tail
      rw [split] at behind
      exact behind.suffix
    have length := congrArg List.length split
    rw [linked.unique later, List.length_append, List.length_cons] at length
    omega

/-- A cell of a list that has another one behind it names that one. -/
theorem next_at (linked : Linked table cells) {number : Nat} (behind : number + 1 < cells.length)
    (none : Cell) : table (cells.getD number none) = .next (cells.getD (number + 1) none) := by
  induction cells generalizing number with
  | nil => exact absurd behind (Nat.not_lt_zero _)
  | cons first rest inductionHypothesis =>
    cases rest with
    | nil => exact absurd behind (Nat.not_lt.mpr (Nat.le_add_left 1 number))
    | cons second rest =>
      cases number with
      | zero => exact linked.1
      | succ number => exact inductionHypothesis linked.2 (Nat.lt_of_succ_lt_succ behind)

/-- The last cell of a list ends it. -/
theorem last_at (linked : Linked table cells) (some : cells ≠ []) (none : Cell) :
    table (cells.getD (cells.length - 1) none) = .last := by
  induction cells with
  | nil => exact absurd rfl some
  | cons first rest inductionHypothesis =>
    cases rest with
    | nil => exact linked
    | cons second rest => exact inductionHypothesis linked.2 (List.cons_ne_nil _ _)

/-- A list gets longer where all but its last cell stay as they are. -/
theorem extend {front : List Cell} {fresh : Cell} (linked : Linked table (front ++ [cell]))
    (same : ∀ place ∈ front, other place = table place) (link : other cell = .next fresh)
    (final : other fresh = .last) : Linked other (front ++ [cell] ++ [fresh]) := by
  induction front with
  | nil => exact ⟨link, final⟩
  | cons first front inductionHypothesis =>
    have here := same first List.mem_cons_self
    have behind := inductionHypothesis linked.tail fun place member =>
      same place (List.mem_cons_of_mem _ member)
    cases front with
    | nil => exact ⟨here.trans linked.1, behind⟩
    | cons second front => exact ⟨here.trans linked.1, behind⟩

end Lists

end Linked

/-! ### Changing a table -/

section Changes

variable {Cell : Type} [DecidableEq Cell] {table : Cell → Link Cell} {cell fresh : Cell}
  {cells rest : List Cell}

/-- Put a cell behind the last one of a list. -/
def linkBehind (table : Cell → Link Cell) (cells : List Cell) (fresh : Cell) : Cell → Link Cell :=
  match cells.getLast? with
  | none => Function.update table fresh .last
  | some edge => Function.update (Function.update table fresh .last) edge (.next fresh)

/-- Give the cells of a list back. -/
def giveBack (table : Cell → Link Cell) (cells : List Cell) : Cell → Link Cell := fun cell =>
  if cell ∈ cells then .free else table cell

theorem giveBack_nil : giveBack table [] = table := funext fun _ => if_neg List.not_mem_nil

/-- The cells may be given back one by one. -/
theorem giveBack_cons :
    giveBack table (cell :: rest) = giveBack (Function.update table cell .free) rest := by
  funext place
  unfold giveBack
  by_cases later : place ∈ rest
  · rw [if_pos (List.mem_cons_of_mem _ later), if_pos later]
  · rw [if_neg later]
    by_cases here : place = cell
    · rw [here, if_pos List.mem_cons_self, Function.update_self]
    · rw [if_neg (List.not_mem_cons_of_ne_of_not_mem here later), Function.update_of_ne here]

theorem linkBehind_of_notMem (apart : cell ∉ cells) (old : cell ≠ fresh) :
    linkBehind table cells fresh cell = table cell := by
  unfold linkBehind
  cases last : cells.getLast? with
  | none => exact Function.update_of_ne old _ _
  | some edge =>
    have there := List.mem_of_getLast? last
    have inner : cell ≠ edge := fun same => apart (same ▸ there)
    exact (Function.update_of_ne inner _ _).trans (Function.update_of_ne old _ _)

theorem linkBehind_fresh (apart : fresh ∉ cells) : linkBehind table cells fresh fresh = .last := by
  unfold linkBehind
  cases last : cells.getLast? with
  | none => exact Function.update_self _ _ _
  | some edge =>
    have there := List.mem_of_getLast? last
    have inner : fresh ≠ edge := fun same => apart (same ▸ there)
    exact (Function.update_of_ne inner _ _).trans (Function.update_self _ _ _)

theorem Linked.longer (linked : Linked table cells) (free : table fresh = .free) :
    Linked (linkBehind table cells fresh) (cells ++ [fresh]) := by
  have apart : fresh ∉ cells := fun member => linked.used member free
  have final := @linkBehind_fresh _ _ table _ _ apart
  rcases List.eq_nil_or_concat cells with rfl | ⟨front, edge, rfl⟩
  · exact final
  · rw [List.concat_eq_append] at *
    have different : edge ∉ front := by
      have nodup := linked.nodup
      rw [List.nodup_append] at nodup
      exact fun member => nodup.2.2 edge member edge List.mem_cons_self rfl
    refine linked.extend (fun place member => ?_) ?_ final
    · have old : place ≠ fresh := fun same => apart (same ▸ List.mem_append_left _ member)
      have inner : place ≠ edge := fun same => different (same ▸ member)
      rw [linkBehind, List.getLast?_concat]
      exact (Function.update_of_ne inner _ _).trans (Function.update_of_ne old _ _)
    · rw [linkBehind, List.getLast?_concat]
      exact Function.update_self _ _ _

end Changes

/-! ### Owners -/

/-- No cell is in the lists of two owners. -/
def Unshared {Cell Owner : Type} (lists : Owner → List Cell) : Prop :=
  ∀ owner other cell, cell ∈ lists owner → cell ∈ lists other → owner = other

section Unshared

variable {Cell Owner : Type} [DecidableEq Owner] {lists : Owner → List Cell} {cell fresh : Cell}

theorem mem_grow {owner other : Owner} :
    cell ∈ Function.update lists owner (lists owner ++ [fresh]) other ↔
      cell ∈ lists other ∨ other = owner ∧ cell = fresh := by
  by_cases same : other = owner
  · rw [same, Function.update_self, List.mem_append, List.mem_singleton]
    simp
  · rw [Function.update_of_ne same]
    simp [same]

theorem mem_shed {owner other : Owner} :
    cell ∈ Function.update lists owner [] other ↔ cell ∈ lists other ∧ other ≠ owner := by
  by_cases same : other = owner
  · rw [same, Function.update_self]
    simp
  · rw [Function.update_of_ne same]
    simp [same]

theorem Unshared.grow (unshared : Unshared lists) (owner : Owner)
    (free : ∀ other, fresh ∉ lists other) :
    Unshared (Function.update lists owner (lists owner ++ [fresh])) := by
  intro first second cell member also
  rcases mem_grow.mp member with old | ⟨here, rfl⟩
  · rcases mem_grow.mp also with older | ⟨_, rfl⟩
    · exact unshared first second cell old older
    · exact absurd old (free first)
  · rcases mem_grow.mp also with old | ⟨there, _⟩
    · exact absurd old (free second)
    · exact here.trans there.symm

theorem Unshared.shed (unshared : Unshared lists) (owner : Owner) :
    Unshared (Function.update lists owner []) := fun first second cell member also =>
  unshared first second cell (mem_shed.mp member).1 (mem_shed.mp also).1

end Unshared

/-- Every owner has a list of cells; the lists share none, and all that are in use are in one. -/
structure Allotted {Cell Owner : Type} (table : Cell → Link Cell) (lists : Owner → List Cell) : Prop
    where
  linked : ∀ owner, Linked table (lists owner)
  apart : Unshared lists
  owned : ∀ cell, table cell ≠ .free → ∃ owner, cell ∈ lists owner

namespace Allotted

section Owners

variable {Cell Owner : Type} {table : Cell → Link Cell} {lists : Owner → List Cell}
  {cell fresh : Cell}

theorem free_iff (allotted : Allotted table lists) :
    table cell = .free ↔ ∀ owner, cell ∉ lists owner := by
  constructor
  · intro free owner member
    exact (allotted.linked owner).used member free
  · intro none
    by_contra used
    obtain ⟨owner, member⟩ := allotted.owned cell used
    exact none owner member

/-- No cell names a free one. -/
theorem next_used {target : Cell} (allotted : Allotted table lists)
    (link : table cell = .next target) : table target ≠ .free := by
  have used : table cell ≠ .free := by
    rw [link]
    exact Link.next_ne_free
  obtain ⟨owner, member⟩ := allotted.owned cell used
  exact (allotted.linked owner).used ((allotted.linked owner).next_mem member link)

variable [DecidableEq Cell] [DecidableEq Owner]

/-- A list gets a free cell. -/
theorem grow (allotted : Allotted table lists) (owner : Owner) (free : table fresh = .free) :
    Allotted (linkBehind table (lists owner) fresh)
      (Function.update lists owner (lists owner ++ [fresh])) where
  linked other := by
    by_cases same : other = owner
    · rw [same, Function.update_self]
      exact (allotted.linked owner).longer free
    · rw [Function.update_of_ne same]
      refine (allotted.linked other).congr fun cell member => linkBehind_of_notMem ?_ ?_
      · exact fun also => same (allotted.apart _ _ _ member also)
      · exact fun taken => allotted.free_iff.mp free other (taken ▸ member)
  apart := allotted.apart.grow owner (allotted.free_iff.mp free)
  owned cell used := by
    by_cases new : cell = fresh
    · exact ⟨owner, mem_grow.mpr (.inr ⟨rfl, new⟩)⟩
    · by_cases own : cell ∈ lists owner
      · exact ⟨owner, mem_grow.mpr (.inl own)⟩
      · rw [linkBehind_of_notMem own new] at used
        obtain ⟨other, member⟩ := allotted.owned cell used
        exact ⟨other, mem_grow.mpr (.inl member)⟩

/-- The cells of a list are given back. -/
theorem shed (allotted : Allotted table lists) (owner : Owner) :
    Allotted (giveBack table (lists owner)) (Function.update lists owner []) where
  linked other := by
    by_cases same : other = owner
    · rw [same, Function.update_self]
      trivial
    · rw [Function.update_of_ne same]
      exact (allotted.linked other).congr fun cell member =>
        if_neg fun also => same (allotted.apart _ _ _ member also)
  apart := allotted.apart.shed owner
  owned cell used := by
    unfold giveBack at used
    split_ifs at used with own
    · exact absurd rfl used
    · obtain ⟨other, member⟩ := allotted.owned cell used
      exact ⟨other, mem_shed.mpr ⟨member, fun same => own (same ▸ member)⟩⟩

end Owners

end Allotted
