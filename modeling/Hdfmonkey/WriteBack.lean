/-
This file is a small library of write-back windows: a store of blocks that is worked on
through a window of one block. The window is changed in place, and a changed window is
written back when it is moved. Some places of the store are copies of others: they are
written along with them.

What is seen through the window is one store that only the changes change. This holds at
every place that is not a copy, and it is the store itself once the window is written
back; the copies then show what the places they copy do.

Nothing here depends on what the places or the blocks are.
-/

import Mathlib.Logic.Function.Basic
import Mathlib.Tactic.SplitIfs

/-- A store, and a window that may hold one of its blocks and may have changed it. -/
structure WriteBack (Place Value : Type) where
  store : Place → Value
  place : Option Place
  win : Value
  dirty : Bool

namespace WriteBack

variable {Place Value : Type} [DecidableEq Place]

/-! ### The operations -/

/-- Put one block into several places. -/
def putAll (store : Place → Value) (places : List Place) (value : Value) : Place → Value :=
  fun place => if place ∈ places then value else store place

/-- What is seen at a place. -/
def view (cache : WriteBack Place Value) (place : Place) : Value :=
  if cache.place = some place then cache.win else cache.store place

section Operations

variable (mirrors : Place → List Place)

/-- The places that a changed window is written to. -/
def targets (cache : WriteBack Place Value) : List Place :=
  match cache.place with
  | none => []
  | some place => place :: mirrors place

/-- Write a changed window back. -/
def flush (cache : WriteBack Place Value) : WriteBack Place Value :=
  if cache.dirty then
    { cache with store := putAll cache.store (cache.targets mirrors) cache.win, dirty := false }
  else cache

/-- Move the window to a place. -/
def move (place : Place) (cache : WriteBack Place Value) : WriteBack Place Value :=
  if cache.place = some place then cache
  else
    { cache.flush mirrors with
      place := some place
      win := (cache.flush mirrors).store place }

end Operations

/-- Change the block in the window. -/
def edit (change : Value → Value) (cache : WriteBack Place Value) : WriteBack Place Value :=
  { cache with win := change cache.win, dirty := true }

/-- Take the block out of the window. -/
def drop (win : Value) (cache : WriteBack Place Value) : WriteBack Place Value :=
  { cache with place := none, win }

/-- Put another block into the window, as a change at a place. -/
def load (place : Place) (win : Value) (cache : WriteBack Place Value) : WriteBack Place Value :=
  { cache with place := some place, win, dirty := true }

/-- Put blocks into the store past the window. -/
def putPast (places : Place → Prop) [DecidablePred places] (values : Place → Value)
    (cache : WriteBack Place Value) : WriteBack Place Value :=
  { cache with store := fun place => if places place then values place else cache.store place }

/-! ### What holds along a run -/

/-- Copies are no places that are worked on, and each is the copy of one place. -/
structure Mirroring (main : Place → Prop) (mirrors : Place → List Place) : Prop where
  apart : ∀ place copy, main place → copy ∈ mirrors place → ¬ main copy
  own : ∀ place other copy, main place → main other → copy ∈ mirrors place →
    copy ∈ mirrors other → place = other

/-- The window is at a place that is worked on. If it is unchanged it shows what the place holds.
All copies are up to date but those of a changed block in the window. -/
structure Coherent (main : Place → Prop) (mirrors : Place → List Place)
    (cache : WriteBack Place Value) : Prop where
  inside : ∀ place, cache.place = some place → main place
  clean : cache.dirty = false → ∀ place, cache.place = some place → cache.win = cache.store place
  held : cache.dirty = true → cache.place ≠ none
  mirrored : ∀ place, main place → (cache.dirty = true → cache.place ≠ some place) →
    ∀ copy ∈ mirrors place, cache.store copy = cache.store place

section Runs

variable {main : Place → Prop} {mirrors : Place → List Place} {cache : WriteBack Place Value}
  {place : Place}

theorem putAll_nil (store : Place → Value) (value : Value) : putAll store [] value = store :=
  funext fun _ => if_neg List.not_mem_nil

/-- Blocks may be put into their places one after the other. -/
theorem putAll_cons (store : Place → Value) (first : Place) (rest : List Place) (value : Value) :
    putAll store (first :: rest) value = putAll (Function.update store first value) rest value := by
  funext place
  unfold putAll
  by_cases copied : place ∈ rest
  · rw [if_pos copied, if_pos (List.mem_cons_of_mem _ copied)]
  · rw [if_neg copied]
    by_cases here : place = first
    · rw [here, Function.update_self, if_pos List.mem_cons_self]
    · rw [Function.update_of_ne here, if_neg fun member =>
        (List.mem_cons.mp member).elim here copied]

omit [DecidableEq Place] in
theorem mem_targets : place ∈ cache.targets mirrors ↔
    ∃ here, cache.place = some here ∧ (place = here ∨ place ∈ mirrors here) := by
  unfold targets
  cases cache.place with
  | none => simp
  | some here => simp

theorem flush_of_clean (clean : cache.dirty = false) : cache.flush mirrors = cache := by
  rw [flush, clean]
  rfl

theorem place_flush : (cache.flush mirrors).place = cache.place := by
  unfold flush
  split_ifs <;> rfl

theorem win_flush : (cache.flush mirrors).win = cache.win := by
  unfold flush
  split_ifs <;> rfl

theorem dirty_flush : (cache.flush mirrors).dirty = false := by
  unfold flush
  split_ifs with dirty
  · rfl
  · exact Bool.eq_false_iff.mpr dirty

/-- Where a changed window is not written to, the store stays as it was. -/
theorem store_flush_of_notMem (other : place ∉ cache.targets mirrors) :
    (cache.flush mirrors).store place = cache.store place := by
  unfold flush
  split_ifs
  · exact if_neg other
  · rfl

/-- A window that was written back shows what the store holds. -/
theorem store_flush (mirroring : Mirroring main mirrors) (coherent : cache.Coherent main mirrors)
    (worked : main place) : (cache.flush mirrors).store place = cache.view place := by
  rw [view]
  by_cases here : cache.place = some place
  · rw [if_pos here]
    unfold flush
    split_ifs with dirty
    · exact if_pos (mem_targets.mpr ⟨place, here, .inl rfl⟩)
    · exact (coherent.clean (Bool.eq_false_iff.mpr dirty) place here).symm
  · rw [if_neg here, store_flush_of_notMem]
    rintro target
    obtain ⟨at', there, rfl | copied⟩ := mem_targets.mp target
    · exact here there
    · exact mirroring.apart at' place (coherent.inside at' there) copied worked

/-- So does every copy of the place. -/
theorem store_flush_copy (mirroring : Mirroring main mirrors)
    (coherent : cache.Coherent main mirrors)
    (worked : main place) {copy : Place} (copied : copy ∈ mirrors place) :
    (cache.flush mirrors).store copy = cache.view place := by
  have away : ∀ other, cache.place = some other → main other := coherent.inside
  by_cases changed : cache.dirty = true ∧ cache.place = some place
  · rw [flush, if_pos changed.1, view, if_pos changed.2]
    exact if_pos (mem_targets.mpr ⟨place, changed.2, .inr copied⟩)
  · have up : cache.store copy = cache.store place :=
      coherent.mirrored place worked (fun dirty here => changed ⟨dirty, here⟩) copy copied
    rw [← store_flush mirroring coherent worked]
    by_cases dirty : cache.dirty = true
    · have elsewhere : cache.place ≠ some place := fun here => changed ⟨dirty, here⟩
      rw [store_flush_of_notMem, store_flush_of_notMem, up]
      · intro target
        obtain ⟨at', there, rfl | second⟩ := mem_targets.mp target
        · exact elsewhere there
        · exact mirroring.apart at' place (away at' there) second worked
      · intro target
        obtain ⟨at', there, rfl | second⟩ := mem_targets.mp target
        · exact mirroring.apart place copy worked copied (away copy there)
        · exact elsewhere (mirroring.own place at' copy worked
            (away at' there) copied second ▸ there)
    · rw [flush_of_clean (Bool.eq_false_iff.mpr dirty), up]

/-- The window shows what is seen where it is. -/
theorem win_eq_view (here : cache.place = some place) : cache.win = cache.view place := by
  rw [view, if_pos here]

/-- Writing the window back changes nothing that is seen. -/
theorem view_flush (mirroring : Mirroring main mirrors) (coherent : cache.Coherent main mirrors)
    (worked : main place) : (cache.flush mirrors).view place = cache.view place := by
  by_cases here : cache.place = some place
  · rw [view, view, place_flush, if_pos here, if_pos here, win_flush]
  · rw [view, place_flush, if_neg here, store_flush mirroring coherent worked]

theorem Coherent.flush (mirroring : Mirroring main mirrors)
    (coherent : cache.Coherent main mirrors) : (cache.flush mirrors).Coherent main mirrors where
  inside place here := coherent.inside place (place_flush.symm.trans here)
  clean _ place here := by
    rw [place_flush] at here
    rw [win_flush, store_flush mirroring coherent (coherent.inside place here), view, if_pos here]
  held dirty := absurd (dirty_flush.symm.trans dirty) Bool.false_ne_true
  mirrored place worked _ copy copied := by
    rw [store_flush_copy mirroring coherent worked copied, store_flush mirroring coherent worked]

/-- Moving the window changes nothing that is seen. -/
theorem view_move (mirroring : Mirroring main mirrors) (coherent : cache.Coherent main mirrors)
    (worked : main place) (goal : Place) :
    (cache.move mirrors goal).view place = cache.view place := by
  rw [move]
  split_ifs with already
  · rfl
  · by_cases here : goal = place
    · rw [here, view, if_pos rfl, store_flush mirroring coherent worked]
    · rw [view, if_neg (fun same => here (Option.some.inj same)),
        store_flush mirroring coherent worked]

theorem place_move (goal : Place) : (cache.move mirrors goal).place = some goal := by
  rw [move]
  split_ifs with already
  · exact already
  · rfl

theorem Coherent.move (mirroring : Mirroring main mirrors) (coherent : cache.Coherent main mirrors)
    {goal : Place} (worked : main goal) : (cache.move mirrors goal).Coherent main mirrors := by
  rw [WriteBack.move]
  split_ifs with already
  · exact coherent
  · have flushed := coherent.flush mirroring
    have settled : (cache.flush mirrors).dirty = false := dirty_flush
    refine ⟨fun place here => ?_, fun _ place here => ?_, fun dirty => ?_, fun place worked _ => ?_⟩
    · exact Option.some.inj here ▸ worked
    · exact congrArg _ (Option.some.inj here)
    · exact absurd (settled.symm.trans dirty) Bool.false_ne_true
    · exact flushed.mirrored place worked fun dirty =>
        absurd (settled.symm.trans dirty) Bool.false_ne_true

/-- A change is seen where the window is, and nowhere else. -/
theorem view_edit {here : Place} (change : Value → Value) (there : cache.place = some here) :
    (cache.edit change).view = Function.update cache.view here (change (cache.view here)) := by
  funext place
  by_cases same : place = here
  · subst same
    have edited : (cache.edit change).place = some place := there
    rw [Function.update_self, ← win_eq_view there]
    exact if_pos edited
  · have elsewhere : cache.place ≠ some place := fun at' =>
      same (Option.some.inj (at'.symm.trans there))
    rw [Function.update_of_ne same]
    exact (if_neg (show (cache.edit change).place ≠ some place from elsewhere)).trans
      (if_neg elsewhere).symm

omit [DecidableEq Place] in
theorem Coherent.edit {here : Place} (coherent : cache.Coherent main mirrors)
    (there : cache.place = some here) (change : Value → Value) :
    (cache.edit change).Coherent main mirrors where
  inside := coherent.inside
  clean dirty := absurd dirty Bool.noConfusion
  held _ := there.symm ▸ Option.some_ne_none here
  mirrored place worked other := coherent.mirrored place worked fun _ => other rfl

omit [DecidableEq Place] in
/-- An unchanged block may be taken out of the window. -/
theorem Coherent.drop (coherent : cache.Coherent main mirrors) (clean : cache.dirty = false)
    (win : Value) : (cache.drop win).Coherent main mirrors where
  inside _ there := absurd there.symm (Option.some_ne_none _)
  clean _ _ there := absurd there.symm (Option.some_ne_none _)
  held dirty := absurd (clean.symm.trans dirty) Bool.false_ne_true
  mirrored place worked _ := coherent.mirrored place worked fun dirty =>
    absurd (clean.symm.trans dirty) Bool.false_ne_true

theorem view_drop (coherent : cache.Coherent main mirrors) (clean : cache.dirty = false)
    (win : Value) : (cache.drop win).view = cache.view := by
  funext place
  rw [view, view, if_neg (fun there => absurd there.symm (Option.some_ne_none _))]
  split_ifs with here
  · exact (coherent.clean clean place here).symm
  · rfl

omit [DecidableEq Place] in
/-- An unchanged block may be replaced by a change at any place that is worked on. -/
theorem Coherent.load (coherent : cache.Coherent main mirrors) (clean : cache.dirty = false)
    (worked : main place) (win : Value) : (cache.load place win).Coherent main mirrors where
  inside _ there := Option.some.inj there ▸ worked
  clean dirty := absurd dirty Bool.noConfusion
  held _ := Option.some_ne_none _
  mirrored other worked _ := coherent.mirrored other worked fun dirty =>
    absurd (clean.symm.trans dirty) Bool.false_ne_true

theorem view_load (coherent : cache.Coherent main mirrors) (clean : cache.dirty = false)
    (win : Value) : (cache.load place win).view = Function.update cache.view place win := by
  funext other
  by_cases same : other = place
  · subst same
    rw [Function.update_self]
    exact if_pos rfl
  · rw [Function.update_of_ne same]
    refine (if_neg fun there => same (Option.some.inj there).symm).trans ?_
    rw [view]
    split_ifs with here
    · exact (coherent.clean clean other here).symm
    · rfl

omit [DecidableEq Place] in
/-- Blocks may be put past the window where it is not, where nothing is copied to, and where nothing
is copied from. -/
theorem Coherent.putPast {places : Place → Prop} [DecidablePred places]
    (coherent : cache.Coherent main mirrors)
    (elsewhere : ∀ place, places place → cache.place ≠ some place)
    (single : ∀ other, main other → ∀ copy ∈ mirrors other, ¬places copy)
    (alone : ∀ place, places place → main place → mirrors place = []) (values : Place → Value) :
    (cache.putPast places values).Coherent main mirrors := by
  have kept {other : Place} (different : ¬places other) :
      (cache.putPast places values).store other = cache.store other := if_neg different
  refine ⟨coherent.inside, fun clean other here => ?_, coherent.held,
    fun other worked up copy copied => ?_⟩
  · rw [kept fun put => elsewhere other put here]
    exact coherent.clean clean other here
  · have source : ¬places other := fun put =>
      List.not_mem_nil (alone other put worked ▸ copied)
    rw [kept (single other worked copy copied), kept source]
    exact coherent.mirrored other worked up copy copied

/-- They are seen where they were put. -/
theorem view_putPast {places : Place → Prop} [DecidablePred places]
    (elsewhere : ∀ place, places place → cache.place ≠ some place) (values : Place → Value)
    (place : Place) : (cache.putPast places values).view place =
      if places place then values place else cache.view place := by
  by_cases put : places place
  · rw [if_pos put]
    exact (if_neg (elsewhere place put)).trans (if_pos put)
  · have kept : (cache.putPast places values).store place = cache.store place := if_neg put
    rw [if_neg put, view, view, kept]
    rfl

end Runs

end WriteBack
