/-
This file is a small library of named files. A store maps names to files through
an intermediate node, so two names may refer to one file: a file opened under one
name is the file seen, and changed, under the other. Opening looks a name up;
creating empties the file a name refers to, or gives the name a node that no name
refers to yet.

Nothing here depends on what the files contain.
-/

import Hdfmonkey.ByteFile
import Mathlib.Logic.Function.Basic

/-- Named files. Every node a name refers to is below `next`, so `next` is free. -/
structure FileStore (Name : Type) where
  node : Name → Option Nat
  file : Nat → ByteFile
  next : Nat
  used : ∀ name index, node name = some index → index < next

namespace FileStore

variable {Name : Type}

/-- The store without names. -/
def empty : FileStore Name where
  node _ := none
  file _ := ByteFile.empty
  next := 0
  used _ _ refers := nomatch refers

/-- Replace the contents of one node. -/
def put (store : FileStore Name) (index : Nat) (file : ByteFile) : FileStore Name :=
  { store with file := Function.update store.file index file }

/-- Open a name for writing from scratch: the file it refers to is emptied, and a name that
refers to nothing gets a new empty file. The result is the node. -/
def create [DecidableEq Name] (store : FileStore Name) (name : Name) : Nat × FileStore Name :=
  match found : store.node name with
  | some index => (index, store.put index ByteFile.empty)
  | none => (store.next, {
      node := Function.update store.node name (some store.next)
      file := Function.update store.file store.next ByteFile.empty
      next := store.next + 1
      used := fun other index refers => by
        by_cases same : other = name
        · subst same
          rw [Function.update_self] at refers
          have := Option.some_inj.mp refers
          omega
        · rw [Function.update_of_ne same] at refers
          exact Nat.lt_succ_of_lt (store.used other index refers) })

/-! ### Looking through an update -/

theorem file_put_self (store : FileStore Name) (index : Nat) (file : ByteFile) :
    (store.put index file).file index = file := Function.update_self _ _ _

theorem file_put_of_ne (store : FileStore Name) {index other : Nat} (file : ByteFile)
    (different : other ≠ index) : (store.put index file).file other = store.file other :=
  Function.update_of_ne different _ _

theorem put_put (store : FileStore Name) (index : Nat) (first second : ByteFile) :
    (store.put index first).put index second = store.put index second := by
  simp only [put, Function.update_idem]

theorem put_file_self (store : FileStore Name) (index : Nat) :
    store.put index (store.file index) = store := by
  simp only [put, Function.update_eq_self]

theorem node_put (store : FileStore Name) (index : Nat) (file : ByteFile) :
    (store.put index file).node = store.node := rfl

section Create

variable [DecidableEq Name] (store : FileStore Name) (name : Name)

/-- The created name refers to the returned node. -/
theorem node_create : (store.create name).2.node name = some (store.create name).1 := by
  unfold create
  split
  · assumption
  · exact Function.update_self _ _ _

/-- Every other name refers to what it did. -/
theorem node_create_of_ne {other : Name} (different : other ≠ name) :
    (store.create name).2.node other = store.node other := by
  unfold create
  split
  · rfl
  · exact Function.update_of_ne different _ _

/-- The created file is empty. -/
theorem file_create : (store.create name).2.file (store.create name).1 = ByteFile.empty := by
  unfold create
  split
  · exact file_put_self _ _ _
  · exact Function.update_self _ _ _

/-- Every other node keeps its contents. -/
theorem file_create_of_ne {other : Nat} (different : other ≠ (store.create name).1) :
    (store.create name).2.file other = store.file other := by
  unfold create at different ⊢
  split at different
  · exact file_put_of_ne _ _ different
  · exact Function.update_of_ne different _ _

/-- A name that already refers to a node is created on that node. -/
theorem create_fst_of_node {index : Nat} (refers : store.node name = some index) :
    (store.create name).1 = index := by
  unfold create
  split
  · rename_i found
    exact Option.some_inj.mp (found.symm.trans refers)
  · rename_i found
    exact absurd (found.symm.trans refers) (by simp)

/-- A file another name refers to is hit by the creation only when the created name already
refers to it. -/
theorem node_eq_of_create {other : Name} {index : Nat} (refers : store.node other = some index)
    (hit : (store.create name).1 = index) : store.node name = some index := by
  unfold create at hit
  split at hit
  · rename_i found
    exact found.trans (congrArg some hit)
  · have free := store.used other index refers
    have : store.next = index := hit
    omega

end Create

end FileStore
