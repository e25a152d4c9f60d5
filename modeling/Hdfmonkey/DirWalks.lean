/-
This file asks whether the loops of `ls` and `copy_dir` work on every live entry of a
directory, in order and once each.

Both stop when `f_readdir` shows an empty short name. At the end of a table it does; but
it does so also at a live entry whose short name is all blanks, and what is behind that
entry is not seen then.

The tables of the source and the results of all other calls may be any. A call may also
leave anything in the buffer for long names.
-/

import Hdfmonkey.StrayParts
import Mathlib.Data.List.Forall2
import Mathlib.Data.List.TakeWhile

namespace Hdfmonkey

/-! ### The loops -/

section Loops

variable {State File Dir : Type} (fat : FatFs State File Dir)

/-- The loop of `cmd_ls`: the value the command returns and the entries it has shown. -/
def listEntries : (fuel : Nat) → Dir → (shown : List FileInfo) → Program State (Int × List FileInfo)
  | 0, _, _ => Program.undefined
  | fuel + 1, dir, shown => do
    match ← fat.fReaddir dir with
    | .error _ => return (-1, shown)
    | .ok read =>
      match read.1 with
      | none => return (0, shown)
      | some info => listEntries fuel read.2 (shown ++ [info])

/-- The turns of the loop of `copy_dir` over a directory, in a run that ends with zero: the entries
that were copied, in their order. -/
inductive CopyTurns (sourceDirname destinationDirname : FatPath) :
    State → Dir → List FileInfo → State → Prop
  | ended {start finish dir next} :
      (fat.fReaddir dir).Outcome start (.ok (none, next)) finish →
      CopyTurns sourceDirname destinationDirname start dir [] finish
  | directory {start read made copied finish dir next info infos fuel} :
      (fat.fReaddir dir).Outcome start (.ok (some info, next)) read → info.isDir = true →
      (fat.fMkdir (concatFilename destinationDirname info.name)).Outcome read (.ok ()) made →
      (copyDir fat fuel (concatFilename sourceDirname info.name)
        (concatFilename destinationDirname info.name)).Outcome made 0 copied →
      CopyTurns sourceDirname destinationDirname copied next infos finish →
      CopyTurns sourceDirname destinationDirname start dir (info :: infos) finish
  | file {start read copied finish dir next info infos fuel} :
      (fat.fReaddir dir).Outcome start (.ok (some info, next)) read → info.isDir = false →
      (copyFile fat fuel (concatFilename sourceDirname info.name)
        (concatFilename destinationDirname info.name)).Outcome read 0 copied →
      CopyTurns sourceDirname destinationDirname copied next infos finish →
      CopyTurns sourceDirname destinationDirname start dir (info :: infos) finish

variable {fat} {start finish : State} {fuel : Nat} {sourceDirname destinationDirname : FatPath}

/-- A loop that returns zero has worked on some entries, by induction on its turns. -/
theorem copyEntries_turns {dir : Dir}
    (run : (copyEntries fat fuel sourceDirname destinationDirname dir).Outcome start 0 finish) :
    ∃ infos, CopyTurns fat sourceDirname destinationDirname start dir infos finish := by
  induction fuel generalizing start dir with
  | zero =>
    rw [copyEntries] at run
    exact absurd run Program.outcome_undefined
  | succ fuel inductionHypothesis =>
    rw [copyEntries] at run
    obtain ⟨⟨shown, next⟩, read, reading, rest⟩ := (Program.outcome_orFail (by decide)).mp run
    cases shown with
    | none =>
      obtain ⟨_, rfl⟩ := Program.outcome_pure.mp rest
      exact ⟨[], .ended reading⟩
    | some info =>
      dsimp only at rest
      by_cases directory : info.isDir = true
      · rw [if_pos directory] at rest
        obtain ⟨_, made, making, copying⟩ := (Program.outcome_orFail (by decide)).mp rest
        obtain ⟨copied, descending, goesOn⟩ := (Program.outcome_checked (by decide)).mp copying
        obtain ⟨infos, turns⟩ := inductionHypothesis goesOn
        exact ⟨info :: infos, .directory reading directory making descending turns⟩
      · rw [if_neg directory] at rest
        obtain ⟨copied, copying, goesOn⟩ := (Program.outcome_checked (by decide)).mp rest
        obtain ⟨infos, turns⟩ := inductionHypothesis goesOn
        exact ⟨info :: infos, .file reading (Bool.eq_false_iff.mpr directory) copying turns⟩

/-! A run that returns zero is the same with more turns. -/

theorem copyContents_more {more : Nat} {sourceFile destinationFile : File} (enough : fuel ≤ more)
    (run : (copyContents fat fuel sourceFile destinationFile).Outcome start 0 finish) :
    (copyContents fat more sourceFile destinationFile).Outcome start 0 finish := by
  induction fuel generalizing more start sourceFile destinationFile with
  | zero => exact absurd run Program.outcome_undefined
  | succ fuel inductionHypothesis =>
    obtain ⟨more, rfl⟩ := Nat.exists_eq_add_of_lt enough
    rw [copyContents] at run ⊢
    obtain ⟨read, middle, reads, rest⟩ := (Program.outcome_orFail (by decide)).mp run
    obtain ⟨write, wrote, writes, rest⟩ := (Program.outcome_orFail (by decide)).mp rest
    refine (Program.outcome_orFail (by decide)).mpr ⟨read, middle, reads,
      (Program.outcome_orFail (by decide)).mpr ⟨write, wrote, writes, ?_⟩⟩
    by_cases full : read.1.length = bufferSize
    · rw [if_pos full] at rest ⊢
      exact inductionHypothesis (by omega) rest
    · rw [if_neg full] at rest ⊢
      exact rest

theorem copyFile_more {more : Nat} {sourceFilename destinationFilename : FatPath}
    (enough : fuel ≤ more)
    (run : (copyFile fat fuel sourceFilename destinationFilename).Outcome start 0 finish) :
    (copyFile fat more sourceFilename destinationFilename).Outcome start 0 finish := by
  obtain ⟨source, middle, opens, rest⟩ := (Program.outcome_orFail (by decide)).mp run
  obtain ⟨destination, opened, creates, rest⟩ := (Program.outcome_orFail (by decide)).mp rest
  exact (Program.outcome_orFail (by decide)).mpr ⟨source, middle, opens,
    (Program.outcome_orFail (by decide)).mpr ⟨destination, opened, creates,
      copyContents_more enough rest⟩⟩

/-- The descent and the loop, by induction on the turns. -/
theorem copyDir_more {more : Nat} (enough : fuel ≤ more) :
    (∀ {start finish : State} {sourceDirname destinationDirname : FatPath},
      (copyDir fat fuel sourceDirname destinationDirname).Outcome start 0 finish →
      (copyDir fat more sourceDirname destinationDirname).Outcome start 0 finish) ∧
    ∀ {start finish : State} {sourceDirname destinationDirname : FatPath} {dir : Dir},
      (copyEntries fat fuel sourceDirname destinationDirname dir).Outcome start 0 finish →
      (copyEntries fat more sourceDirname destinationDirname dir).Outcome start 0 finish := by
  induction fuel generalizing more with
  | zero =>
    refine ⟨fun run => ?_, fun run => ?_⟩
    · rw [copyDir] at run
      exact absurd run Program.outcome_undefined
    · rw [copyEntries] at run
      exact absurd run Program.outcome_undefined
  | succ fuel inductionHypothesis =>
    obtain ⟨more, rfl⟩ := Nat.exists_eq_add_of_lt enough
    obtain ⟨descends, goesOn⟩ := @inductionHypothesis (fuel + more) (by omega)
    refine ⟨fun run => ?_, fun run => ?_⟩
    · rw [copyDir] at run ⊢
      obtain ⟨dir, opened, opens, rest⟩ := (Program.outcome_orFail (by decide)).mp run
      exact (Program.outcome_orFail (by decide)).mpr ⟨dir, opened, opens, goesOn rest⟩
    · rw [copyEntries] at run ⊢
      obtain ⟨⟨shown, next⟩, read, reads, rest⟩ := (Program.outcome_orFail (by decide)).mp run
      refine (Program.outcome_orFail (by decide)).mpr ⟨⟨shown, next⟩, read, reads, ?_⟩
      cases shown with
      | none => exact rest
      | some info =>
        dsimp only at rest ⊢
        by_cases directory : info.isDir = true
        · rw [if_pos directory] at rest ⊢
          obtain ⟨made, middle, makes, rest⟩ := (Program.outcome_orFail (by decide)).mp rest
          obtain ⟨copied, copies, rest⟩ := (Program.outcome_checked (by decide)).mp rest
          exact (Program.outcome_orFail (by decide)).mpr ⟨made, middle, makes,
            (Program.outcome_checked (by decide)).mpr ⟨copied, descends copies, goesOn rest⟩⟩
        · rw [if_neg directory] at rest ⊢
          obtain ⟨copied, copies, rest⟩ := (Program.outcome_checked (by decide)).mp rest
          exact (Program.outcome_checked (by decide)).mpr
            ⟨copied, copyFile_more (by omega) copies, goesOn rest⟩

/-- So the turns are those of a run of the loop. -/
theorem CopyTurns.run {dir : Dir} {infos : List FileInfo}
    (turns : CopyTurns fat sourceDirname destinationDirname start dir infos finish) :
    ∃ fuel, (copyEntries fat fuel sourceDirname destinationDirname dir).Outcome start 0 finish := by
  induction turns with
  | ended reading =>
    refine ⟨1, ?_⟩
    rw [copyEntries]
    exact (Program.outcome_orFail (by decide)).mpr ⟨_, _, reading, rfl⟩
  | @directory start read made copied finish dir next info infos below reading directory making
      descending _ inductionHypothesis =>
    obtain ⟨fuel, rest⟩ := inductionHypothesis
    refine ⟨max below fuel + 1, ?_⟩
    rw [copyEntries]
    refine (Program.outcome_orFail (by decide)).mpr ⟨_, _, reading, ?_⟩
    dsimp only
    rw [if_pos directory]
    exact (Program.outcome_orFail (by decide)).mpr ⟨_, _, making,
      (Program.outcome_checked (by decide)).mpr
        ⟨_, (copyDir_more (Nat.le_max_left _ _)).1 descending,
          (copyDir_more (Nat.le_max_right _ _)).2 rest⟩⟩
  | @file start read copied finish dir next info infos below reading regular copying _
      inductionHypothesis =>
    obtain ⟨fuel, rest⟩ := inductionHypothesis
    refine ⟨max below fuel + 1, ?_⟩
    rw [copyEntries]
    refine (Program.outcome_orFail (by decide)).mpr ⟨_, _, reading, ?_⟩
    dsimp only
    rw [if_neg (by rw [regular]; exact Bool.false_ne_true)]
    exact (Program.outcome_checked (by decide)).mpr
      ⟨_, copyFile_more (Nat.le_max_left _ _) copying, (copyDir_more (Nat.le_max_right _ _)).2 rest⟩

end Loops

/-! ### A driver over tables -/

/-- The buffer for long names and the number of calls. -/
structure TableState where
  lfnBuf : Nat → Nat
  calls : Nat

/-- What is not up to the loops: the code with which each call fails, what the calls on files
deliver, and what a call leaves in the buffer for long names. -/
structure TableCalls where
  code : Nat → Option FResult
  bytes : Nat → List UInt8
  bw : Nat → Nat
  leaves : Nat → Nat → Nat

/-- A call that fails with its code or delivers a value. -/
def TableCalls.call {Result : Type} (calls : TableCalls) (value : Nat → Result) :
    Program TableState (Except FResult Result) := fun state =>
  match calls.code state.calls with
  | some code => .ok (.error code, ⟨calls.leaves state.calls, state.calls + 1⟩)
  | none => .ok (.ok (value state.calls), ⟨calls.leaves state.calls, state.calls + 1⟩)

theorem TableCalls.call_ok {Result : Type} {calls : TableCalls} {value : Nat → Result}
    {start finish : TableState} {result : Result}
    (run : (calls.call value).Outcome start (.ok result) finish) : result = value start.calls := by
  unfold Program.Outcome TableCalls.call at run
  cases failed : calls.code start.calls with
  | some code =>
    rw [failed] at run
    exact absurd run (by simp)
  | none =>
    rw [failed] at run
    exact (Except.ok.inj (Prod.mk.inj (Except.ok.inj run)).1).symm

/-- `f_readdir` over a table. An empty short name is no entry. -/
def tableReaddir (calls : TableCalls) (walk : Walk) :
    Program TableState (Except FResult (Option FileInfo × Walk)) := fun state =>
  match calls.code state.calls with
  | some code => .ok (.error code, { state with calls := state.calls + 1 })
  | none =>
    match walkReaddir walk state.lfnBuf with
    | none => .error state
    | some (info, walk, lfnBuf) =>
      .ok (.ok (if info.fname = [] then none else some info.toFileInfo, walk),
        ⟨lfnBuf, state.calls + 1⟩)

/-- The driver: the directories of the source are these tables. -/
def tabled (tables : FatPath → List Buffer) (calls : TableCalls) :
    FatFs TableState PUnit Walk where
  fOpen _ _ := calls.call fun _ => ()
  fRead _ _ := calls.call fun call => (calls.bytes call, ())
  fWrite _ _ := calls.call fun call => (calls.bw call, ())
  fClose _ := calls.call fun _ => ()
  fOpendir path := calls.call fun _ => ⟨tables path, 0, 0⟩
  fReaddir := tableReaddir calls
  fMkdir _ := calls.call fun _ => ()

/-- The calls of `f_readdir` in a loop, up to the one that shows nothing; what happens in between
may be anything. -/
inductive Readings (tables : FatPath → List Buffer) (calls : TableCalls) :
    Walk → List FileInfo → Prop
  | ended {start finish walk next} :
      ((tabled tables calls).fReaddir walk).Outcome start (.ok (none, next)) finish →
      Readings tables calls walk []
  | next {start finish walk next info infos} :
      ((tabled tables calls).fReaddir walk).Outcome start (.ok (some info, next)) finish →
      Readings tables calls next infos → Readings tables calls walk (info :: infos)

/-! ### What is seen -/

/-- The loop has worked on every live entry of the table, in order and once each. -/
def Seen (table : List Buffer) (infos : List FileInfo) : Prop :=
  List.Forall₂ Describes (liveEntries 0 table) infos

/-- The live entries in front of the first one whose short name is blank. -/
def seenEntries (walk : Walk) : List Buffer :=
  (liveEntries walk.index walk.ahead).takeWhile fun entry => ¬Blank entry

section Seen

variable {tables : FatPath → List Buffer} {calls : TableCalls} {start finish : TableState}
  {walk next : Walk} {infos : List FileInfo}

theorem tableReaddir_ok {shown : Option FileInfo}
    (run : ((tabled tables calls).fReaddir walk).Outcome start (.ok (shown, next)) finish) :
    ∃ info after, walkReaddir walk start.lfnBuf = some (info, next, after) ∧
      shown = if info.fname = [] then none else some info.toFileInfo := by
  change tableReaddir calls walk start = _ at run
  unfold tableReaddir at run
  cases failed : calls.code start.calls with
  | some code =>
    rw [failed] at run
    exact absurd run (by simp)
  | none =>
    rw [failed] at run
    cases read : walkReaddir walk start.lfnBuf with
    | none =>
      rw [read] at run
      exact absurd run (by simp)
    | some done =>
      obtain ⟨info, behind, lfnBuf⟩ := done
      rw [read] at run
      simp only [Except.ok.injEq, Prod.mk.injEq] at run
      obtain ⟨⟨rfl, rfl⟩, _⟩ := run
      exact ⟨info, lfnBuf, rfl, rfl⟩

/-- A call of `f_readdir` shows the first of these entries, if there is one. -/
theorem tableReaddir_shows {shown : Option FileInfo} (proper : walk.Proper)
    (run : ((tabled tables calls).fReaddir walk).Outcome start (.ok (shown, next)) finish) :
    next.Proper ∧ (shown = none → seenEntries walk = []) ∧
      ∀ info, shown = some info → ∃ entry, Describes entry info ∧
        seenEntries walk = entry :: seenEntries next := by
  obtain ⟨info, lfnBuf, read, rfl⟩ := tableReaddir_ok run
  obtain ⟨proper', ⟨ended, nameless⟩ | ⟨entry, lists, blank, first⟩⟩ :=
    walkReaddir_first proper read
  · rw [if_pos nameless, seenEntries, ended]
    exact ⟨proper', fun _ => rfl, fun _ none => absurd none (by simp)⟩
  · refine ⟨proper', fun none => ?_, fun shown same => ?_⟩
    · have nameless : info.fname = [] := by
        by_contra named
        rw [if_neg named] at none
        exact absurd none (by simp)
      rw [seenEntries, first, List.takeWhile_cons_of_neg (by simpa using blank.mp nameless)]
    · have named : ¬info.fname = [] := fun nameless => by
        rw [if_pos nameless] at same
        exact absurd same (by simp)
      rw [if_neg named] at same
      obtain rfl := Option.some.inj same
      refine ⟨entry, lists.describes, ?_⟩
      rw [seenEntries, first, List.takeWhile_cons_of_pos (by simpa using mt blank.mpr named)]
      rfl

/-- The loop of `ls` makes such calls, by induction on its turns. -/
theorem listEntries_readings {fuel : Nat} {before shown : List FileInfo}
    (run : (listEntries (tabled tables calls) fuel walk before).Outcome start (0, shown) finish) :
    ∃ infos, shown = before ++ infos ∧ Readings tables calls walk infos := by
  induction fuel generalizing start walk before with
  | zero => exact absurd run Program.outcome_undefined
  | succ fuel inductionHypothesis =>
    obtain ⟨outcome, middle, reading, rest⟩ := Program.outcome_bind.mp run
    cases outcome with
    | error code => exact absurd (Prod.mk.inj (Program.outcome_pure.mp rest).1).1 (by decide)
    | ok read =>
      obtain ⟨info, next⟩ := read
      cases info with
      | none =>
        obtain ⟨_, rfl⟩ := Prod.mk.inj (Program.outcome_pure.mp rest).1
        exact ⟨[], (List.append_nil _).symm, .ended reading⟩
      | some info =>
        obtain ⟨infos, rfl, readings⟩ := inductionHypothesis rest
        exact ⟨info :: infos, List.append_assoc _ _ _, .next reading readings⟩

/-- So does that of `copy_dir`, by induction on its turns. -/
theorem CopyTurns.readings {sourceDirname destinationDirname : FatPath}
    (turns : CopyTurns (tabled tables calls) sourceDirname destinationDirname start walk infos
      finish) : Readings tables calls walk infos := by
  induction turns with
  | ended reading => exact .ended reading
  | directory reading _ _ _ _ inductionHypothesis => exact .next reading inductionHypothesis
  | file reading _ _ _ inductionHypothesis => exact .next reading inductionHypothesis

/-- What is shown is one of these entries after the other. -/
theorem Readings.shows (readings : Readings tables calls walk infos) (proper : walk.Proper) :
    List.Forall₂ Describes (seenEntries walk) infos := by
  induction readings with
  | ended reading =>
    rw [(tableReaddir_shows proper reading).2.1 rfl]
    exact .nil
  | next reading _ inductionHypothesis =>
    obtain ⟨proper', _, goesOn⟩ := tableReaddir_shows proper reading
    obtain ⟨entry, describes, first⟩ := goesOn _ rfl
    rw [first]
    exact .cons describes (inductionHypothesis proper')

/-- These entries are all live ones exactly if none of those has a blank name. -/
theorem seen_iff {table : List Buffer}
    (shows : List.Forall₂ Describes (seenEntries ⟨table, 0, 0⟩) infos) :
    Seen table infos ↔ ∀ entry ∈ liveEntries 0 table, ¬Blank entry := by
  constructor
  · intro all
    have whole : seenEntries ⟨table, 0, 0⟩ = liveEntries 0 table :=
      (List.takeWhile_prefix _).eq_of_length (shows.length_eq.trans all.length_eq.symm)
    intro entry member
    rw [← whole] at member
    simpa using List.mem_takeWhile_imp member
  · intro none
    have whole : seenEntries ⟨table, 0, 0⟩ = liveEntries 0 table :=
      List.takeWhile_eq_self_iff.mpr fun entry member => by simpa using none entry member
    rw [Seen, ← whole]
    exact shows

/-- A loop that has come to the end of the table, or could have, met no stray part. -/
theorem Readings.readable {passed : List Buffer} (readings : Readings tables calls walk infos)
    (proper : walk.Proper) (apart : ∀ ord sum, ¬Counted passed ord sum)
    (all : (liveEntries walk.index walk.ahead).length = infos.length) :
    Readable passed walk.index walk.ahead := by
  induction readings generalizing passed with
  | ended reading =>
    obtain ⟨info, lfnBuf, read, _⟩ := tableReaddir_ok reading
    exact ((walkReaddir_readable proper apart).2 _ _ _ read).1 (List.eq_nil_of_length_eq_zero all)
  | next reading _ inductionHypothesis =>
    obtain ⟨proper', _, goesOn⟩ := tableReaddir_shows proper reading
    obtain ⟨info, lfnBuf, read, same⟩ := tableReaddir_ok reading
    obtain ⟨_, ⟨_, nameless⟩ | ⟨entry, _, _, first⟩⟩ := walkReaddir_first proper read
    · rw [if_pos nameless] at same
      exact absurd same (Option.some_ne_none _)
    · obtain ⟨front, apart', iff⟩ := ((walkReaddir_readable proper apart).2 _ _ _ read).2
        (by rw [first]; exact List.cons_ne_nil _ _)
      rw [first, List.length_cons, List.length_cons] at all
      exact iff.mpr (inductionHypothesis proper' apart' (Nat.succ.inj all))

/-- A call of `f_readdir` shows the first live entry if nothing is in its way. -/
theorem tableReaddir_clear {passed : List Buffer} (good : ∀ call, calls.code call = none)
    (proper : walk.Proper) (apart : ∀ ord sum, ¬Counted passed ord sum)
    (readable : Readable passed walk.index walk.ahead)
    (named : ∀ entry ∈ liveEntries walk.index walk.ahead, ¬Blank entry) :
    ∃ shown next after, ((tabled tables calls).fReaddir walk).Outcome start (.ok (shown, next))
        after ∧
      ((shown = none ∧ liveEntries walk.index walk.ahead = []) ∨ ∃ info entry front,
        shown = some info ∧ next.Proper ∧ (∀ ord sum, ¬Counted front ord sum) ∧
          Readable front next.index next.ahead ∧
          liveEntries walk.index walk.ahead = entry :: liveEntries next.index next.ahead) := by
  obtain ⟨defined, behind⟩ := @walkReaddir_readable passed start.lfnBuf walk proper apart
  obtain ⟨info, next, lfnBuf, read⟩ := defined readable
  have run : ((tabled tables calls).fReaddir walk).Outcome start
      (.ok (if info.fname = [] then none else some info.toFileInfo, next))
        ⟨lfnBuf, start.calls + 1⟩ := by
    change tableReaddir calls walk start = _
    rw [tableReaddir, good]
    dsimp only
    rw [read]
  obtain ⟨proper', ⟨ended, nameless⟩ | ⟨entry, _, blank, first⟩⟩ := walkReaddir_first proper read
  · rw [if_pos nameless] at run
    exact ⟨none, next, _, run, .inl ⟨rfl, ended⟩⟩
  · have present : liveEntries walk.index walk.ahead ≠ [] := by
      rw [first]
      exact List.cons_ne_nil _ _
    obtain ⟨front, apart', iff⟩ := (behind _ _ _ read).2 present
    rw [if_neg (mt blank.mp (named entry (by rw [first]; exact List.mem_cons_self)))] at run
    exact ⟨_, next, _, run, .inr ⟨_, entry, front, rfl, proper', apart', iff.mp readable, first⟩⟩

/-- The loop of `ls` returns zero then, by induction on the number of live entries. -/
theorem listEntries_returns {passed : List Buffer} {before : List FileInfo}
    (good : ∀ call, calls.code call = none) (proper : walk.Proper)
    (apart : ∀ ord sum, ¬Counted passed ord sum) (readable : Readable passed walk.index walk.ahead)
    (named : ∀ entry ∈ liveEntries walk.index walk.ahead, ¬Blank entry) :
    ∃ fuel shown after,
      (listEntries (tabled tables calls) fuel walk before).Outcome start (0, shown) after := by
  generalize count : (liveEntries walk.index walk.ahead).length = number
  induction number generalizing walk passed start before with
  | zero =>
    obtain ⟨shown, next, after, run, ⟨rfl, _⟩ | ⟨_, entry, _, _, _, _, _, first⟩⟩ :=
      @tableReaddir_clear tables calls start walk passed good proper apart readable named
    · exact ⟨1, before, after, Program.outcome_bind.mpr ⟨_, _, run, rfl⟩⟩
    · rw [first] at count
      exact absurd count (Nat.succ_ne_zero _)
  | succ number inductionHypothesis =>
    obtain ⟨shown, next, after, run, ⟨_, none⟩ | ⟨info, entry, front, rfl, proper', apart', rest,
      first⟩⟩ := @tableReaddir_clear tables calls start walk passed good proper apart readable named
    · rw [none] at count
      exact absurd count.symm (Nat.succ_ne_zero _)
    · rw [first] at count named
      obtain ⟨fuel, shown, last, goesOn⟩ := @inductionHypothesis after next front
        (before ++ [info]) proper' apart' rest (List.forall_mem_cons.mp named).2
        (Nat.succ.inj count)
      exact ⟨fuel + 1, shown, last, Program.outcome_bind.mpr ⟨_, _, run, goesOn⟩⟩

/-- What lies below a directory is copied, whatever is in the buffer. -/
def Copies (tables : FatPath → List Buffer) (calls : TableCalls)
    (sourceDirname destinationDirname : FatPath) : Prop :=
  ∀ name state,
    (∃ fuel after, (copyFile (tabled tables calls) fuel (concatFilename sourceDirname name)
      (concatFilename destinationDirname name)).Outcome state 0 after) ∧
    ∃ fuel after, (copyDir (tabled tables calls) fuel (concatFilename sourceDirname name)
      (concatFilename destinationDirname name)).Outcome state 0 after

/-- So does that of `copy_dir`, if what lies below is copied. -/
theorem copyTurns_returns {passed : List Buffer} {sourceDirname destinationDirname : FatPath}
    (good : ∀ call, calls.code call = none)
    (copies : Copies tables calls sourceDirname destinationDirname) (proper : walk.Proper)
    (apart : ∀ ord sum, ¬Counted passed ord sum) (readable : Readable passed walk.index walk.ahead)
    (named : ∀ entry ∈ liveEntries walk.index walk.ahead, ¬Blank entry) :
    ∃ infos after, CopyTurns (tabled tables calls) sourceDirname destinationDirname start walk infos
      after := by
  generalize count : (liveEntries walk.index walk.ahead).length = number
  induction number generalizing walk passed start with
  | zero =>
    obtain ⟨shown, next, after, run, ⟨rfl, _⟩ | ⟨_, entry, _, _, _, _, _, first⟩⟩ :=
      @tableReaddir_clear tables calls start walk passed good proper apart readable named
    · exact ⟨[], after, .ended run⟩
    · rw [first] at count
      exact absurd count (Nat.succ_ne_zero _)
  | succ number inductionHypothesis =>
    obtain ⟨shown, next, read, run, ⟨_, none⟩ | ⟨info, entry, front, rfl, proper', apart', rest,
      first⟩⟩ := @tableReaddir_clear tables calls start walk passed good proper apart readable named
    · rw [none] at count
      exact absurd count.symm (Nat.succ_ne_zero _)
    · rw [first] at count named
      have goesOn (middle : TableState) := @inductionHypothesis middle next front proper'
        apart' rest
        (List.forall_mem_cons.mp named).2 (Nat.succ.inj count)
      cases kind : info.isDir with
      | true =>
        have made : ((tabled tables calls).fMkdir (concatFilename destinationDirname
            info.name)).Outcome read (.ok ()) ⟨calls.leaves read.calls, read.calls + 1⟩ := by
          change calls.call (fun _ => ()) read = _
          rw [TableCalls.call, good]
        obtain ⟨below, copied, descends⟩ :=
          (copies info.name ⟨calls.leaves read.calls, read.calls + 1⟩).2
        obtain ⟨infos, after, turns⟩ := goesOn copied
        exact ⟨info :: infos, after, .directory run kind made descends turns⟩
      | false =>
        obtain ⟨below, copied, copying⟩ := (copies info.name read).1
        obtain ⟨infos, after, turns⟩ := goesOn copied
        exact ⟨info :: infos, after, .file run kind copying turns⟩

end Seen

/-- Nothing in a table is in the way of a walk: no part of a long name is a stray one, and no live
entry has a short name of blanks. -/
structure Clear (table : List Buffer) : Prop where
  readable : Readable [] 0 table
  named : ∀ entry ∈ liveEntries 0 table, ¬Blank entry

theorem not_counted_nil (ord sum : UInt8) : ¬Counted [] ord sum := id

/-- In runs that return zero, which are those where no call fails, the loops of `ls` and `copy_dir`
work on every live entry of a table, in order and once each, if and only if no live entry has a
short name of blanks. If no call fails, there is such a run in which they do if and only if the
table is clear. -/
theorem walks_see_iff (tables : FatPath → List Buffer) (calls : TableCalls) (fuel : Nat)
    (start finish : TableState) :
    (∀ table shown,
      (listEntries (tabled tables calls) fuel ⟨table, 0, 0⟩ []).Outcome start (0, shown) finish →
      (Seen table shown ↔ ∀ entry ∈ liveEntries 0 table, ¬Blank entry)) ∧
    (∀ sourceDirname destinationDirname,
      (copyDir (tabled tables calls) fuel sourceDirname destinationDirname).Outcome start 0 finish →
      ∃ opened infos, CopyTurns (tabled tables calls) sourceDirname destinationDirname opened
          ⟨tables sourceDirname, 0, 0⟩ infos finish ∧
        (Seen (tables sourceDirname) infos ↔
          ∀ entry ∈ liveEntries 0 (tables sourceDirname), ¬Blank entry)) ∧
    ((∀ call, calls.code call = none) →
      (∀ table, (∃ turns shown after, (listEntries (tabled tables calls) turns ⟨table, 0, 0⟩
          []).Outcome start (0, shown) after ∧ Seen table shown) ↔ Clear table) ∧
      ∀ sourceDirname destinationDirname, Copies tables calls sourceDirname destinationDirname →
        ((∃ turns opened infos after,
          (copyDir (tabled tables calls) turns sourceDirname destinationDirname).Outcome start 0
            after ∧
          CopyTurns (tabled tables calls) sourceDirname destinationDirname opened
            ⟨tables sourceDirname, 0, 0⟩ infos after ∧ Seen (tables sourceDirname) infos) ↔
        Clear (tables sourceDirname))) := by
  have front (table : List Buffer) : Walk.Proper ⟨table, 0, 0⟩ := .inl (Nat.two_pow_pos 16)
  refine ⟨fun table shown run => ?_, fun sourceDirname destinationDirname run => ?_,
    fun good => ⟨fun table => ⟨?_, fun clear => ?_⟩, fun sourceDirname destinationDirname copies =>
      ⟨?_, fun clear => ?_⟩⟩⟩
  · obtain ⟨infos, rfl, readings⟩ := listEntries_readings run
    exact seen_iff (readings.shows (front table))
  · cases fuel with
    | zero =>
      rw [copyDir] at run
      exact absurd run Program.outcome_undefined
    | succ fuel =>
      rw [copyDir] at run
      obtain ⟨dir, opened, opening, rest⟩ := (Program.outcome_orFail (by decide)).mp run
      obtain rfl : dir = ⟨tables sourceDirname, 0, 0⟩ :=
        @TableCalls.call_ok Walk calls (fun _ => ⟨tables sourceDirname, 0, 0⟩) start opened dir
          opening
      obtain ⟨infos, turns⟩ := copyEntries_turns rest
      exact ⟨opened, infos, turns, seen_iff (turns.readings.shows (front _))⟩
  · rintro ⟨turns, shown, after, run, seen⟩
    obtain ⟨infos, rfl, readings⟩ := listEntries_readings run
    exact ⟨readings.readable (front table) not_counted_nil seen.length_eq,
      (seen_iff (readings.shows (front table))).mp seen⟩
  · obtain ⟨turns, shown, after, run⟩ := @listEntries_returns tables calls start ⟨table, 0, 0⟩ [] []
      good (front table) not_counted_nil clear.readable clear.named
    obtain ⟨infos, rfl, readings⟩ := listEntries_readings run
    exact ⟨turns, _, after, run, (seen_iff (readings.shows (front table))).mpr clear.named⟩
  · rintro ⟨_, opened, infos, after, _, turns, seen⟩
    exact ⟨turns.readings.readable (front _) not_counted_nil seen.length_eq,
      (seen_iff (turns.readings.shows (front _))).mp seen⟩
  · have opens : ((tabled tables calls).fOpendir sourceDirname).Outcome start
        (.ok ⟨tables sourceDirname, 0, 0⟩) ⟨calls.leaves start.calls, start.calls + 1⟩ := by
      change calls.call (fun _ => (⟨tables sourceDirname, 0, 0⟩ : Walk)) start = _
      rw [TableCalls.call, good]
    obtain ⟨infos, after, turns⟩ := @copyTurns_returns tables calls
      ⟨calls.leaves start.calls, start.calls + 1⟩ ⟨tables sourceDirname, 0, 0⟩ [] sourceDirname
      destinationDirname good copies (front _) not_counted_nil clear.readable clear.named
    obtain ⟨fuel, run⟩ := turns.run
    refine ⟨fuel + 1, _, infos, after, ?_, turns,
      (seen_iff (turns.readings.shows (front _))).mpr clear.named⟩
    rw [copyDir]
    exact (Program.outcome_orFail (by decide)).mpr ⟨_, _, opens, run⟩

/-- An entry with this short name and no attributes. -/
def fileEntry (name : List UInt8) : Buffer := (Buffer.zero.fill 0 11 0x20).storeList 0 name

/-- Calls that succeed and deliver nothing. -/
def emptyCalls : TableCalls := ⟨fun _ => none, fun _ => [], fun _ => 0, fun _ _ => 0⟩

/-- A directory with the files `A` and `B`, and others that are empty. -/
def twoEntries (path : FatPath) : List Buffer :=
  if path = [] then [fileEntry [0x41], fileEntry [0x42]] else []

/-- The two entries of a table are shown and copied, and the loops return. -/
theorem walks_see_iff_two :
    ((∃ shown finish, (listEntries (tabled twoEntries emptyCalls) 5 ⟨twoEntries [], 0, 0⟩
        []).Outcome ⟨fun _ => 0, 0⟩ (0, shown) finish ∧ Seen (twoEntries []) shown) ∧
      ∃ finish, (copyDir (tabled twoEntries emptyCalls) 5 [] []).Outcome ⟨fun _ => 0, 0⟩ 0 finish ∧
        ∃ opened infos, CopyTurns (tabled twoEntries emptyCalls) [] [] opened ⟨twoEntries [], 0, 0⟩
          infos finish ∧ Seen (twoEntries []) infos) ∧
    (∃ turns shown after, (listEntries (tabled twoEntries emptyCalls) turns ⟨twoEntries [], 0, 0⟩
        []).Outcome ⟨fun _ => 0, 0⟩ (0, shown) after ∧ Seen (twoEntries []) shown) ∧
      ∃ turns opened infos after, (copyDir (tabled twoEntries emptyCalls) turns [] []).Outcome
          ⟨fun _ => 0, 0⟩ 0 after ∧
        CopyTurns (tabled twoEntries emptyCalls) [] [] opened ⟨twoEntries [], 0, 0⟩ infos after ∧
          Seen (twoEntries []) infos := by
  have named : ∀ entry ∈ liveEntries 0 (twoEntries []), ¬Blank entry := by decide +kernel
  have readable : Readable [] 0 (twoEntries []) := by
    intro front entry behind split stray
    have member : entry ∈ beforeEnd 0 (twoEntries []) := by
      rw [split]
      exact List.mem_append_right _ List.mem_cons_self
    have whole : ∀ entry ∈ beforeEnd 0 (twoEntries []),
      entry Ff.dirAttr &&& Ff.amMask ≠ Ff.amLfn := by
      decide +kernel
    exact whole entry member stray.1.2.2
  have copied : Copies twoEntries emptyCalls [] [] := fun _ _ => ⟨⟨1, _, rfl⟩, ⟨2, _, rfl⟩⟩
  have lists : (listEntries (tabled twoEntries emptyCalls) 5 ⟨twoEntries [], 0, 0⟩ []
      ⟨fun _ => 0, 0⟩).toOption.map (·.1.1) = some 0 := by decide +kernel
  have copies : (copyDir (tabled twoEntries emptyCalls) 5 [] [] ⟨fun _ => 0, 0⟩).toOption.map
      (·.1) = some 0 := by decide +kernel
  obtain ⟨⟨_, shown⟩, finish, run, rfl⟩ := Program.outcome_of_observed lists
  obtain ⟨_, last, copy, rfl⟩ := Program.outcome_of_observed copies
  obtain ⟨opened, infos, turns, seen⟩ := (walks_see_iff _ _ _ _ _).2.1 _ _ copy
  obtain ⟨listed, walked⟩ :=
    (walks_see_iff twoEntries emptyCalls 0 ⟨fun _ => 0, 0⟩ ⟨fun _ => 0, 0⟩).2.2 fun _ => rfl
  exact ⟨⟨⟨shown, finish, run, ((walks_see_iff _ _ _ _ _).1 _ _ run).mpr named⟩,
      last, copy, opened, infos, turns, seen.mpr named⟩,
    (listed _).mpr ⟨readable, named⟩, (walked _ _ copied).mpr ⟨readable, named⟩⟩

/-- A blank name in front of another entry hides that one. -/
theorem not_walks_see :
    ¬ ∀ (tables : FatPath → List Buffer) (calls : TableCalls) (fuel : Nat)
      (start finish : TableState) (table : List Buffer) (shown : List FileInfo),
      (listEntries (tabled tables calls) fuel ⟨table, 0, 0⟩ []).Outcome start (0, shown) finish →
      Seen table shown := by
  intro always
  have returns : (listEntries (tabled (fun _ => []) emptyCalls) 5
      ⟨[fileEntry [], fileEntry [0x42]], 0, 0⟩ [] ⟨fun _ => 0, 0⟩).toOption.map (·.1) =
        some (0, []) := by decide +kernel
  obtain ⟨_, finish, run, rfl⟩ := Program.outcome_of_observed returns
  have same := (always _ _ _ _ _ _ _ run).length_eq
  have two : (liveEntries 0 [fileEntry [], fileEntry [0x42]]).length = 2 := by decide +kernel
  exact absurd (two.symm.trans same) (by decide)

end Hdfmonkey
