/-
This file models `put_file` for whole local trees and `cmd_put`.

The local machine is what the program can tell of it: which paths are directories, the
names that `readdir` delivers of each, and the files. Opening a directory or a file may
fail from call to call. The descent is given up after some levels: a local tree with a
loop of symbolic links is not finite.

A run may take notes, which the program does not: the result of each call of `put_file`,
and each directory that it does not try to create.
-/

import Hdfmonkey.PutFile

namespace Hdfmonkey

/-- The operations on local files. -/
structure LocalFs (State : Type) where
  isDirectory : FatPath → Bool
  opendir : FatPath → Program State (Option (List FatPath))
  fopen : FatPath → Program State (Option LocalFile)

/-- The names of a directory itself and of its parent. -/
def dotNames : List FatPath := [[0x2e], [0x2e, 0x2e]]

/-- A note about a run. -/
inductive PutNote where
  | returned (sourceFilename destFilename : FatPath) (result : Int)
  | notCreated (destFilename : FatPath)

section PutTree

variable {State File Dir : Type} (fat : FatFs State File Dir) (loc : LocalFs State)
  (note : PutNote → Program State PUnit)

/-- `fat_path_is_dir`: one and zero for yes and no, -1 for an error. -/
def fatPathIsDir (filename : FatPath) : Program State Int := do
  match ← fat.fOpendir filename with
  | .ok _ => return 1
  | .error .noPath => return 0
  | .error _ => return -1

/-- The loop of `put_file` over the entries of a directory. The result of the call for an entry is
dropped. -/
def putEntries (put : FatPath → FatPath → Program State Int)
    (sourceFilename destFilename : FatPath) : List FatPath → Program State Int
  | [] => return 0
  | name :: entries =>
    if name ∈ dotNames then putEntries put sourceFilename destFilename entries
    else do
      let _ ← put (concatFilename sourceFilename name) (concatFilename destFilename name)
      putEntries put sourceFilename destFilename entries

/-- `put_file` for a directory that exists on the volume. -/
def putDirectory (put : FatPath → FatPath → Program State Int)
    (sourceFilename destFilename : FatPath) : Program State Int := do
  match ← loc.opendir sourceFilename with
  | none => return -1
  | some entries => putEntries put sourceFilename destFilename entries

/-- `put_file` for a directory, which is created if it is not there. -/
def putNewDirectory (put : FatPath → FatPath → Program State Int)
    (sourceFilename destFilename : FatPath) : Program State Int := do
  if (← fatPathIsDir fat destFilename) = 0 then
    orFail (fat.fMkdir destFilename) (return) fun _ =>
      putDirectory loc put sourceFilename destFilename
  else
    note (.notCreated destFilename)
    putDirectory loc put sourceFilename destFilename

/-- `put_file`. -/
def putTree : (fuel : Nat) → (sourceFilename destFilename : FatPath) → Program State Int
  | 0, _, _ => Program.undefined
  | fuel + 1, sourceFilename, destFilename =>
    let put : Program State Int :=
      if loc.isDirectory sourceFilename then
        putNewDirectory fat loc note (putTree fuel) sourceFilename destFilename
      else do
        let inputFile ← loc.fopen sourceFilename
        putFile fat.toFatFiles fuel inputFile destFilename
    do
      let result ← put
      note (.returned sourceFilename destFilename result)
      return result

end PutTree

/-! ### The command -/

/-- `strip_trailing_slash`, which takes a backslash for a slash. -/
def stripTrailingSlash (path : FatPath) : FatPath :=
  if path.getLast? = some 0x5c ∨ path.getLast? = some 0x2f then path.dropLast else path

/-- What `basename` leaves in its argument: it cuts off the slashes behind the last component,
unless there is nothing else. -/
def basenameArgument (path : FatPath) : FatPath :=
  let stripped := (path.reverse.dropWhile (· = 0x2f)).reverse
  if stripped = [] then path else stripped

/-- `basename`: the last component, a slash for a path of slashes, a dot for the empty path. -/
def basename (path : FatPath) : FatPath :=
  if path = [] then [0x2e]
  else if path.all (· = 0x2f) then [0x2f]
  else ((basenameArgument path).reverse.takeWhile (· ≠ 0x2f)).reverse

/-- The calls of `put_file` that `cmd_put` makes with a destination directory. -/
def putArguments (destPath : FatPath) (sources : List FatPath) : List (FatPath × FatPath) :=
  sources.map fun source => (basenameArgument source, concatFilename destPath (basename source))

/-- The loop of `cmd_put` over its sources. Again the results are dropped. -/
def putSources {State : Type} (put : FatPath → FatPath → Program State Int) :
    List (FatPath × FatPath) → Program State Int
  | [] => return 0
  | source :: sources => do
    let _ ← put source.1 source.2
    putSources put sources

/-- `cmd_put`. The arguments are those behind the name of the command. -/
def cmdPut {State File Dir : Type} (fat : FatFs State File Dir) (loc : LocalFs State)
    (note : PutNote → Program State PUnit) (openImage : FileName → Bool) (fuel : Nat) :
    (argv : List FatPath) → Program State Int
  | [] => return -1
  | imageFilename :: arguments => do
    if arguments = [] then return -1
    else if openImage imageFilename = false then return -1
    else
      let destPath := stripTrailingSlash (arguments.getLastD [])
      let copyingToDir ← fatPathIsDir fat destPath
      if copyingToDir = -1 then return -1
      else if copyingToDir = 0 then
        if arguments.length > 2 then return -1
        else
          let sourceFilename := (arguments.dropLast ++ [destPath]).headD []
          if (← putTree fat loc note fuel sourceFilename destPath) = -1 then return -1
          else return 0
      else
        putSources (putTree fat loc note fuel) (putArguments destPath arguments.dropLast)

/-- A local tree. -/
structure LocalTree where
  isDirectory : FatPath → Bool
  listing : FatPath → List FatPath
  content : FatPath → List UInt8

end Hdfmonkey
