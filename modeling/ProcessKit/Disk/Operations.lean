/-
# Operations on a disk

Each operation takes a path and gives the disk after it, or `none` where it is refused and leaves
the disk as it was. Two of them may be refused half way and give the disk as far as they came:
making a directory with those above it, and removing a tree.

A removal obeys the permission bits in the tree, which whoever made the tree has set, and those of
the directory that the tree is in. A directory that may not be listed or searched, or that holds
something and may not be changed, refuses the removal, and what had been removed by then is gone.
The other operations work on directories that were made with the usual bits, and ask for none.
-/

import ProcessKit.Disk.Permissions
import ProcessKit.Disk.Walk

namespace ProcessKit
namespace Disk

/-- What a path leads to, links followed: a directory, a file or something else that exists. -/
inductive Kind where
  | dir
  | file
  | other
  deriving DecidableEq, Repr

/-- The kind of thing at the end of a path, links followed. -/
def kind? (disk : Disk) (path : Path) : Option Kind :=
  match disk.find true path with
  | .entry _ (.dir _) => some .dir
  | .entry _ (.file ..) => some .file
  | .entry _ _ => some .other
  | _ => none

/-- The bytes of the file at the end of a path. -/
def readFile? (disk : Disk) (path : Path) : Option Bytes :=
  match disk.find true path with
  | .entry _ (.file bytes _) => some bytes
  | .entry _ .device => some []
  | _ => none

/-- Writes a file, in the place of an old one or at a free name. -/
def writeFile? (disk : Disk) (path : Path) (bytes : Bytes) : Option Disk :=
  match disk.find true path with
  | .entry place (.file _ mode) => some (disk.set place (.file bytes mode))
  | .entry _ .device => some disk
  | .free place false => some (disk.set place (.file bytes .newFile))
  | _ => none

/-- What became of a single new directory. -/
inductive MakeDir where
  | made (disk : Disk)
  | noParent
  | refused

/-- Makes one directory at a free name. A link in the last step is never followed, not even where a
slash comes after it. -/
def makeDir (disk : Disk) (path : Path) : MakeDir :=
  match disk.find false path.withoutFinalSlashes with
  | .free place _ => .made (disk.set place (.dir .newDir))
  | .missing => .noParent
  | _ => .refused

/-- Makes a directory with the directories above it that are missing, at most `fuel` of them. -/
def makeDirs : Nat → Disk → Path → Bool × Disk
  | 0, disk, _ => (false, disk)
  | fuel + 1, disk, path =>
    if path.text = "" then (true, disk)
    else match disk.makeDir path with
      | .made disk => (true, disk)
      | .refused => (disk.kind? path = some .dir, disk)
      | .noParent =>
        match path.parent? with
        | none => (false, disk)
        | some parent =>
          let (ok, disk) := makeDirs fuel disk parent
          if !ok then (false, disk)
          else match disk.makeDir path with
            | .made disk => (true, disk)
            | _ => (disk.kind? path = some .dir, disk)

/-- Makes a directory with all the directories above it that are missing. Those made before a
failure stay. -/
def createDirAll (disk : Disk) (path : Path) : Bool × Disk :=
  makeDirs (path.chars.length + 2) disk path

/-- Takes a place and all below it out of the directory that it is in, if that may be changed. -/
def unlink (disk : Disk) (place : Place) : Bool × Disk :=
  if disk.permits .change place.dropLast then (true, disk.eraseTree place) else (false, disk)

/-- Removes the entries of a directory by name, one after the other, up to the first that is
refused. -/
def removeEach (remove : Disk → Place → Bool × Disk) (place : Place) :
    List String → Disk → Bool × Disk
  | [], disk => (true, disk)
  | name :: names, disk =>
    match remove disk (place ++ [name]) with
    | (true, disk) => removeEach remove place names disk
    | (false, disk) => (false, disk)

/-- Removes what is at a place: of a directory first what is in it, in the order in which the disk
lists that, and then the directory itself. It stops where permission bits refuse to list, to search
or to change a directory, and gives the disk as it is then. It goes down `fuel` places. -/
def removeTree : Nat → Disk → Place → Bool × Disk
  | 0, disk, place => ((disk.get? place).isNone, disk)
  | fuel + 1, disk, place =>
    match disk.get? place with
    | none => (true, disk)
    | some (.dir mode) =>
      if mode.grants .list && disk.permits .search place.dropLast then
        match removeEach (removeTree fuel) place (disk.children place) disk with
        | (true, disk) => disk.unlink place
        | (false, disk) => (false, disk)
      else (false, disk)
    | some _ => disk.unlink place

/-- The number of names on the longest way to an entry. -/
def height (disk : Disk) : Nat :=
  disk.entries.foldr (fun item longest => max item.1.length longest) 0

/-- Removes a directory and all below it, or a link at the end of the path. What was removed before
a refusal is gone. -/
def removeDirAll (disk : Disk) (path : Path) : Bool × Disk :=
  match disk.find false path with
  | .entry place (.dir _) =>
    if place = [] then (false, disk) else disk.removeTree (disk.height + 1) place
  | .entry place (.link _) => disk.unlink place
  | _ => (false, disk)

/-- Renames an entry to a free name, or to that of a file, link or empty directory it may replace:
a directory replaces only an empty directory, and nothing else replaces a directory. -/
def rename? (disk : Disk) (source target : Path) : Option Disk :=
  match disk.find false source, disk.find false target with
  | .entry here e, .free there slash =>
    if here.isPrefixOf there then none
    else match e with
      | .dir _ => some (disk.moveTree here there)
      | _ => if slash then none else some (disk.moveTree here there)
  | .entry here e, .entry there e' =>
    if here = there then some disk
    else if here.isPrefixOf there then none
    else match e, e' with
      | .dir _, .dir _ =>
        if (disk.children there).isEmpty && there != [] then some (disk.moveTree here there)
        else none
      | .dir _, _ => none
      | _, .dir _ => none
      | _, _ => some (disk.moveTree here there)
  | _, _ => none

end Disk
end ProcessKit
