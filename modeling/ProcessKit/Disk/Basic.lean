/-
# A disk

A disk is a finite map from places to entries: files with their bytes, directories, symbolic links.
A place is the list of names that leads to it from the root directory, which always exists.
`Disk.get?` is the view through which every operation is described: `set`, `eraseTree` and
`moveTree` say which places they change.
-/

import ProcessKit.Path
import ProcessKit.Text.Utf8

namespace ProcessKit

/-- A place on a disk: the names that lead to it from the root directory. -/
abbrev Place := List String

/-- Permission bits, the owner's in the upper three of nine. -/
abbrev Mode := Nat

/-- What is at a place. -/
inductive Entry where
  | dir (mode : Mode)
  | file (bytes : Bytes) (mode : Mode)
  | link (target : String)
  /-- What takes everything that is written to it and has nothing to read: a device such as
  `/dev/null`, or a pipe that somebody else reads from. -/
  | device
  deriving DecidableEq, Repr

/-- The permission bits of a new directory and of a new file. -/
def Mode.newDir : Mode := 0o755
/-- The permission bits of a new file. -/
def Mode.newFile : Mode := 0o644

/-- A disk, with the directory that relative paths start from. -/
structure Disk where
  entries : List (Place × Entry)
  current : Place

namespace Disk

/-- The entry at a place. -/
def get? (disk : Disk) (place : Place) : Option Entry :=
  if place = [] then some (.dir .newDir) else disk.entries.lookup place

/-- The disk with an entry at a place. -/
def set (disk : Disk) (place : Place) (entry : Entry) : Disk :=
  { disk with entries := (place, entry) :: disk.entries.filter (·.1 != place) }

/-- The disk without a place and all that is below it. -/
def eraseTree (disk : Disk) (place : Place) : Disk :=
  { disk with entries := disk.entries.filter fun (p, _) => !place.isPrefixOf p }

/-- The disk with a place, and all below it, moved to another place, whose old tree is gone. -/
def moveTree (disk : Disk) (source target : Place) : Disk :=
  { disk with
    entries := (disk.entries.filter fun (p, _) =>
        source.isPrefixOf p || !target.isPrefixOf p).map fun (p, e) =>
      if source.isPrefixOf p then (target ++ p.drop source.length, e) else (p, e) }

/-- The names directly below a place. -/
def children (disk : Disk) (place : Place) : List String :=
  disk.entries.filterMap fun (p, _) =>
    if p.length = place.length + 1 && place.isPrefixOf p then p.getLast? else none

/-- All places strictly below a place, relative to it, with their entries. -/
def below (disk : Disk) (place : Place) : List (Place × Entry) :=
  disk.entries.filterMap fun (p, e) =>
    if place.isPrefixOf p && place.length < p.length then some (p.drop place.length, e) else none

end Disk
end ProcessKit
