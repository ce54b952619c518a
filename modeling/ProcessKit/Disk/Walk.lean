/-
# Where a path leads

`Disk.find` follows a path from the root or the current directory: `..` goes up, a symbolic link is
followed wherever it stands, except as the last step when the link itself is meant. The path leads
to an entry, to a name that is free in a directory that exists, or nowhere: a missing or wrong
directory on the way, more than 40 links, a name of more than 255 bytes, a path of more than 4095
bytes or with a NUL in it.
-/

import ProcessKit.Disk.Basic

namespace ProcessKit

/-- Where a path leads. -/
inductive Found where
  /-- An entry, at a place without links in it. -/
  | entry (place : Place) (entry : Entry)
  /-- A free name in a directory; `slash` tells whether slashes followed it. -/
  | free (place : Place) (slash : Bool)
  /-- A directory on the way does not exist. -/
  | missing
  /-- The path cannot be followed for another reason. -/
  | blocked
  deriving DecidableEq

namespace Disk

/-- The walk from a directory along the steps of a path, given what to do at a link: go on from a
directory along other steps. -/
def walkFrom (disk : Disk) (followLast : Bool) (atLink : Place → List String → Found) :
    Place → List String → Found
  | here, [] =>
    match disk.get? here with
    | some e => .entry here e
    | none => .missing
  | here, step :: rest =>
    if step = "" ∨ step = "." then walkFrom disk followLast atLink here rest
    else if step = ".." then walkFrom disk followLast atLink here.dropLast rest
    else if 255 < (step.utf8ByteSize) then .blocked
    else
      match disk.get? (here ++ [step]) with
      | none => if rest.all (· == "") then .free (here ++ [step]) (rest != []) else .missing
      | some (.dir _) => walkFrom disk followLast atLink (here ++ [step]) rest
      | some (.link target) =>
        if rest = [] && !followLast then .entry (here ++ [step]) (.link target)
        else if target = "" then .missing
        else
          atLink (if target.toList.head? = some '/' then [] else here) (Path.pieces target ++ rest)
      | some e => if rest = [] then .entry (here ++ [step]) e else .blocked

/-- The walk with a number of links that may still be followed. -/
def walk (disk : Disk) (followLast : Bool) : Nat → Place → List String → Found
  | 0 => walkFrom disk followLast fun _ _ => .blocked
  | links + 1 => walkFrom disk followLast (walk disk followLast links)

/-- Where a path leads; `followLast` follows a link in the last step. -/
def find (disk : Disk) (followLast : Bool) (path : Path) : Found :=
  if path.text = "" then .missing
  else if path.chars.contains '\x00' || 4096 ≤ path.text.utf8ByteSize then .blocked
  else
    disk.walk followLast 40 (if path.isAbsolute then [] else disk.current) (Path.pieces path.text)

end Disk
end ProcessKit
