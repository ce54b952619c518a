/-
# Unpacking an archive

`Disk.unpack?` puts the members of an archive on a disk, below a directory and nowhere else. What is
in the way of a member is replaced, unless it is a directory with something in it. A path may lead
through links that were unpacked before, but not through one that leads away from the archive.
-/

import ProcessKit.Archive.Tar
import ProcessKit.Disk.Basic

namespace ProcessKit
namespace Disk

/-- The directory at the end of the steps from a directory on, so many links being followed. -/
def follow? (disk : Disk) (links : Nat) (here : Place) (steps : List String) : Option Place :=
  match steps with
  | [] => some here
  | step :: rest =>
    if step = "" ∨ step = "." then follow? disk links here rest
    else match disk.get? (here ++ [step]), links with
      | some (.dir _), links => follow? disk links (here ++ [step]) rest
      | some (.link target), links + 1 =>
        if Tar.leadsAway target then none
        else follow? disk links here (Path.pieces target ++ rest)
      | _, _ => none
  termination_by (links, steps.length)

/-- The directory at the end of the steps from a directory on; those that are missing are made. -/
def makeAbove? (disk : Disk) (here : Place) : List String → Option (Disk × Place)
  | [] => some (disk, here)
  | step :: rest =>
    match disk.get? (here ++ [step]) with
    | none => makeAbove? (disk.set (here ++ [step]) (.dir .newDir)) (here ++ [step]) rest
    | some _ => (disk.follow? 40 here [step]).bind fun here => makeAbove? disk here rest

/-- The disk with an entry in the place of what is there. A directory keeps what is in it when it is
unpacked again, and is replaced by something else only if nothing is in it. -/
def replace? (disk : Disk) (place : Place) (entry : Entry) : Option Disk :=
  match disk.get? place, entry with
  | some (.dir _), .dir _ => some (disk.set place entry)
  | some (.dir _), _ => if (disk.children place).isEmpty then some (disk.set place entry) else none
  | _, _ => some (disk.set place entry)

/-- The disk with a member of an archive unpacked below a directory. -/
def unpackMember? (disk : Disk) (dest : Place) (member : Tar.Member) : Option Disk := do
  let steps ← Tar.steps? member.path
  match steps.getLast? with
  | none => if member.content = .dir then return disk.set dest (.dir member.mode) else none
  | some name =>
    let (disk, above) ← disk.makeAbove? dest steps.dropLast
    let place := above ++ [name]
    match member.content with
    | .dir => disk.replace? place (.dir member.mode)
    | .file bytes => disk.replace? place (.file bytes member.mode)
    | .pipe => disk.replace? place .device
    | .link target =>
      if target = "" then none
      else match disk.get? place with
        | some (.link first) =>
          if Tar.leadsAway target && Tar.leadsAway first then return disk
          else disk.replace? place (.link target)
        | _ => disk.replace? place (.link target)
    | .copy target =>
      let steps := Tar.targetSteps target
      let here := (← disk.follow? 40 dest steps.dropLast) ++ steps.getLast?.toList
      let entry ← disk.get? here
      if here = place then return disk
      else match entry with
        | .dir _ => none
        | entry => disk.replace? place entry

/-- The disk with the members of an archive unpacked below a directory, in order. -/
def unpack? (disk : Disk) (dest : Place) (members : List Tar.Member) : Option Disk :=
  members.foldlM (fun disk member => disk.unpackMember? dest member) disk

end Disk
end ProcessKit
