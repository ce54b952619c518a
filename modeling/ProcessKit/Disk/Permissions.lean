/-
# Permission bits

The bits of a directory say what its owner may do with it: list the names in it, search it, change
what is in it. `Disk.permits` asks for such a right at a place.

A change of permission bits is a text: octal digits, or clauses such as `u+rwX` that tell whose
rights are added, taken away or set. `Mode.change?` makes a change, and has none for a text that
means nothing.
-/

import ProcessKit.Disk.Basic

namespace ProcessKit

/-- The rights that a change of permission bits is about, as shifts of three bits each. -/
def Mode.classes : List (Char × List Nat) := [('u', [6]), ('g', [3]), ('o', [0]), ('a', [6, 3, 0])]

/-- What an owner may be allowed to do with a directory. -/
inductive Right where
  /-- List the names in it. -/
  | list
  /-- Go on to an entry whose name is known. -/
  | search
  /-- Put entries into it and take them out. This takes a search as well. -/
  | change
  deriving DecidableEq, Repr

/-- The bits of a right, among the owner's three. -/
def Right.bits : Right → Nat
  | .list => 0b100
  | .search => 0b001
  | .change => 0b011

namespace Mode

/-- Whether the owner's bits grant a right. -/
def grants (mode : Mode) (right : Right) : Bool := (mode >>> 6) &&& right.bits == right.bits

/-- The bits after one clause of a change: whose rights, `+`, `-` or `=`, and which rights. `X` is
the right to execute where someone has it already, or to search a directory. -/
def clause? (isDir : Bool) (mode : Mode) (text : List Char) : Option Mode :=
  let whose := text.takeWhile fun c => "ugoa".toList.contains c
  match text.drop whose.length with
  | sign :: rights =>
    let bits : Nat := rights.foldl (fun n c =>
      n ||| match c with
        | 'r' => 4
        | 'w' => 2
        | 'x' => 1
        | 'X' => if isDir || mode &&& 0o111 != 0 then 1 else 0
        | _ => 0) 0
    let shifts := (whose.flatMap fun c => (classes.lookup c).getD []).eraseDups
    let all := (if whose.isEmpty then [6, 3, 0] else shifts)
    let mask : Nat := all.foldl (fun n shift => n ||| (bits <<< shift)) 0
    let mask := if whose.isEmpty then mask &&& (0o7777 ^^^ 0o022) else mask
    let whole : Nat := all.foldl (fun n shift => n ||| (7 <<< shift)) 0
    if rights.any fun c => !"rwxXst".toList.contains c then none
    else match sign with
      | '+' => some (mode ||| mask)
      | '-' => some (mode &&& (0o7777 ^^^ mask))
      | '=' => some ((mode &&& (0o7777 ^^^ whole)) ||| mask)
      | _ => none
  | [] => none

/-- The bits after a change: new ones as octal digits, or clauses with commas between them. -/
def change? (isDir : Bool) (mode : Mode) (text : String) : Option Mode :=
  let cs := text.toList
  if cs.all (fun c => '0' ≤ c && c ≤ '7') && !cs.isEmpty then
    some (cs.foldl (fun n c => n * 8 + (c.toNat - 48)) 0)
  else (text.splitOn ",").foldlM (fun mode clause => clause? isDir mode clause.toList) mode

end Mode

/-- The entry with changed permission bits. -/
def Entry.changeMode? (text : String) : Entry → Option Entry
  | .dir mode => (Mode.change? true mode text).map .dir
  | .file bytes mode => (Mode.change? false mode text).map (.file bytes)
  | entry => some entry

/-- Whether there is a directory at a place whose bits grant a right to the user of the disk, who
owns everything on it. -/
def Disk.permits (disk : Disk) (right : Right) (place : Place) : Bool :=
  match disk.get? place with
  | some (.dir mode) => mode.grants right
  | _ => false

/-- The disk with changed permission bits at a place, and below it if wanted. -/
def Disk.changeMode? (disk : Disk) (below : Bool) (text : String) (place : Place) : Option Disk :=
  let change (item : Place × Entry) : Option (Place × Entry) :=
    if item.1 = place || (below && place.isPrefixOf item.1) then
      (item.2.changeMode? text).map (item.1, ·)
    else some item
  (disk.entries.mapM change).map fun entries => { disk with entries }

end ProcessKit
