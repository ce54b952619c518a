/-
# Utilities

The programs that come with a machine: they look at their arguments and their input, change a disk
and print. `Utility.all` lists them by name. What they complain about names the file and the
reason.
-/

import ProcessKit.Archive.Unpack
import ProcessKit.Disk.Permissions
import ProcessKit.Host.Shell.Run

namespace ProcessKit

open Shell (Ending Outcome)

namespace Disk

/-- The disk without a file, a link or a tree. -/
def removeAny? (disk : Disk) (path : Path) : Option Disk :=
  match disk.find false path with
  | .entry [] _ => none
  | .entry place _ => some (disk.eraseTree place)
  | _ => none

/-- The disk with a copy of a tree at a free place. -/
def copyTree (disk : Disk) (source target : Place) : Disk :=
  let copies := disk.entries.filterMap fun (p, e) =>
    if source.isPrefixOf p then some (target ++ p.drop source.length, e) else none
  { disk with entries := copies ++ disk.entries }

end Disk

namespace Utility

/-- A program at work: what it is given, what it has printed, and whether it has failed. -/
structure Call where
  name : String
  arguments : List String
  input : Bytes
  disk : Disk
  output : Bytes := []
  errors : Bytes := []
  status : Nat := 0

namespace Call

/-- What the program did. -/
def ending (call : Call) : Ending × Disk :=
  ({ outcome := .exited call.status, output := call.output, errors := call.errors,
     left := call.input }, call.disk)

/-- Prints. -/
def print (call : Call) (text : String) : Call :=
  { call with output := call.output ++ Utf8.encode text }

/-- Complains and fails, but goes on. -/
def complain (call : Call) (status : Nat) (text : String) : Call :=
  { call with
    errors := call.errors ++ Utf8.encode (call.name ++ ": " ++ text ++ "\n"), status }

/-- The letters of the arguments that are options. -/
def letters (call : Call) : List Char :=
  ((call.arguments.takeWhile (· != "--")).filter fun a => a.startsWith "-" && a != "-").flatMap
    (·.toList.tail)

/-- The arguments that are no options. -/
def operands (call : Call) : List String :=
  let before := call.arguments.takeWhile (· != "--")
  before.filter (fun a => !(a.startsWith "-") || a == "-") ++
    call.arguments.drop (before.length + 1)

/-- Does something for every operand. -/
def forEach (call : Call) (act : Call → String → Call) : Call := call.operands.foldl act call

/-- Complains that an operand is missing. -/
def usage (call : Call) : Call :=
  call.complain 1 ("missing operand\nTry '" ++ call.name ++ " --help' for more information.")

end Call

/-- Why a path leads to no entry. -/
def reason (disk : Disk) (path : String) : String :=
  match disk.find true ⟨path⟩ with
  | .blocked => "Not a directory"
  | _ => "No such file or directory"

/-- The bytes of the files that are operands, or of the input. -/
def cat (call : Call) : Call :=
  let operands := if call.operands.isEmpty then ["-"] else call.operands
  operands.foldl (fun call file =>
    if file = "-" then { call with output := call.output ++ call.input, input := [] }
    else match call.disk.readFile? ⟨file⟩ with
      | some bytes => { call with output := call.output ++ bytes }
      | none =>
        let why := if call.disk.kind? ⟨file⟩ = some .dir then "Is a directory"
          else reason call.disk file
        call.complain 1 (file ++ ": " ++ why)) call

/-- Makes directories. -/
def mkdir (call : Call) : Call :=
  call.forEach fun call path =>
    let refuse (why : String) : Call :=
      call.complain 1 ("cannot create directory '" ++ path ++ "': " ++ why)
    if call.letters.contains 'p' then
      match call.disk.createDirAll ⟨path⟩ with
      | (true, disk) => { call with disk }
      | (false, disk) => { refuse "Not a directory" with disk }
    else match call.disk.makeDir ⟨path⟩ with
      | .made disk => { call with disk }
      | .noParent => refuse "No such file or directory"
      | .refused =>
        match call.disk.find false ⟨path⟩ with
        | .entry .. => refuse "File exists"
        | _ => refuse "Not a directory"

/-- Removes files, and trees if wanted. -/
def rm (call : Call) : Call :=
  let forced := call.letters.contains 'f'
  let trees := call.letters.contains 'r' || call.letters.contains 'R'
  call.forEach fun call path =>
    let refuse (why : String) : Call :=
      call.complain 1 ("cannot remove '" ++ path ++ "': " ++ why)
    match call.disk.find false ⟨path⟩ with
    | .entry _ (.dir _) =>
      if !trees then refuse "Is a directory"
      else { call with disk := (call.disk.removeAny? ⟨path⟩).getD call.disk }
    | .entry .. => { call with disk := (call.disk.removeAny? ⟨path⟩).getD call.disk }
    | .blocked => if forced then call else refuse "Not a directory"
    | _ => if forced then call else refuse "No such file or directory"

/-- Removes empty directories. -/
def rmdir (call : Call) : Call :=
  call.forEach fun call path =>
    let refuse (why : String) : Call :=
      call.complain 1 ("failed to remove '" ++ path ++ "': " ++ why)
    match call.disk.find false ⟨path⟩ with
    | .entry place (.dir _) =>
      if (call.disk.children place).isEmpty then
        { call with disk := call.disk.eraseTree place }
      else refuse "Directory not empty"
    | .entry .. | .blocked => refuse "Not a directory"
    | _ => refuse "No such file or directory"

/-- Makes files that are missing. -/
def touch (call : Call) : Call :=
  call.forEach fun call path =>
    if (call.disk.kind? ⟨path⟩).isSome then call
    else match call.disk.writeFile? ⟨path⟩ [] with
      | some disk => { call with disk }
      | none => call.complain 1 ("cannot touch '" ++ path ++ "': " ++ reason call.disk path)

/-- Changes permission bits. -/
def chmod (call : Call) : Call :=
  let arguments := call.arguments.filter fun a => a != "-R" && a != "-f" && a != "--"
  match arguments with
  | mode :: first :: rest =>
    (first :: rest).foldl (fun call path =>
      match call.disk.find true ⟨path⟩ with
      | .entry place _ =>
        match call.disk.changeMode? (call.arguments.contains "-R") mode place with
        | some disk => { call with disk }
        | none => call.complain 1 ("invalid mode: '" ++ mode ++ "'")
      | _ => call.complain 1 ("cannot access '" ++ path ++ "': " ++ reason call.disk path)) call
  | _ => call.usage

/-- Where something goes that is copied or moved to a path: into a directory, under its own name, or
else to the path itself. -/
def destination (disk : Disk) (source target : String) : Path :=
  if disk.kind? ⟨target⟩ = some .dir then (Path.mk target).join ⟨(Path.fileName? ⟨source⟩).getD ""⟩
  else ⟨target⟩

/-- Copies files, and trees if wanted. -/
def cp (call : Call) : Call :=
  let trees := call.letters.any fun c => "rRa".toList.contains c
  match call.operands.reverse with
  | target :: source :: more =>
    (source :: more).reverse.foldl (fun call source =>
      let place := destination call.disk source target
      match call.disk.find true ⟨source⟩ with
      | .entry here (.dir mode) =>
        if !trees then
          call.complain 1 ("-r not specified; omitting directory '" ++ source ++ "'")
        else match call.disk.find true place with
          | .free there _ => { call with disk := call.disk.copyTree here there }
          | .entry there (.dir _) =>
            let disk := (call.disk.eraseTree there).copyTree here there
            { call with disk := disk.set there (.dir mode) }
          | _ => call.complain 1 ("cannot create directory '" ++ place.text ++ "': " ++
              reason call.disk place.text)
      | .entry _ (.file bytes mode) =>
        match call.disk.find true place, call.disk.writeFile? place bytes with
        | .free there _, some disk => { call with disk := disk.set there (.file bytes mode) }
        | _, some disk => { call with disk }
        | _, none => call.complain 1 ("cannot create regular file '" ++ place.text ++ "': " ++
            reason call.disk place.text)
      | .entry .. => call
      | _ => call.complain 1 ("cannot stat '" ++ source ++ "': " ++ reason call.disk source)) call
  | [source] => call.complain 1 ("missing destination file operand after '" ++ source ++
      "'\nTry 'cp --help' for more information.")
  | [] => call.complain 1 "missing file operand\nTry 'cp --help' for more information."

/-- Moves files and trees. -/
def mv (call : Call) : Call :=
  match call.operands.reverse with
  | target :: source :: more =>
    (source :: more).reverse.foldl (fun call source =>
      let place := destination call.disk source target
      match call.disk.find false ⟨source⟩, call.disk.rename? ⟨source⟩ place with
      | .entry .., some disk => { call with disk }
      | .entry .., none => call.complain 1 ("cannot move '" ++ source ++ "' to '" ++ place.text ++
          "': " ++ reason call.disk place.text)
      | _, _ =>
        call.complain 1 ("cannot stat '" ++ source ++ "': " ++ reason call.disk source)) call
  | [source] => call.complain 1 ("missing destination file operand after '" ++ source ++
      "'\nTry 'mv --help' for more information.")
  | [] => call.complain 1 "missing file operand\nTry 'mv --help' for more information."

/-- Makes links: symbolic ones, or second names of files. -/
def ln (call : Call) : Call :=
  let symbolic := call.letters.contains 's'
  let kind := if symbolic then "symbolic link" else "hard link"
  let (source, target) := match call.operands with
    | [source] => (source, (Path.fileName? ⟨source⟩).getD source)
    | source :: target :: _ => (source, target)
    | [] => ("", "")
  let place := destination call.disk source target
  let disk := if call.letters.contains 'f' then (call.disk.removeAny? place).getD call.disk
    else call.disk
  match call.operands, disk.find false place with
  | [], _ => call.complain 1 "missing file operand\nTry 'ln --help' for more information."
  | _, .free there _ =>
    if symbolic then { call with disk := disk.set there (.link source) }
    else match disk.find false ⟨source⟩ with
      | .entry _ (.dir _) => call.complain 1 (source ++ ": hard link not allowed for directory")
      | .entry _ e => { call with disk := disk.set there e }
      | _ => call.complain 1 ("failed to access '" ++ source ++ "': " ++ reason disk source)
  | _, .entry .. => call.complain 1 ("failed to create " ++ kind ++ " '" ++ place.text ++
      "': File exists")
  | _, _ => call.complain 1 ("failed to create " ++ kind ++ " '" ++ place.text ++ "': " ++
      reason disk place.text)

/-- Lists names, one on a line. -/
def ls (call : Call) : Call :=
  let all := call.letters.contains 'a' || call.letters.contains 'A'
  let sorted (names : List String) : List String := names.mergeSort fun a b => a ≤ b
  let operands := sorted (if call.operands.isEmpty then ["."] else call.operands)
  let isDir (path : String) : Bool :=
    call.disk.kind? ⟨path⟩ == some .dir && !call.letters.contains 'd'
  let isThere (path : String) : Bool :=
    match call.disk.find false ⟨path⟩ with
    | .entry .. => true
    | _ => false
  let call := (operands.filter (!isThere ·)).foldl (fun call path =>
    call.complain 2 ("cannot access '" ++ path ++ "': " ++ reason call.disk path)) call
  let files := operands.filter fun path => isThere path && !isDir path
  let dirs := operands.filter isDir
  let call := files.foldl (fun call path => call.print (path ++ "\n")) call
  let titled := 1 < operands.length
  (dirs.foldl (fun (call, isFirst) dir =>
    let names := match call.disk.find true ⟨dir⟩ with
      | .entry place _ => sorted ((call.disk.children place).filter fun name =>
          all || !name.startsWith ".")
      | _ => []
    let dots := if call.letters.contains 'a' then [".", ".."] else []
    let title := if titled then (if isFirst then "" else "\n") ++ dir ++ ":\n" else ""
    ((dots ++ names).foldl (fun call name => call.print (name ++ "\n")) (call.print title), false))
    (call, files.isEmpty)).1

/-- The last step of a path, without an ending. -/
def basename (call : Call) : Call :=
  match call.operands with
  | [] => call.usage
  | path :: rest =>
    let trimmed := (Path.withoutFinalSlashes ⟨path⟩).text
    let name := if trimmed = "/" then "/" else (Path.pieces trimmed).getLast?.getD ""
    let ending := rest.headD ""
    let cut := if ending != "" && name != ending && name.endsWith ending then
      String.ofList (name.toList.take (name.length - ending.length)) else name
    call.print (cut ++ "\n")

/-- The paths without their last steps. -/
def dirname (call : Call) : Call :=
  if call.operands.isEmpty then call.usage
  else call.forEach fun call path =>
    let cs := (Path.withoutFinalSlashes ⟨path⟩).text.toList
    let dir := if cs = ['/'] then "/"
      else if !cs.contains '/' then "."
      else (Path.withoutFinalSlashes
        ⟨String.ofList (cs.reverse.dropWhile (· != '/')).reverse⟩).text
    call.print (dir ++ "\n")

/-- The count that options ask for, and whether it is of bytes. -/
def wanted (call : Call) : Nat × Bool × List String :=
  go (10, false, []) call.arguments
where
  /-- Reads the options one by one. -/
  go (found : Nat × Bool × List String) : List String → Nat × Bool × List String
    | [] => (found.1, found.2.1, found.2.2.reverse)
    | text :: rest =>
      let (count, ofBytes, files) := found
      match text.toList, rest with
      | ['-', 'n'], n :: rest => go (n.toNat?.getD count, false, files) rest
      | ['-', 'c'], n :: rest => go (n.toNat?.getD count, true, files) rest
      | '-' :: 'n' :: digits, rest =>
        go ((String.ofList digits).toNat?.getD count, false, files) rest
      | '-' :: 'c' :: digits, rest =>
        go ((String.ofList digits).toNat?.getD count, true, files) rest
      | '-' :: d :: digits, rest =>
        go ((String.ofList (d :: digits)).toNat?.getD count, ofBytes, files) rest
      | _, rest => go (count, ofBytes, text :: files) rest

/-- The lines of bytes, each with its end. -/
def lines (bytes : Bytes) : List Bytes :=
  bytes.foldr (fun b rest =>
    if b = 10 then [b] :: rest
    else match rest with
      | line :: rest => (b :: line) :: rest
      | [] => [[b]]) []

/-- A part of each file, or of the input. -/
def parts (call : Call) (cut : Nat → Bool → Bytes → Bytes) : Call :=
  let (count, ofBytes, files) := wanted call
  let titled := 1 < files.length
  if files.isEmpty then
    { call with output := call.output ++ cut count ofBytes call.input, input := [] }
  else
    (files.foldl (fun (call, isFirst) file =>
      match call.disk.readFile? ⟨file⟩ with
      | some bytes =>
        let title := (if isFirst then "" else "\n") ++ "==> " ++ file ++ " <==\n"
        let call : Call := if titled then call.print title else call
        ({ call with output := call.output ++ cut count ofBytes bytes }, false)
      | none => (call.complain 1 ("cannot open '" ++ file ++ "' for reading: " ++
          reason call.disk file), isFirst)) (call, true)).1

/-- The first lines or bytes. -/
def head (call : Call) : Call :=
  parts call fun count ofBytes bytes =>
    if ofBytes then bytes.take count else ((lines bytes).take count).flatten

/-- The last lines or bytes. -/
def tail (call : Call) : Call :=
  parts call fun count ofBytes bytes =>
    if ofBytes then bytes.drop (bytes.length - count)
    else let all := lines bytes; (all.drop (all.length - count)).flatten

/-- The archive and the directory that the arguments of `tar` tell. -/
structure Extraction where
  archive : String := ""
  dest : String := "."

/-- Reads arguments of `tar` one by one; the first may be letters without a dash. -/
def Extraction.read (found : Extraction) (isFirst : Bool) : List String → Extraction
  | text :: value :: rest =>
    let letters := match text.toList with
      | '-' :: letters => letters
      | letters => if isFirst then letters else []
    if letters = ['C'] then read { found with dest := value } false rest
    else if letters.getLast? = some 'f' then read { found with archive := value } false rest
    else read found false (value :: rest)
  | _ => found

/-- Unpacks an archive. -/
def tar (call : Call) : Call :=
  let found := ({} : Extraction).read true call.arguments
  let members? := (call.disk.readFile? ⟨found.archive⟩).bind (Tar.decode? found.archive)
  match call.disk.find true ⟨found.dest⟩, members? with
  | .entry place (.dir _), some members =>
    match call.disk.unpack? place members with
    | some disk => { call with disk }
    | none => call.complain 2 (found.archive ++ ": Cannot unpack")
  | _, _ => call.complain 2 (found.archive ++ ": Cannot open")

/-- A command that the shell has too, as a program. -/
def ofBuiltin (call : Call) : Call :=
  let s : Shell.State := { disk := call.disk, name := call.name, arguments := [] }
  match s.builtin? call.name call.arguments with
  | some s => { call with output := s.captured, errors := s.errors, status := s.status }
  | none => call

/-- The programs that come with the machine. -/
def all : List (String × (Call → Call)) :=
  [("tar", tar), ("chmod", chmod), ("cat", cat), ("mkdir", mkdir), ("rm", rm), ("rmdir", rmdir),
    ("touch", touch), ("cp", cp), ("mv", mv), ("ln", ln), ("ls", ls), ("basename", basename),
    ("dirname", dirname), ("head", head), ("tail", tail), ("sleep", id), ("sync", id),
    ("true", ofBuiltin), ("false", ofBuiltin), ("echo", ofBuiltin), ("printf", ofBuiltin),
    ("test", ofBuiltin), ("[", ofBuiltin), ("pwd", ofBuiltin)]

end Utility
end ProcessKit
