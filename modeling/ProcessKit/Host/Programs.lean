/-
# Programs of a machine

The archive tool of a machine is a pair of its programs: `tar` unpacks an archive, and `chmod`
gives the user access to a tree. A program is looked for in the directories of a search path; it
comes with the machine, or it is a script whose first line tells the program that reads it.
`Programs.tool` is the archive tool that runs them.
-/

import ProcessKit.Host.Environment
import ProcessKit.Host.Machine
import ProcessKit.Host.Utilities

namespace ProcessKit
namespace Programs

open Shell (Attempt Ending)

/-- A program. -/
inductive Program where
  | utility (name : String) (act : Utility.Call → Utility.Call)
  /-- A shell, which runs a script from a file or from its arguments. -/
  | shell
  /-- A program that runs another one with other variables. -/
  | env
  /-- A script, with the program that reads it and an argument for that. -/
  | script (reader : Path) (argument : Option String)

/-- What is at a path. -/
inductive Found where
  | program (program : Program)
  | missing
  | refused
  | unknown

/-- The names of the shells of the machine; a script is read in the same way by each of them. -/
def shells : List String := ["sh", "dash", "bash"]

/-- The program that comes with the machine under a name. -/
def ofMachine? (name : String) : Option Program :=
  if shells.contains name then some .shell
  else if name = "env" then some .env
  else (Utility.all.lookup name).map (.utility name)

/-- How many bytes of a file may tell the program that reads it. -/
def firstLineLimit : Nat := 256

/-- The program that the first line of a file tells, with the rest of the line as one argument. -/
def reader? (bytes : Bytes) : Option (Path × Option String) :=
  let line := ((bytes.take firstLineLimit).takeWhile (· != 10))
  let isBlank (b : UInt8) : Bool := b == 32 || b == 9
  match line with
  | 35 :: 33 :: rest =>
    let rest := ((rest.dropWhile isBlank).reverse.dropWhile isBlank).reverse
    let path := rest.takeWhile fun b => !isBlank b && b != 0
    let argument := (rest.drop path.length).dropWhile isBlank
    if path.isEmpty then none
    else if line.length = firstLineLimit ∧ path.length = rest.length then none
    else some (⟨Utf8.decodeLossy path⟩,
      if argument.isEmpty then none else some (Utf8.decodeLossy argument))
  | _ => none

/-- What is at a path. -/
def found (disk : Disk) (path : Path) : Found :=
  match disk.find true path with
  | .entry _ (.file bytes mode) =>
    if mode &&& 0o111 = 0 then .refused
    else match reader? bytes with
      | some (reader, argument) => .program (.script reader argument)
      | none => .unknown
  | .entry .. => .refused
  | _ =>
    match (Path.pieces path.text).filter (· != "") with
    | ["usr", "bin", name] | ["bin", name] =>
      match ofMachine? name with
      | some program => .program program
      | none => .missing
    | _ => .missing

/-- The paths of a name in the directories of a search path. -/
def searched (searchPath name : String) : List Path :=
  (searchPath.splitOn ":").map fun dir => (Path.mk dir).join ⟨name⟩

/-- What the first program did that could be started; one that is there but cannot be read as a
program ends the search. -/
def startFirst (start : Path → Attempt) : List Path → Option (Ending × Disk)
  | [] => none
  | path :: paths =>
    match start path with
    | .ran ending disk => some (ending, disk)
    | .missing | .refused => startFirst start paths
    | .unknown => none

/-- The options, the script, its name and its arguments that a shell is started with. -/
def scriptOf (disk : Disk) (arguments : List String) :
    Except String (List String × String × String × List String) :=
  let isOption (text : String) : Bool := 1 < text.length && (text.startsWith "-" ||
    text.startsWith "+")
  let options := arguments.takeWhile fun text => isOption text && text != "--"
  let rest := arguments.drop options.length
  let rest := if rest.head? = some "--" then rest.tail else rest
  let letters := options.filter fun text => text != "-c"
  match options.contains "-c", rest with
  | true, text :: rest => .ok (letters, text, rest.headD "sh", rest.tail)
  | true, [] => .error "sh: 0: -c requires an argument\n"
  | false, file :: rest =>
    match disk.readFile? ⟨file⟩ with
    | some bytes => .ok (letters, Utf8.decodeLossy bytes, file, rest)
    | none => .error ("sh: 0: cannot open " ++ file ++ ": No such file\n")
  | false, [] => .ok (letters, "", "sh", [])

/-- A failure with a message. -/
def failed (status : Nat) (message : String) (input : Bytes) : Ending :=
  { outcome := .exited status, errors := Utf8.encode message, left := input }

/-- Starts the program at a path; programs start each other no deeper than `depth` levels. -/
def start : Nat → Path → List String → List (String × String) → Bytes → Disk → Attempt
  | 0, _, _, _, input, disk => .ran (failed 126 "too many levels of scripts\n" input) disk
  | depth + 1, path, arguments, bindings, input, disk =>
    match found disk path with
    | .missing => .missing
    | .refused => .refused
    | .unknown => .unknown
    | .program program =>
      match program with
      | .utility name act =>
        let (ending, disk) := (act { name, arguments, input, disk }).ending
        .ran ending disk
      | .shell =>
        match scriptOf disk arguments with
        | .ok (options, text, name, arguments) =>
          let (ending, disk) :=
            Shell.run (start depth) options text name arguments bindings input disk
          .ran ending disk
        | .error message => .ran (failed 2 message input) disk
      | .env =>
        let (bindings, arguments) := settings bindings arguments
        match arguments with
        | [] =>
          let lines := bindings.map fun (name, value) => name ++ "=" ++ value ++ "\n"
          .ran { outcome := .exited 0, output := Utf8.encode ("".intercalate lines),
                 left := input } disk
        | name :: arguments =>
          let paths := if name.toList.contains '/' then [Path.mk name]
            else searched ((bindings.lookup "PATH").getD "/bin:/usr/bin") name
          match startFirst (start depth · arguments bindings input disk) paths with
          | some (ending, disk) => .ran ending disk
          | none =>
            .ran (failed 127 ("env: '" ++ name ++ "': No such file or directory\n") input) disk
      | .script reader argument =>
        start depth reader (argument.toList ++ path.text :: arguments) bindings input disk
where
  /-- The variables after the settings in front of a program, and what follows them. -/
  settings (bindings : List (String × String)) :
      List String → List (String × String) × List String
    | [] => (bindings, [])
    | text :: rest =>
      if text = "-i" ∨ text = "-" then settings [] rest
      else
        let name := text.toList.takeWhile (· != '=')
        if name.length < text.length then
          let value := String.ofList (text.toList.drop (name.length + 1))
          settings ((String.ofList name, value) :: bindings.filter (·.1 != String.ofList name)) rest
        else (bindings, text :: rest)

/-- How deep scripts may call each other. -/
def maxDepth : Nat := 16

/-- The text without blanks around it. -/
def trim (text : String) : String :=
  let blank (c : Char) : Bool := c.isWhitespace || c == '\x0b' || c == '\x0c' || c == '\u0085'
    || c == '\u00a0' || c == '\u1680' || ('\u2000' ≤ c && c ≤ '\u200a') || c == '\u2028'
    || c == '\u2029' || c == '\u202f' || c == '\u205f' || c == '\u3000'
  String.ofList ((text.toList.dropWhile blank).reverse.dropWhile blank).reverse

/-- A program with its arguments as one line. -/
def commandLine (name : String) (arguments : List String) : String :=
  name ++ " " ++ " ".intercalate arguments

/-- The event that tells of a program that is about to run. -/
def announcement (command : String) : String := "Executing: " ++ command

/-- Runs a program on a machine. -/
def runOn (environment : Environment) (name : String) (arguments : List String)
    (machine : Machine) : Except Error Unit × Machine :=
  let command := commandLine name arguments
  let machine := { machine with log := machine.log ++ [(.debug, announcement command)] }
  let paths := searched ((environment.get? "PATH").getD "/bin:/usr/bin") name
  match startFirst (start maxDepth · arguments environment.bindings [] machine.disk) paths with
  | none => (.error (.commandFailed command), machine)
  | some (ending, disk) =>
    let machine := { machine with disk }
    let fail (code : Option Int) : Except Error Unit × Machine :=
      (.error (.toolFailed command code (trim (Utf8.decodeLossy ending.errors))), machine)
    match ending.outcome with
    | .exited 0 => (.ok (), machine)
    | .exited status => fail (some status)
    | .killed _ => fail none

/-- The change of permission bits that gives the user access. -/
def accessChange : String := "u+rwX"

/-- The program and the arguments of a tool call. -/
def commandOf : ToolCall → String × List String
  | .extract archive dest => ("tar", ["-xf", archive.text, "-C", dest.text])
  | .grantAccess dir => ("chmod", ["-R", accessChange, dir.text])

/-- The archive tool whose programs are found in the environment. -/
def tool (environment : Environment) : Tool := fun call machine =>
  let (name, arguments) := commandOf call
  runOn environment name arguments machine

end Programs
end ProcessKit
