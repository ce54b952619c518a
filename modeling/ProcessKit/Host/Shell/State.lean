/-
# A shell at work

The state of a shell is the disk, its variables and arguments, the streams, and how far the script
has come: it runs until it has ended, or until a jump out of loops or of a function is pending. What
is written goes to a sink. A complaint carries the path of the script and the number of the line.
-/

import ProcessKit.Disk.Operations
import ProcessKit.Host.Shell.Script

namespace ProcessKit
namespace Shell

/-- Where a stream leads. -/
inductive Sink where
  | nowhere
  /-- The errors of the script. -/
  | errors
  /-- The output of the script. -/
  | captured
  | file (place : Place)
  deriving DecidableEq, Repr

/-- A jump that is pending. -/
inductive Jump where
  /-- Out of loops; the last of them goes on with its next round if `again` is set. -/
  | loops (count : Nat) (again : Bool)
  /-- Out of a function, or of the script; `told` if the status was given with it. -/
  | function (told : Bool)

/-- How a process ended. -/
inductive Outcome where
  | exited (status : Nat)
  | killed (signal : Nat)
  deriving DecidableEq, Repr

/-- The status of a shell's command that ended. -/
def Outcome.status : Outcome → Nat
  | .exited status => status
  | .killed signal => 128 + signal

/-- A shell at work. -/
structure State where
  disk : Disk
  /-- The path of the script. -/
  name : String
  arguments : List String
  bindings : List (String × String) := []
  /-- The variables that programs are told of. -/
  exported : List String := []
  fixed : List String := []
  functions : List (String × Command) := []
  /-- What is left to be read. -/
  input : Bytes := []
  /-- Where the streams lead that are open for writing. -/
  streams : List (Nat × Sink) := [(1, .captured), (2, .errors)]
  captured : Bytes := []
  errors : Bytes := []
  line : Nat := 1
  /-- The number of the line up to which the script has been read. -/
  lastLine : Nat := 1
  /-- The status of the last command. -/
  status : Nat := 0
  /-- The status of the last script whose output was put into a word. -/
  outputStatus : Nat := 0
  /-- What stands in front of complaints: the name of the command of the shell at work. -/
  lead : String := ""
  /-- How the script ended. -/
  ended : Option Outcome := none
  jump : Option Jump := none
  /-- How many loops are being carried out. -/
  loops : Nat := 0
  /-- The values that variables get back at the end of a function, while one is being carried
  out. -/
  kept : Option (List (String × Option String)) := none
  /-- How many letters of an argument have been read as options. -/
  lettersRead : Nat := 0
  /-- What is done at a signal, by its number; the end of the script has the number zero. -/
  traps : List (Nat × String) := []
  /-- The status of the last command that was not waited for. -/
  backgroundStatus : Option Nat := none
  /-- Signals that have come and are not yet dealt with. -/
  signals : List Nat := []
  /-- Whether this is a shell for an isolated part, so that a signal to the process of the script
  does not come to it. -/
  isIsolated : Bool := false
  /-- The status at a signal, or at the end of the script, while what is to be done at it is
  done. -/
  interrupted : Option Nat := none
  /-- The options of the shell, by their letters. -/
  options : List Char := []

namespace State

/-- Whether the commands that follow are passed over. -/
def stopped (s : State) : Bool := s.ended.isSome || s.jump.isSome

/-- Whether a failure ends the script. -/
def stopsOnFailure (s : State) : Bool := s.options.contains 'e'

/-- Whether a missing variable ends the script. -/
def stopsOnMissing (s : State) : Bool := s.options.contains 'u'

/-- Where a stream leads, if it is open. -/
def sink? (s : State) (stream : Nat) : Option Sink := s.streams.lookup stream

/-- Writes to a sink. -/
def writeTo (s : State) (sink : Sink) (bytes : Bytes) : State :=
  match sink with
  | .nowhere => s
  | .errors => { s with errors := s.errors ++ bytes }
  | .captured => { s with captured := s.captured ++ bytes }
  | .file place =>
    match s.disk.get? place with
    | some (.file before mode) =>
      { s with disk := s.disk.set place (.file (before ++ bytes) mode) }
    | _ => s

/-- Writes to a stream. -/
def write (s : State) (stream : Nat) (bytes : Bytes) : State :=
  match s.sink? stream with
  | some sink => s.writeTo sink bytes
  | none => s

/-- Complains and goes on with a status. -/
def complain (s : State) (status : Nat) (text : String) : State :=
  let line := s.name ++ ": " ++ toString s.line ++ ": " ++ s.lead ++ text ++ "\n"
  { s.write 2 (Utf8.encode line) with status }

/-- Complains and ends the script. -/
def abort (s : State) (text : String) : State :=
  { s.complain 2 text with ended := some (.exited 2) }

/-- The value of a variable. -/
def value? (s : State) (name : String) : Option String := s.bindings.lookup name

/-- Sets a variable, unless it is fixed. -/
def assign (s : State) (name value : String) : State :=
  if s.fixed.contains name then s.abort (name ++ ": is read only")
  else { s with
    bindings := (name, value) :: s.bindings.filter (·.1 != name)
    lettersRead := if name = "OPTIND" then 0 else s.lettersRead
    exported := if s.options.contains 'a' then name :: s.exported else s.exported }

/-- Removes a variable, unless it is fixed. -/
def remove (s : State) (name : String) : State :=
  if s.fixed.contains name then s.abort (name ++ ": is read only")
  else { s with
    bindings := s.bindings.filter (·.1 != name)
    exported := s.exported.filter (· != name) }

/-- The variables that a program is told of, with their values. -/
def environment (s : State) : List (String × String) :=
  s.bindings.filter fun (name, _) => s.exported.contains name

/-- The characters that separate fields. -/
def separators (s : State) : List Char := ((s.value? "IFS").getD " \t\n").toList

/-- The stand-in for the number of the shell's process. -/
def processSign : String := "$$"

/-- The stand-in for the number of the process that was not waited for. -/
def backgroundSign : String := "$!"

/-- The value of a parameter. -/
def parameter? (s : State) (name : String) : Option String :=
  if name = "#" then some (toString s.arguments.length)
  else if name = "@" ∨ name = "*" then
    if s.arguments.isEmpty then none
    else
      let gap := if name = "*" then (s.separators.take 1) else [' ']
      some ((String.ofList gap).intercalate s.arguments)
  else if name = "?" then some (toString s.status)
  else if name = "$" then some processSign
  else if name = "!" then some backgroundSign
  else if name = "-" then some (String.ofList s.options)
  else if name = "0" then some s.name
  else if name = "PWD" then some ("/" ++ "/".intercalate s.disk.current)
  else if name = "PPID" then some "1"
  else match name.toNat? with
    | some n => s.arguments[n - 1]?
    | none =>
      match name, s.value? name with
      | "IFS", none => some " \t\n"
      | "OPTIND", none => some "1"
      | _, value? => value?

/-- The streams that a path stands for. -/
def streamOf? (path : String) : Option Nat :=
  [("/dev/stdout", 1), ("/dev/fd/1", 1), ("/dev/stderr", 2), ("/dev/fd/2", 2)].lookup path

/-- Opens a redirection whose target is known, or tells why it cannot be opened. -/
def open? (s : State) (r : Redirect) (target : String) : Except String State :=
  let path : Path := ⟨target⟩
  let lead (sink : Sink) (s : State) : State :=
    { s with streams := (r.stream, sink) :: s.streams.filter (·.1 != r.stream) }
  let input (bytes : Bytes) : State := if r.stream = 0 then { s with input := bytes } else s
  match r.mode with
  | .here => .ok (input (Utf8.encode target))
  | .duplicate =>
    if target = "-" then .ok { s with streams := s.streams.filter (·.1 != r.stream) }
    else match target.toList with
      | [c] =>
        if !c.isDigit then .error "Syntax error: Bad fd number"
        else if c = '0' then .ok s
        else match s.sink? (c.toNat - 48) with
          | some sink => .ok (lead sink s)
          | none => .error (target ++ ": Bad file descriptor")
      | _ => .error "Syntax error: Bad fd number"
  | .read =>
    match s.disk.readFile? path, s.disk.kind? path with
    | some bytes, _ => .ok (input bytes)
    | none, some _ => .ok (input [])
    | none, none => .error ("cannot open " ++ target ++ ": No such file")
  | mode =>
    match (streamOf? target).bind s.sink? with
    | some sink => .ok (lead sink s)
    | none =>
      let before := if mode = .append then (s.disk.readFile? path).getD [] else []
      match s.disk.writeFile? path before with
      | some disk =>
        match disk.find true path with
        | .entry place (.file ..) => .ok (lead (.file place) { s with disk })
        | _ => .ok (lead .nowhere { s with disk })
      | none =>
        let reason := if s.disk.kind? path = some .dir then "Is a directory"
          else "Directory nonexistent"
        .error ("cannot create " ++ target ++ ": " ++ reason)

end State
end Shell
end ProcessKit
