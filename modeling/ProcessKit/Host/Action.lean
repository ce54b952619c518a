/-
# Actions on the machine

What the library does to the machine it runs on is an `Action`: a tree of requests, each with what
to do at every answer to it, that ends in a value or a failure. One request is one indivisible step,
except for the two calls of the archive tool. `Action.run` carries an action out on a `Machine`, a
value that holds the disk and records tool calls, log events and printed lines; the command line
carries the same action out on the real machine.
-/

import ProcessKit.Disk.Operations
import ProcessKit.Error

namespace ProcessKit

/-- How much a log event matters. -/
inductive Level where
  | debug
  | info
  | error
  deriving DecidableEq, Repr

/-- A call of the archive tool. -/
inductive ToolCall where
  /-- Unpack an archive into an existing directory. -/
  | extract (archive dest : Path)
  /-- Give the user access to everything in a directory. -/
  | grantAccess (dir : Path)
  deriving DecidableEq, Repr

/-- The directory that a tool call works on. -/
def ToolCall.dest : ToolCall → Path
  | .extract _ dest => dest
  | .grantAccess dir => dir

/-- What an action asks of the machine. -/
inductive Request where
  | kind (path : Path)
  | read (path : Path)
  | write (path : Path) (bytes : Bytes)
  | createDirAll (path : Path)
  | removeDirAll (path : Path)
  | rename (source target : Path)
  | tool (call : ToolCall)
  | log (level : Level) (message : String)
  | print (line : String)
  deriving DecidableEq, Repr

/-- The answer to a request. -/
abbrev Request.Reply : Request → Type
  | .kind _ => Option Disk.Kind
  | .read _ => Option Bytes
  | .write .. | .createDirAll _ | .removeDirAll _ | .rename .. => Bool
  | .tool _ => Except Error Unit
  | .log .. | .print _ => Unit

/-- A tree of requests that ends in a value or a failure. -/
inductive Action (α : Type) where
  | done (value : α)
  | fail (error : Error)
  | ask (request : Request) (next : request.Reply → Action α)

namespace Action

variable {α β : Type}

/-- One action after another. -/
def bind : Action α → (α → Action β) → Action β
  | .done value, f => f value
  | .fail error, _ => .fail error
  | .ask request next, f => .ask request fun reply => (next reply).bind f

instance : Monad Action where
  pure := .done
  bind := bind

/-- The failure of an action as a value. -/
def attempt : Action α → Action (Except Error α)
  | .done value => .done (.ok value)
  | .fail error => .done (.error error)
  | .ask request next => .ask request fun reply => (next reply).attempt

/-- A result as an action without a request. -/
def ofExcept : Except Error α → Action α
  | .ok value => .done value
  | .error error => .fail error

/-- One request. -/
def request (r : Request) : Action r.Reply := .ask r .done

/-- What kind of thing a path leads to. -/
def kind? (path : Path) : Action (Option Disk.Kind) := request (.kind path)

/-- Whether a path leads to anything. -/
def pathExists (path : Path) : Action Bool := do return (← kind? path).isSome

/-- Whether a path leads to a directory. -/
def isDir (path : Path) : Action Bool := do return (← kind? path) == some .dir

/-- Whether a path leads to a file. -/
def isFile (path : Path) : Action Bool := do return (← kind? path) == some .file

/-- The text of a file; a file that is not UTF-8 is refused like one that cannot be read. -/
def readText (path : Path) (context : String) : Action String := do
  match (← request (.read path)).bind Utf8.decode? with
  | some text => return text
  | none => .fail (.io context)

/-- Writes a file. -/
def writeFile (path : Path) (bytes : Bytes) (context : String) : Action Unit := do
  unless ← request (.write path bytes) do .fail (.io context)

/-- Makes a directory and those above it. -/
def createDirAll (path : Path) (context : String) : Action Unit := do
  unless ← request (.createDirAll path) do .fail (.io context)

/-- Removes a directory and all below it. -/
def removeDirAll (path : Path) (context : String) : Action Unit := do
  unless ← request (.removeDirAll path) do .fail (.io context)

/-- Removes a directory and all below it if that is possible. -/
def tryRemoveDirAll (path : Path) : Action Unit := do
  let _ ← request (.removeDirAll path)

/-- Calls the archive tool. -/
def callTool (call : ToolCall) : Action Unit := do ofExcept (← request (.tool call))

/-- Logs an event. -/
def log (level : Level) (message : String) : Action Unit := request (.log level message)

/-- Prints a line. -/
def print (line : String) : Action Unit := request (.print line)

end Action
end ProcessKit
