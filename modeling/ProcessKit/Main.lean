/-
# The command line

`main` reads the arguments, carries the invocation out on the machine it runs on, and shows what
came of it. `carryOut` answers the requests of an action one by one with what the machine has to
offer; archives are unpacked here, with access for their owner from the start. No decision is taken
in this module: what to ask and what to show is the matter of the actions and of the report.
-/

import ProcessKit.Command.Arguments
import ProcessKit.Command.Report
import ProcessKit.Host.Programs

namespace ProcessKit
namespace Terminal

/-- The variables that the tool looks at. -/
def environment : IO Environment := do
  let names := ["HOME", "XDG_CONFIG_HOME", "XDG_CACHE_HOME"] ++ Flag.standIns.map (·.2)
  let bindings ← names.filterMapM fun name => do return (← IO.getEnv name).map (name, ·)
  return { bindings }

/-- The number of this process, which names its staging directories. -/
def processId : IO Nat := do
  try
    return ((← IO.FS.realPath "/proc/self").fileName.bind String.toNat?).getD 0
  catch _ => return 0

/-- Whether an effect succeeds. -/
def succeeds (effect : IO Unit) : IO Bool := do
  try
    effect
    return true
  catch _ => return false

/-- A path as the entry of a directory, which can be asked for what is there. -/
def entryAt (path : Path) : IO.FS.DirEntry := { root := ".", fileName := path.text }

/-- What kind of thing a path leads to. -/
def kind? (path : Path) : IO (Option Disk.Kind) := do
  try
    match (← (entryAt path).path.metadata).type with
    | .dir => return some .dir
    | .file => return some .file
    | _ => return some .other
  catch _ => return none

/-- The bytes of a file. -/
def readFile? (path : Path) : IO (Option Bytes) := do
  try
    return some (← IO.FS.readBinFile path.text).toList
  catch _ => return none

/-- Removes a directory and all below it, or a link at the end of a path. -/
def remove (path : Path) : IO Unit := do
  match (← (entryAt path).path.symlinkMetadata).type with
  | .symlink => IO.FS.removeFile path.text
  | _ => IO.FS.removeDirAll path.text

/-- Permission bits as rights. -/
def rights (mode : Mode) : IO.FileRight :=
  let of (bits : Nat) : IO.AccessRight :=
    { read := bits.testBit 2, write := bits.testBit 1, execution := bits.testBit 0 }
  { user := of (mode / 64), group := of (mode / 8), other := of mode }

/-- Unpacks a member of an archive into a directory. -/
def unpackMember (dest : Path) (member : Tar.Member) : IO Unit := do
  let some steps := Tar.steps? member.path
    | throw (IO.userError (member.path ++ ": Member name contains '..'"))
  let place := dest.extend steps
  if let some parent := place.parent? then IO.FS.createDirAll parent.text
  let grant (entry : Entry) : IO Unit :=
    match entry.changeMode? Programs.accessChange with
    | some (.dir mode) | some (.file _ mode) => IO.setAccessRights place.text (rights mode)
    | _ => return
  match member.content with
  | .dir =>
    IO.FS.createDirAll place.text
    grant (.dir member.mode)
  | .file bytes =>
    IO.FS.writeBinFile place.text ⟨bytes.toArray⟩
    grant (.file bytes member.mode)
  | .copy target => IO.FS.hardLink (dest.extend (Tar.targetSteps target)).text place.text
  | .link target => throw (IO.userError ("Cannot make a link to " ++ target))
  | .pipe => throw (IO.userError "Cannot make a pipe")

/-- Unpacks an archive into a directory. -/
def unpack (archive dest : Path) : IO Unit := do
  match (← readFile? archive).bind (Tar.decode? archive.text) with
  | some members => members.forM (unpackMember dest)
  | none => throw (IO.userError "Cannot open: no such file, or not an archive")

/-- Shows an event if the style asks for it. -/
def showEvent (style : Option LogStyle) (level : Level) (message : String) : IO Unit :=
  (style.bind (·.line? level message)).forM IO.eprintln

/-- Answers a call of the archive tool. A tree that was unpacked has been granted already. -/
def callTool (style : Option LogStyle) (call : ToolCall) : IO (Except Error Unit) := do
  let (name, arguments) := Programs.commandOf call
  let command := Programs.commandLine name arguments
  showEvent style .debug (Programs.announcement command)
  match call with
  | .grantAccess _ => return .ok ()
  | .extract archive dest =>
    try
      unpack archive dest
      return .ok ()
    catch problem =>
      return .error (.toolFailed command (some 2) (name ++ ": " ++ toString problem))

/-- The answer of this machine to a request. -/
def perform (style : Option LogStyle) : (r : Request) → IO r.Reply
  | .kind path => kind? path
  | .read path => readFile? path
  | .write path bytes => succeeds (IO.FS.writeBinFile path.text ⟨bytes.toArray⟩)
  | .createDirAll path => succeeds (IO.FS.createDirAll path.text)
  | .removeDirAll path => succeeds (remove path)
  | .rename source target => succeeds (IO.FS.rename source.text target.text)
  | .tool call => callTool style call
  | .log level message => showEvent style level message
  | .print line => IO.println line

/-- Carries an action out on this machine. -/
def carryOut {α : Type} (style : Option LogStyle) : Action α → IO (Except Error α)
  | .done value => return .ok value
  | .fail error => return .error error
  | .ask request next => do carryOut style (next (← perform style request))

/-- Carries an invocation out; events are shown from when the configuration is known. -/
def run (invocation : Invocation) (environment : Environment) : IO (Except Error Unit) := do
  let file := invocation.configSource environment
  match ← carryOut none file.load with
  | .error error => return .error error
  | .ok config =>
    carryOut (some (LogStyle.of invocation config))
      (invocation.execute environment (← processId) file config)

end Terminal
end ProcessKit

open ProcessKit in
/-- The entry point of the program. -/
def main (arguments : List String) : IO UInt32 := do
  let environment ← Terminal.environment
  match Arguments.read environment arguments with
  | .error refusal =>
    refusal.output.forM IO.println
    refusal.complaint?.forM fun complaint => IO.eprintln ("error: " ++ complaint)
    return refusal.exitCode.toUInt32
  | .ok invocation =>
    match ← Terminal.run invocation environment with
    | .ok () => return 0
    | .error error =>
      error.report.forM IO.eprintln
      return 1
