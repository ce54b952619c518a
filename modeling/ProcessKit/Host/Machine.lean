/-
# A machine as a value

A machine holds a disk and what was done so far: the calls of the archive tool, the log events and
the printed lines, each in order. `Action.run` carries an action out on a machine, given what the
archive tool does.
-/

import ProcessKit.Host.Action

namespace ProcessKit

/-- A machine: its disk, and the record of what actions did on it. -/
structure Machine where
  disk : Disk
  calls : List ToolCall := []
  log : List (Level × String) := []
  output : List String := []

/-- What the archive tool does on a machine at a call. -/
abbrev Tool := ToolCall → Machine → Except Error Unit × Machine

namespace Machine

/-- The machine after a change of its disk that may have been refused. -/
def update (machine : Machine) : Option Disk → Bool × Machine
  | some disk => (true, { machine with disk })
  | none => (false, machine)

/-- The answer of a machine to a request, and the machine after it. -/
def perform (tool : Tool) (machine : Machine) : (r : Request) → r.Reply × Machine
  | .kind path => (machine.disk.kind? path, machine)
  | .read path => (machine.disk.readFile? path, machine)
  | .write path bytes => machine.update (machine.disk.writeFile? path bytes)
  | .createDirAll path =>
    let (made, disk) := machine.disk.createDirAll path
    (made, { machine with disk })
  | .removeDirAll path =>
    let (removed, disk) := machine.disk.removeDirAll path
    (removed, { machine with disk })
  | .rename source target => machine.update (machine.disk.rename? source target)
  | .tool call => tool call { machine with calls := machine.calls ++ [call] }
  | .log level message => ((), { machine with log := machine.log ++ [(level, message)] })
  | .print line => ((), { machine with output := machine.output ++ [line] })

end Machine

/-- Carries an action out on a machine. -/
def Action.run {α : Type} (tool : Tool) : Action α → Machine → Except Error α × Machine
  | .done value, machine => (.ok value, machine)
  | .fail error, machine => (.error error, machine)
  | .ask request next, machine =>
    let (reply, machine) := machine.perform tool request
    (next reply).run tool machine

end ProcessKit
