/-
# What a run shows

A run shows the printed lines on one stream, and log events and its failure on another. How many
log events it shows depends on the verbosity, and their form on the configuration, so that nothing
is shown of the time before the configuration was read.
-/

import ProcessKit.Command.Execution
import ProcessKit.Host.Machine

namespace ProcessKit

/-- How log events are shown. -/
structure LogStyle where
  verbosity : Nat
  json : Bool
  deriving DecidableEq, Repr

namespace LogStyle

/-- The style that an invocation and the configuration ask for. -/
def of (invocation : Invocation) (config : Config) : LogStyle :=
  { verbosity := invocation.verbosity, json := config.logFormat == "json" }

/-- The least verbosity that shows events of a level. -/
def leastVerbosity : Level → Nat
  | .error => 0
  | .info => 1
  | .debug => 2

/-- The name of a level. -/
def levelName : Level → String
  | .error => "ERROR"
  | .info => "INFO"
  | .debug => "DEBUG"

/-- A character of a plain line: one that could control a terminal is written as its code. -/
def shownChar (c : Char) : List Char :=
  let digits := Nat.toDigits 16 c.toNat
  if c ∈ ['\x07', '\x08', '\x0c', '\x1b', '\x7f'] then
    ['\\', 'x'] ++ List.replicate (2 - digits.length) '0' ++ digits
  else if '\u0080' ≤ c ∧ c ≤ '\u009f' then ['\\', 'u', '{'] ++ digits ++ ['}']
  else [c]

/-- The line of an event, if it is shown. -/
def line? (style : LogStyle) (level : Level) (message : String) : Option String :=
  if style.verbosity < leastVerbosity level then none
  else if style.json then
    some (Json.object [("level", .string (levelName level)),
      ("fields", .object [("message", .string message)])]).compact
  else
    let name := levelName level
    let indent := String.ofList (List.replicate (5 - name.length) ' ')
    some (indent ++ name ++ " " ++ String.ofList (message.toList.flatMap shownChar))

end LogStyle

/-- The lines that tell of a failure. -/
def Error.report (error : Error) : List String :=
  ("Error: " ++ error.message) :: (error.hint?.map ("Hint: " ++ ·)).toList

/-- What a run leaves behind: its exit code and the lines of its two streams. -/
structure Outcome where
  exitCode : Nat
  output : List String
  errors : List String
  deriving DecidableEq, Repr

namespace Outcome

/-- The outcome of a finished run whose shown events are known. -/
def ofResult (result : Except Error Unit) (output shown : List String) : Outcome :=
  match result with
  | .ok () => { exitCode := 0, output, errors := shown }
  | .error error => { exitCode := 1, output, errors := shown ++ error.report }

end Outcome

namespace Invocation

/-- Carries out an invocation on a machine. -/
def run (invocation : Invocation) (environment : Environment) (processId : Nat) (tool : Tool)
    (machine : Machine) : Outcome × Machine :=
  let file := invocation.configSource environment
  match file.load.run tool machine with
  | (.error error, machine) => (.ofResult (.error error) [] [], machine)
  | (.ok config, machine) =>
    let (result, machine) :=
      (invocation.execute environment processId file config).run tool
        { machine with log := [], output := [] }
    let style := LogStyle.of invocation config
    let shown := machine.log.filterMap fun (level, message) => style.line? level message
    (.ofResult result machine.output shown, machine)

end Invocation
end ProcessKit
