/-
# Invocations

An invocation says which command to carry out and on what. A `Refusal` is the reason why a command
line is none: it is malformed, or the user asked for help.
-/

import ProcessKit.Path

namespace ProcessKit

/-- How libraries are listed. -/
inductive ListFormat where
  | table
  | json
  | plain
  deriving DecidableEq, Repr

/-- The name of a format. -/
def ListFormat.name : ListFormat → String
  | .table => "table"
  | .json => "json"
  | .plain => "plain"

/-- The format of a name. -/
def ListFormat.ofName? (name : String) : Option ListFormat :=
  [ListFormat.table, .json, .plain].find? (·.name == name)

/-- What of the configuration is shown. -/
inductive ConfigView where
  | show
  | path
  deriving DecidableEq, Repr

/-- A command with what belongs to it alone. -/
inductive Command where
  | resolve (paths : List String) (library : Option String) (prefixes : List (String × String))
  | extract
  | check
  | libraries (format : ListFormat)
  | config (view : Option ConfigView)
  deriving DecidableEq, Repr

/-- A command with the options that all commands share. -/
structure Invocation where
  command : Command
  /-- How often more detail was asked for, at most 255 times. -/
  verbosity : Nat := 0
  configFile : Option Path := none
  techDir : Option Path := none
  tech : Option String := none
  settingsFiles : List Path := []
  /-- Settings given one by one. -/
  settings : List (String × String) := []
  cacheDir : Option Path := none
  deriving DecidableEq, Repr

/-- Why a command line is not carried out. -/
inductive Refusal where
  /-- Help was asked for. -/
  | help
  /-- The version was asked for, of the tool or of the command of a name. -/
  | version (name : String)
  /-- There is nothing on the command line. -/
  | nothingGiven
  | missingCommand
  | unknownCommand
  | unknownArgument
  /-- A command lacks the paths it works on. -/
  | missingPaths
  /-- A value is missing, empty where a path must stand, or not one of those allowed. -/
  | invalidValue
  /-- A value stands at an option that takes none. -/
  | unwantedValue
  /-- An option that takes one value is given twice. -/
  | repeated
  /-- A value is no pair of a key and a value. -/
  | malformedPair (reason : String)
  deriving DecidableEq, Repr

/-- The exit code of a refusal. -/
def Refusal.exitCode : Refusal → Nat
  | .help | .version _ => 0
  | _ => 2

/-- The version of the tool. -/
def toolVersion : String := "0.3.0"

/-- The lines that answer a refusal that is no mistake. -/
def Refusal.output : Refusal → List String
  | .version name => [name ++ " " ++ toolVersion]
  | .help =>
    ["Usage: vlsitech [OPTIONS] <COMMAND>", "",
      "Commands: resolve, extract, check, libraries, config"]
  | _ => []

/-- What is wrong with a command line; nothing where the refusal is no mistake. -/
def Refusal.complaint? : Refusal → Option String
  | .help | .version _ => none
  | .nothingGiven | .missingCommand => some "a command is required"
  | .unknownCommand => some "there is no such command"
  | .unknownArgument => some "there is an argument that is not expected"
  | .missingPaths => some "a path is required"
  | .invalidValue => some "an option has no value, or one that it cannot have"
  | .unwantedValue => some "a value stands at an option that takes none"
  | .repeated => some "an option that takes one value is given twice"
  | .malformedPair reason => some reason

/-- The pair of a key that is not empty and a value, with the first `=` between them. -/
def parsePair (text : String) : Except Refusal (String × String) :=
  let key := text.toList.takeWhile (· != '=')
  match text.toList.drop key.length with
  | [] =>
    .error (.malformedPair ("invalid KEY=VALUE format: no '=' found in '" ++ text ++ "'"))
  | _ :: value =>
    if key.isEmpty then
      .error (.malformedPair ("invalid KEY=VALUE format: empty key in '" ++ text ++ "'"))
    else .ok (String.ofList key, String.ofList value)

end ProcessKit
