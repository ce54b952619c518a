/-
# Reading a command line

A command line is a chain of verbs, each with options after it. The options that all commands share
may stand after any verb, and one that stands after several counts where it stands last. An option
may come from the environment where the command line does not have it. What follows `--` is never an
option.

`Arguments.read` goes through the arguments one by one. The value of an option is looked at only
when the next option or path comes, or when everything after it was read: of two mistakes, that
decides which is reported.
-/

import ProcessKit.Command.Invocation
import ProcessKit.Config.File

namespace ProcessKit

/-- The options. -/
inductive Flag where
  | verbose
  | config
  | techDir
  | tech
  | settings
  | set
  | cacheDir
  | library
  | libraryPrefix
  | format
  | help
  | version
  deriving DecidableEq, Repr

namespace Flag

/-- The long name of an option. -/
def long : Flag → String
  | .verbose => "verbose"
  | .config => "config"
  | .techDir => "tech-dir"
  | .tech => "tech"
  | .settings => "settings"
  | .set => "set"
  | .cacheDir => "cache-dir"
  | .library => "library"
  | .libraryPrefix => "prefix"
  | .format => "format"
  | .help => "help"
  | .version => "version"

/-- The one-letter name of an option. -/
def short? : Flag → Option Char
  | .verbose => some 'v'
  | .config => some 'c'
  | .settings => some 's'
  | .library => some 'l'
  | .format => some 'f'
  | .help => some 'h'
  | .version => some 'V'
  | _ => none

/-- Whether an option takes a value. -/
def takesValue : Flag → Bool
  | .verbose | .help | .version => false
  | _ => true

/-- Whether an option may be given more than once. -/
def repeats : Flag → Bool
  | .verbose | .settings | .set | .libraryPrefix => true
  | _ => false

/-- The options that an environment variable may stand for, with the variable. -/
def standIns : List (Flag × String) :=
  [(.config, "VLSITECH_CONFIG"), (.techDir, "VLSITECH_TECH_DIR"), (.tech, "VLSITECH_TECH"),
    (.cacheDir, "VLSITECH_CACHE_DIR")]

/-- Refuses a value that the option cannot have. -/
def checkValue (flag : Flag) (value : String) : Except Refusal Unit :=
  match flag with
  | .config | .techDir | .settings | .cacheDir =>
    if value = "" then .error .invalidValue else .ok ()
  | .set | .libraryPrefix => (parsePair value).map fun _ => ()
  | .format => if (ListFormat.ofName? value).isSome then .ok () else .error .invalidValue
  | _ => .ok ()

end Flag

/-- A place in the chain of verbs. -/
inductive Verb where
  | tool
  | resolve
  | extract
  | check
  | libraries
  | config
  | configShow
  | configPath
  deriving DecidableEq, Repr

namespace Verb

/-- The name of the command that the chain up to a verb stands for. -/
def commandName : Verb → String
  | .tool => "vlsitech"
  | .resolve => "vlsitech-resolve"
  | .extract => "vlsitech-extract"
  | .check => "vlsitech-check"
  | .libraries => "vlsitech-libraries"
  | .config => "vlsitech-config"
  | .configShow => "vlsitech-config-show"
  | .configPath => "vlsitech-config-path"

/-- The verbs that may follow, by name. -/
def next : Verb → List (String × Verb)
  | .tool => [("resolve", .resolve), ("extract", .extract), ("check", .check),
      ("libraries", .libraries), ("config", .config)]
  | .config => [("show", .configShow), ("path", .configPath)]
  | _ => []

/-- The options that may follow. -/
def flags (verb : Verb) : List Flag :=
  [.verbose, .config, .techDir, .tech, .settings, .set, .cacheDir, .help, .version] ++
    match verb with
    | .resolve => [.library, .libraryPrefix]
    | .libraries => [.format]
    | _ => []

/-- The option of a long name. -/
def longFlag? (verb : Verb) (name : String) : Option Flag := verb.flags.find? (·.long == name)

/-- The option of a one-letter name. -/
def shortFlag? (verb : Verb) (c : Char) : Option Flag := verb.flags.find? (·.short? == some c)

/-- What to say to words after `help`: every one must be a verb that may follow. -/
def help (verb : Verb) : List String → Refusal
  | [] => .help
  | word :: rest =>
    match verb.next.lookup word with
    | some verb => verb.help rest
    | none =>
      if word = "help" ∧ verb.next ≠ [] ∧ rest = [] then .help else .unknownCommand

end Verb

namespace Arguments

/-- What was given after one verb. -/
structure Given where
  verb : Verb
  /-- The options with their values, in order. -/
  options : List (Flag × String) := []
  /-- The last option, with its value if that was read. -/
  pending : Option (Flag × Option String) := none
  paths : List String := []

namespace Given

/-- Whether an option was given. -/
def has (given : Given) (flag : Flag) : Bool := given.options.any (·.1 == flag)

/-- Takes an option in, unless its value cannot be or it was given before. -/
def take (given : Given) (flag : Flag) (value : Option String) : Except Refusal Given :=
  if flag = .help then .error .help
  else if flag = .version then .error (.version given.verb.commandName)
  else if flag.takesValue ∧ value = none then .error .invalidValue
  else if given.has flag ∧ !flag.repeats then .error .repeated
  else do
    flag.checkValue (value.getD "")
    return { given with options := given.options ++ [(flag, value.getD "")] }

/-- Takes the last option in. -/
def settle (given : Given) : Except Refusal Given :=
  match given.pending with
  | none => .ok given
  | some (flag, value) => { given with pending := none }.take flag value

/-- Whether the next argument is the value of the last option. -/
def waits (given : Given) : Bool :=
  match given.pending with
  | some (_, none) => true
  | _ => false

/-- After an option with its value, or one that waits for it. -/
def option (given : Given) (flag : Flag) (value : Option String) : Except Refusal Given := do
  let given ← given.settle
  match value with
  | some value => given.take flag (some value)
  | none => return { given with pending := some (flag, none) }

/-- After an option that takes no value. -/
def switch (given : Given) (flag : Flag) : Except Refusal Given := do
  (← given.settle).take flag none

/-- After an option by its long name. -/
def long (given : Given) (name : String) (value : Option String) : Except Refusal Given :=
  match given.verb.longFlag? name with
  | none => .error .unknownArgument
  | some flag =>
    if flag.takesValue then given.option flag value
    else if value.isSome then .error .unwantedValue
    else given.switch flag

/-- After options by their one-letter names; the rest of the argument is the value of the first one
that takes a value. -/
def cluster (given : Given) : List Char → Except Refusal Given
  | [] => .ok given
  | c :: rest =>
    match given.verb.shortFlag? c with
    | none => .error .unknownArgument
    | some flag =>
      if flag.takesValue then
        given.option flag <|
          match rest with
          | [] => none
          | '=' :: value => some (String.ofList value)
          | value => some (String.ofList value)
      else do (← given.switch flag).cluster rest

/-- After a word that is no option and no verb. -/
def word (given : Given) (word : String) (dashes : Bool) : Except Refusal Given :=
  if given.verb = .resolve then do
    let given ← given.settle
    return { given with paths := given.paths ++ [word] }
  else if given.verb.next = [] then .error .unknownArgument
  else if dashes ∧ ((given.verb.next.lookup word).isSome ∨ word = "help") then
    .error .unknownArgument
  else .error .unknownCommand

/-- The end of what was given after a verb. -/
def finish (environment : Environment) (given : Given) (followed : Bool) :
    Except Refusal Given := do
  let given ← given.settle
  let fromVariables := Flag.standIns.filterMap fun (flag, name) =>
    if given.has flag then none else (environment.get? name).map (flag, ·)
  fromVariables.forM fun (flag, value) => flag.checkValue value
  if followed then return given
  else match given.verb with
    | .tool =>
      if given.options.isEmpty ∧ fromVariables.isEmpty then .error .nothingGiven
      else .error .missingCommand
    | .resolve => if given.paths.isEmpty then .error .missingPaths else return given
    | _ => return given

end Given

/-- Reads the arguments after a verb, and gives what was given after it and after each verb that
follows it. -/
def readFrom (environment : Environment) (given : Given) (dashes : Bool) :
    List String → Except Refusal (List Given)
  | [] => do return [← given.finish environment false]
  | arg :: rest =>
    if dashes then do readFrom environment (← given.word arg true) true rest
    else if !given.waits && given.verb.next != [] && arg == "help" then
      .error (given.verb.help rest)
    else match if given.waits then none else given.verb.next.lookup arg with
      | some verb => do
        let after ← readFrom environment { verb } false rest
        return (← given.finish environment true) :: after
      | none =>
        match arg.toList with
        | ['-', '-'] => readFrom environment given true rest
        | '-' :: '-' :: name => do
          let key := name.takeWhile (· != '=')
          let value := match name.drop key.length with
            | [] => none
            | _ :: value => some (String.ofList value)
          readFrom environment (← given.long (String.ofList key) value) false rest
        | '-' :: c :: cs => do readFrom environment (← given.cluster (c :: cs)) false rest
        | _ =>
          match given.pending with
          | some (flag, none) =>
            readFrom environment { given with pending := some (flag, some arg) } false rest
          | _ => do readFrom environment (← given.word arg false) false rest

/-- The values of an option: those after the last verb that has it, or that of its variable. -/
def values (environment : Environment) (levels : List Given) (flag : Flag) : List String :=
  let given := levels.map fun given => (given.options.filter (·.1 == flag)).map (·.2)
  match (given.filter fun values => !values.isEmpty).getLast? with
  | some values => values
  | none => ((Flag.standIns.lookup flag).bind environment.get?).toList

/-- The pairs that texts stand for. -/
def pairs (texts : List String) : List (String × String) :=
  texts.filterMap fun text => (parsePair text).toOption

/-- The command that a chain of verbs with their options stands for. -/
def command (environment : Environment) (levels : List Given) : Option Command :=
  let values := values environment levels
  levels.getLast?.bind fun given =>
    match given.verb with
    | .tool => none
    | .resolve =>
      some (.resolve given.paths (values .library).head? (pairs (values .libraryPrefix)))
    | .extract => some .extract
    | .check => some .check
    | .libraries =>
      some (.libraries (((values .format).head?.bind ListFormat.ofName?).getD .table))
    | .config => some (.config none)
    | .configShow => some (.config (some .show))
    | .configPath => some (.config (some .path))

/-- The invocation that arguments stand for. -/
def read (environment : Environment) (arguments : List String) : Except Refusal Invocation := do
  let levels ← readFrom environment { verb := .tool } false arguments
  let values := values environment levels
  let path (flag : Flag) : Option Path := (values flag).head?.map Path.mk
  match command environment levels with
  | none => .error .missingCommand
  | some command =>
    return {
      command
      verbosity := min 255 (values .verbose).length
      configFile := path .config
      techDir := path .techDir
      tech := (values .tech).head?
      settingsFiles := (values .settings).map Path.mk
      settings := pairs (values .set)
      cacheDir := path .cacheDir }

end Arguments
end ProcessKit
