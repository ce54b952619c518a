/-
# Carrying out commands

`Context.resolve` prints one line for each path, up to the first that does not resolve.
`Context.extract` makes the files of a technology available, `Context.check` only looks at its
installs. `Context.list` prints the declared libraries. `Invocation.execute` puts them together;
showing the configuration needs no technology.
-/

import ProcessKit.Command.Context
import ProcessKit.Library.Encoding
import ProcessKit.Technology.Availability
import ProcessKit.Technology.Resolution

namespace ProcessKit

namespace Context

/-- Makes the cache of the technology. -/
def createCache (context : Context) (processId : Nat) : Action Cache :=
  Cache.create context.cacheDir processId

/-- Makes the cache if the technology declares a tarball. -/
def createCacheIfNeeded (context : Context) (processId : Nat) : Action (Option Cache) := do
  if context.technology.tarballs.isEmpty then return none
  else return some (← context.createCache processId)

/-- A copy of the library of a name with extra prefixes, or an empty library for the prefixes
alone. -/
def scopedLibrary (context : Context) (name : Option String) (prefixes : List (String × String)) :
    Except Error (Option Library) := do
  let library ← match name with
    | some name =>
      match context.technology.library? name with
      | some library => .ok (some library)
      | none =>
        .error (.user ("Library '" ++ name ++ "' is not declared by technology " ++
          context.technology.name))
    | none => .ok (if prefixes.isEmpty then none else some {})
  return library.map fun library =>
    prefixes.foldl (fun library (name, root) => library.addExtraPrefix ⟨name, ⟨root⟩⟩) library

/-- Prints what each path resolves to. -/
def resolveEach (context : Context) (cache : Option Cache) (library : Option Library) :
    List String → Action Unit
  | [] => return
  | path :: rest => do
    let resolved ← context.technology.resolve context.settings cache library path
    Action.print resolved.text
    context.resolveEach cache library rest

/-- Prints what paths resolve to, in the scope of a library with extra prefixes. -/
def resolve (context : Context) (processId : Nat) (paths : List String) (library : Option String)
    (prefixes : List (String × String)) : Action Unit := do
  let library ← Action.ofExcept (context.scopedLibrary library prefixes)
  let cache ← context.createCacheIfNeeded processId
  context.resolveEach cache library paths

/-- Makes the files of the technology available. -/
def extract (context : Context) (processId : Nat) : Action Unit := do
  let technology := context.technology
  let cache ← context.createCache processId
  if ← technology.makeAvailable context.settings cache then
    Action.print ("[OK] Technology files for " ++ technology.name ++ " are available")
  else if technology.document.installs.isSome then .fail (.missingInstall technology.name)
  else
    .fail (.user ("Technology " ++ technology.name ++ " specified neither tarballs nor installs"))

/-- Checks that the installs of the technology are present. -/
def check (context : Context) : Action Unit := do
  let technology := context.technology
  if ← technology.checkInstalls context.settings then
    Action.print ("[OK] " ++ toString technology.installs.length ++ " install(s) present for " ++
      technology.name)
  else .fail (.missingInstall technology.name)

/-- A text with blanks after it up to a width. -/
def padded (width : Nat) (text : String) : String :=
  text ++ String.ofList (List.replicate (width - text.length) ' ')

/-- A row of the table of libraries. -/
def tableRow (name files first : String) : String :=
  padded 24 name ++ " " ++ padded 10 files ++ " " ++ padded 40 first

/-- The name of a library in a list. -/
def displayName (library : Library) : String := library.name.getD "(unnamed)"

/-- The row of a library: how many files it has, and the first of them. -/
def libraryRow (library : Library) : String :=
  let files := library.fileFields
  tableRow (displayName library) (toString files.length) ((files.head?.map (·.2)).getD "-")

/-- The lines of a list of libraries. -/
def listing (technology : Technology) (format : ListFormat) : List String :=
  let libraries := technology.libraries
  match format with
  | .table =>
    if libraries.isEmpty then ["No libraries declared by " ++ technology.name]
    else
      [tableRow "NAME" "FILES" "FIRST FILE", String.ofList (List.replicate 74 '-')] ++
        libraries.map libraryRow ++ ["", toString libraries.length ++ " library(ies)"]
  | .json => [(Json.array (libraries.map Library.toJson)).pretty]
  | .plain => libraries.map displayName

/-- Prints the declared libraries. -/
def list (context : Context) (format : ListFormat) : Action Unit :=
  (listing context.technology format).forM Action.print

end Context

namespace Invocation

/-- The file of the configuration: the one given, or the user's own. -/
def configSource (invocation : Invocation) (environment : Environment) : ConfigFile :=
  match invocation.configFile with
  | some path => .ofPath path
  | none => .default environment

/-- Carries out the command of an invocation under a configuration that was read from a file. -/
def execute (invocation : Invocation) (environment : Environment) (processId : Nat)
    (file : ConfigFile) (config : Config) : Action Unit := do
  Action.log .debug ("Using config " ++ file.path.text)
  match invocation.command with
  | .config (some .path) => Action.print file.path.text
  | .config _ => Action.print config.render
  | .resolve paths library prefixes =>
    (← Context.load invocation config environment).resolve processId paths library prefixes
  | .extract => (← Context.load invocation config environment).extract processId
  | .check => (← Context.load invocation config environment).check
  | .libraries format => (← Context.load invocation config environment).list format

end Invocation
end ProcessKit
