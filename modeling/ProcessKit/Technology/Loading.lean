/-
# Loading technologies

The document of a technology `t` is the file `t.tech.json` or else `t.tech.yml` of its directory. A
technology is searched for under its name in a list of directories, and the first one with a
document decides, whatever is wrong with it. Default settings are found beside the document.
-/

import ProcessKit.Settings.File
import ProcessKit.Technology.Basic
import ProcessKit.Technology.Schema

namespace ProcessKit
namespace Technology

/-- The technology of a JSON value. -/
def ofJson (name : String) (dir : Path) (v : Json) : Except Error Technology := do
  Document.validate name v
  let document ← (Document.kind.decoder.ofValue v).mapError (.schemaInvalid name)
  return { name, path := dir, document }

/-- The technology of a JSON value, logged. -/
def load (name : String) (dir : Path) (v : Json) : Action Technology := do
  let technology ← Action.ofExcept (ofJson name dir v)
  Action.log .debug ("Loaded technology " ++ name ++ " from " ++ dir.text)
  return technology

/-- The technology of a JSON text. -/
def loadJson (name : String) (dir : Path) (text : String) : Action Technology := do
  load name dir (← Action.ofExcept ((Json.parse text).mapError .json))

/-- The technology of a YAML text. -/
def loadYaml (name : String) (dir : Path) (text : String) : Action Technology := do
  load name dir (← Action.ofExcept ((Yaml.parse text).mapError .yaml))

/-- The text of a document. -/
def readDocument (path : Path) : Action String :=
  Action.readText path ("reading technology " ++ path.text)

/-- The technology of a directory, if it has a document there. -/
def loadFromDir (name : String) (dir : Path) : Action (Option Technology) := do
  let json := dir.join ⟨name ++ ".tech.json"⟩
  let yaml := dir.join ⟨name ++ ".tech.yml"⟩
  if ← Action.isFile json then
    return some (← loadJson name dir (← readDocument json))
  else if ← Action.isFile yaml then
    return some (← loadYaml name dir (← readDocument yaml))
  else
    Action.log .debug ("No technology document for " ++ name ++ " in " ++ dir.text)
    return none

/-- The first technology of a name below a list of directories, if any has one. -/
def findIn (name : String) : List Path → Action (Option Technology)
  | [] => return none
  | base :: rest => do
    match ← loadFromDir name (base.join ⟨name⟩) with
    | some technology => return some technology
    | none => findIn name rest

/-- Where a technology was searched for, in a message. -/
def searched (name : String) (bases : List Path) : String :=
  if bases.isEmpty then "no search paths"
  else ", ".intercalate (bases.map fun base => (base.join ⟨name⟩).text)

/-- The first technology of a name below a list of directories. -/
def find (name : String) (bases : List Path) : Action Technology := do
  match ← findIn name bases with
  | some technology => return technology
  | none => .fail (.technologyNotFound name (searched name bases))

/-- The names that default settings may have, in the order they are looked for. -/
def defaultsNames : List String := ["defaults.json", "defaults.yml"]

/-- The first of the paths that leads to a file. -/
def firstFile? : List Path → Action (Option Path)
  | [] => return none
  | path :: rest => do
    if ← Action.isFile path then return some path else firstFile? rest

/-- The file of the technology's default settings. -/
def defaultsPath? (technology : Technology) : Action (Option Path) :=
  firstFile? (defaultsNames.map fun name => technology.path.join ⟨name⟩)

/-- The settings with the technology's defaults on top, if it has any. -/
def pushDefaults (technology : Technology) (settings : Settings) : Action Settings := do
  match ← technology.defaultsPath? with
  | some path => settings.pushFile path
  | none => return settings

end Technology
end ProcessKit
