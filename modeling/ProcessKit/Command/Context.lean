/-
# What a command works on

A command works on one technology, with the settings for it and a cache of its own. The settings are
layered, from the bottom: the defaults of the technology, the files of the configuration, the files
on the command line, and the settings given one by one.
-/

import ProcessKit.Command.Invocation
import ProcessKit.Config.File
import ProcessKit.Technology.Loading

namespace ProcessKit

/-- One technology with its settings, and the directory of its cache. -/
structure Context where
  technology : Technology
  settings : Settings
  cacheDir : Path

namespace Context

/-- The name of the technology of a directory: the one given, or that of the directory. -/
def nameOf (dir : Path) (name : Option String) : Except Error String :=
  match name with
  | some name => .ok name
  | none =>
    match dir.fileName? with
    | some name => .ok name
    | none => .error (.pathInvalid dir.text "cannot derive a technology name")

/-- The technology that an invocation selects. -/
def loadTechnology (invocation : Invocation) (config : Config) : Action Technology := do
  match invocation.techDir, invocation.tech with
  | some dir, name =>
    let name ← Action.ofExcept (nameOf dir name)
    match ← Technology.loadFromDir name dir with
    | some technology => return technology
    | none => .fail (.technologyNotFound name dir.text)
  | none, some name => Technology.find name config.searchPaths
  | none, none => .fail (.user "No technology selected. Pass --tech-dir DIR or --tech NAME")

/-- The settings for a technology. -/
def loadSettings (invocation : Invocation) (config : Config) (technology : Technology) :
    Action Settings := do
  let settings ← technology.pushDefaults {}
  let settings ← settings.pushFiles (config.settingsFiles ++ invocation.settingsFiles)
  if invocation.settings.isEmpty then return settings
  else return settings.pushPairs (invocation.settings.map fun (key, value) => (key, .string value))

/-- The directory of the cache of a technology: the one given, or one below the cache root that is
named after the technology. -/
def cacheDirOf (invocation : Invocation) (config : Config) (environment : Environment)
    (name : String) : Path :=
  match invocation.cacheDir with
  | some dir => dir
  | none => (config.cacheRoot environment).join ⟨name⟩

/-- The context of an invocation. -/
def load (invocation : Invocation) (config : Config) (environment : Environment) :
    Action Context := do
  let technology ← loadTechnology invocation config
  let settings ← loadSettings invocation config technology
  Action.log .debug ("Settings assembled from " ++ toString settings.depth ++ " layer(s)")
  return {
    technology
    settings
    cacheDir := cacheDirOf invocation config environment technology.name }

end Context
end ProcessKit
