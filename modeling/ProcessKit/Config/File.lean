/-
# Where the configuration comes from

The configuration is read from a file that the user names, or else from the user's own file, which
need not exist. Technology caches are kept below the directory of the configuration, or else below
the user's cache directory.
-/

import ProcessKit.Config.Basic
import ProcessKit.Host.Action
import ProcessKit.Host.Environment
import ProcessKit.Toml.Document

namespace ProcessKit

/-- The file of a configuration. -/
structure ConfigFile where
  path : Path
  /-- Whether the user named the file, which must then exist. -/
  named : Bool
  deriving DecidableEq, Repr

namespace ConfigFile

/-- A file that the user named. -/
def ofPath (path : Path) : ConfigFile := { path, named := true }

/-- The user's own file. -/
def default (environment : Environment) : ConfigFile :=
  { path := (environment.baseDir "XDG_CONFIG_HOME" ".config").extend ["vlsitech", "config.toml"]
    named := false }

/-- The configuration in the text of a file. -/
def decode (path : Path) (text : String) : Except Error Config :=
  ((Toml.parse text).bind Config.decode).mapError (.configInvalid path)

/-- Reads the configuration. -/
def load (file : ConfigFile) : Action Config := do
  if ← Action.pathExists file.path then
    let text ← Action.readText file.path ("reading config from " ++ file.path.text)
    Action.ofExcept (decode file.path text)
  else if file.named then .fail (.configNotFound file.path)
  else
    Action.log .debug "Config file not found, using defaults"
    return {}

end ConfigFile

/-- The directory that holds a cache for each technology. -/
def Config.cacheRoot (config : Config) (environment : Environment) : Path :=
  match config.cacheDir with
  | some dir => dir
  | none => (environment.baseDir "XDG_CACHE_HOME" ".cache").join ⟨"vlsitech"⟩

end ProcessKit
