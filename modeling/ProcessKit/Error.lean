/-
# What can go wrong

Every failure is one of these causes. `Error.message` is its wording, `Error.hint?` what the user
may do about it, and `Error.inDocument` tells whether the technology document or the settings are
at fault rather than the machine.
-/

import ProcessKit.Path

namespace ProcessKit

/-- The causes of failure. -/
inductive Error where
  /-- No source claims the first segment of a path. -/
  | unresolvedPath (path technology : String)
  /-- More than one source claims the first segment of a path. -/
  | ambiguousPath (path technology : String) (sources : List String)
  | pathInvalid (path reason : String)
  | settingNotFound (key technology : String)
  | settingInvalid (key reason : String)
  | cacheDirNotSet (path technology : String)
  /-- A tool failed on a tarball. -/
  | extraction (tarball technology command : String) (code : Option Int) (stderr : String)
  /-- A tool failed, on nothing in particular yet. -/
  | toolFailed (command : String) (code : Option Int) (stderr : String)
  | missingInstall (technology : String)
  | technologyNotFound (name searched : String)
  | schemaInvalid (technology reason : String)
  | libraryInvalid (reason : String)
  | configInvalid (path : Path) (reason : String)
  | configNotFound (path : Path)
  /-- The file system refused something. -/
  | io (context : String)
  /-- A command could not be started. -/
  | commandFailed (command : String)
  | json (reason : String)
  | yaml (reason : String)
  | toml (reason : String)
  | internal (reason : String)
  | user (text : String)
  deriving DecidableEq, Repr, Inhabited

namespace Error

/-- An exit code, or the word for a command ended by a signal. -/
def exitCode (code : Option Int) : String := (code.map toString).getD "signal"

/-- The wording of a failure. -/
def message : Error → String
  | .unresolvedPath path technology =>
    "Path " ++ path ++ " did not match any tarballs, installs or library prefixes in technology " ++
      technology
  | .ambiguousPath path technology sources =>
    "Path " ++ path ++ " matched more than one path source in technology " ++ technology ++ ": " ++
      ", ".intercalate sources
  | .pathInvalid path reason => "Invalid path: " ++ path ++ ": " ++ reason
  | .settingNotFound key technology =>
    "Setting " ++ key ++ " not found (required by technology " ++ technology ++ ")"
  | .settingInvalid key reason => "Invalid setting " ++ key ++ ": " ++ reason
  | .cacheDirNotSet path technology =>
    "Cache directory not set for technology " ++ technology ++ " (needed to resolve " ++ path ++ ")"
  | .extraction tarball technology command code stderr =>
    "Extracting tarball " ++ tarball ++ " for technology " ++ technology ++ " failed: " ++
      command ++ ", exit code: " ++ exitCode code ++ ", stderr: " ++ stderr
  | .toolFailed command code stderr =>
    "Tool failed: " ++ command ++ ", exit code: " ++ exitCode code ++ ", stderr: " ++ stderr
  | .missingInstall technology =>
    "Installs for technology " ++ technology ++ " are missing on disk"
  | .technologyNotFound name searched => "Technology " ++ name ++ " not found in " ++ searched
  | .schemaInvalid technology reason =>
    "Technology " ++ technology ++ " does not match the schema: " ++ reason
  | .libraryInvalid reason => "Invalid library: " ++ reason
  | .configInvalid path reason => "Invalid configuration at " ++ path.text ++ ": " ++ reason
  | .configNotFound path => "Configuration file not found: " ++ path.text
  | .io context => "IO error: " ++ context
  | .commandFailed command => "Command failed: " ++ command
  | .json reason => "JSON error: " ++ reason
  | .yaml reason => "YAML error: " ++ reason
  | .toml reason => "TOML parse error: " ++ reason
  | .internal reason => "Internal error: " ++ reason
  | .user text => text

/-- What the user may do about a failure. -/
def hint? : Error → Option String
  | .ambiguousPath .. => some "Every installs/tarballs path and library prefix must be unique"
  | .settingNotFound .. => some "Provide it with --set KEY=VALUE or a --settings file"
  | .cacheDirNotSet .. => some "Pass --cache-dir or set cache.dir in config"
  | .extraction .. | .toolFailed .. =>
    some "Check that the archive exists and is a readable tarball"
  | .technologyNotFound .. =>
    some "Expected <name>.tech.json or <name>.tech.yml in the technology directory"
  | _ => none

/-- Whether the technology document or the settings it refers to are at fault. -/
def inDocument : Error → Bool
  | .unresolvedPath .. | .ambiguousPath .. | .settingNotFound .. | .settingInvalid ..
  | .schemaInvalid .. | .libraryInvalid _ | .configInvalid .. => true
  | _ => false

end Error
end ProcessKit
