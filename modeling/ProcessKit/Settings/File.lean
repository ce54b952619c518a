/-
# Settings files

A settings file is read in the notation that its name ends in: `.yml` and `.yaml` for YAML, `.toml`
for TOML, and JSON otherwise. A file that cannot be read or is no table leaves the settings as they
were.
-/

import ProcessKit.Settings.Store
import ProcessKit.Host.Action
import ProcessKit.Json.Reader
import ProcessKit.Toml.Document
import ProcessKit.Yaml.Document

namespace ProcessKit
namespace Settings

/-- The value of a settings document, in the notation that the name of its file tells. -/
def readDocument (path : Path) (text : String) : Except Error Json :=
  let value :=
    match path.suffix? with
    | some "yml" | some "yaml" => Yaml.parse text
    | some "toml" => (Toml.parse text).map fun members => (Toml.Value.table members).toJson
    | _ => Json.parse text
  value.mapError (.configInvalid path)

/-- The settings with a file as a layer on top. -/
def pushFile (settings : Settings) (path : Path) : Action Settings := do
  let text ← Action.readText path ("reading settings from " ++ path.text)
  let settings ← Action.ofExcept ((readDocument path text).bind settings.pushDocument)
  Action.log .debug ("Loaded settings layer from " ++ path.text)
  return settings

/-- The settings with files as layers on top, the last one the newest. -/
def pushFiles (settings : Settings) (paths : List Path) : Action Settings :=
  paths.foldlM pushFile settings

end Settings
end ProcessKit
