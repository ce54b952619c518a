/-
# The configuration of the tool

`Config.decode` reads a configuration from a TOML document, and `Config.render` writes one. A
section that is absent, or a key that is absent in a section, keeps its default; sections and keys
that the tool does not know are passed over. A section may also be an array with the value of its
key.
-/

import ProcessKit.Path
import ProcessKit.Toml.Printer

namespace ProcessKit

/-- The configuration. -/
structure Config where
  /-- The form of log lines: `json`, or anything else for plain text. -/
  logFormat : String := "text"
  /-- The directory that holds a cache for each technology. -/
  cacheDir : Option Path := none
  /-- Settings files for every technology, the last one deciding. -/
  settingsFiles : List Path := []
  /-- Directories with a directory for each technology. -/
  searchPaths : List Path := []
  deriving DecidableEq, Repr

namespace Config

open Toml (Value)

/-- The message for a value in the place of another kind of value. -/
def mismatch {α : Type} (expected : String) : Except String α :=
  .error ("invalid type, expected " ++ expected)

/-- The value of the key of a section, if the section and the key are there. A date-time is a
section without known keys. -/
def setting? (members : List (String × Value)) (header key : String) :
    Except String (Option Value) :=
  match members.lookup header with
  | none => .ok none
  | some (.table members) => .ok (members.lookup key)
  | some (.array items) => .ok items.head?
  | some (.dateTime _) => .ok none
  | some _ => mismatch "a table"

/-- A string. -/
def decodeText : Value → Except String String
  | .string s => .ok s
  | _ => mismatch "a string"

/-- An array of paths. -/
def decodePaths : Value → Except String (List Path)
  | .array items => items.mapM fun v => (decodeText v).map Path.mk
  | _ => mismatch "a sequence"

/-- A setting, or its default where it is absent. -/
def orDefault {α : Type} (default : α) (decode : Value → Except String α) :
    Option Value → Except String α
  | some v => decode v
  | none => .ok default

/-- The configuration in a TOML document. -/
def decode (members : List (String × Value)) : Except String Config := do
  let logFormat ← setting? members "general" "log_format"
  let cacheDir ← setting? members "cache" "dir"
  let settingsFiles ← setting? members "settings" "files"
  let searchPaths ← setting? members "technology" "search_paths"
  return {
    logFormat := ← orDefault "text" decodeText logFormat
    cacheDir := ← orDefault none (fun v => (decodeText v).map fun s => some ⟨s⟩) cacheDir
    settingsFiles := ← orDefault [] decodePaths settingsFiles
    searchPaths := ← orDefault [] decodePaths searchPaths }

/-- The configuration as TOML text. -/
def render (config : Config) : String :=
  let paths (ps : List Path) : String := Toml.Printer.array (ps.map Path.text)
  "\n".intercalate [
    Toml.Printer.table "general" [
      Toml.Printer.assignment "log_format" (Toml.Printer.string config.logFormat)],
    Toml.Printer.table "cache" (config.cacheDir.toList.map fun dir =>
      Toml.Printer.assignment "dir" (Toml.Printer.string dir.text)),
    Toml.Printer.table "settings" [
      Toml.Printer.assignment "files" (paths config.settingsFiles)],
    Toml.Printer.table "technology" [
      Toml.Printer.assignment "search_paths" (paths config.searchPaths)]]

end Config
end ProcessKit
