/-
# Technology documents

A technology document declares where the files of its libraries come from, pre-installed directories
and tarballs, and the libraries themselves. A field that the document leaves out stays absent, which
is not the same as an empty list.
-/

import ProcessKit.Library.Encoding

namespace ProcessKit

open Json (RecordKind optionalMember orNull)

/-- A pre-installed directory, named by the first segment of the paths below it. An empty settings
key means the technology's own directory. -/
structure Install where
  path : String
  baseVar : String
  deriving DecidableEq, Repr, Inhabited

/-- An archive, named by the first segment of the paths below it; the settings key names the
directory that holds it. -/
structure Tarball where
  path : String
  baseVar : String
  homepage : Option String := none
  deriving DecidableEq, Repr, Inhabited

/-- A technology document. -/
structure Document where
  name : Option String := none
  gridUnit : Option String := none
  timeUnit : Option String := none
  installs : Option (List Install) := none
  tarballs : Option (List Tarball) := none
  libraries : Option (List Library) := none
  dontUseList : Option (List String) := none

namespace Install

/-- The fields of an install. -/
def kind : RecordKind Install where
  title := "Install"
  fields := [
    .of "path" .string fun install v => { install with path := v },
    .of "base_var" .string fun install v => { install with baseVar := v }]
  required := 2
  mandatory := ["path", "base_var"]
  empty := ⟨"", ""⟩

/-- An install as JSON. -/
def toJson (install : Install) : Json :=
  .object [("path", .string install.path), ("base_var", .string install.baseVar)]

end Install

namespace Tarball

/-- The fields of a tarball. -/
def kind : RecordKind Tarball where
  title := "Tarball"
  fields := [
    .of "path" .string fun tarball v => { tarball with path := v },
    .of "base_var" .string fun tarball v => { tarball with baseVar := v },
    .of "homepage" (.optional .string) fun tarball v => { tarball with homepage := v }]
  required := 2
  mandatory := ["path", "base_var"]
  empty := ⟨"", "", none⟩

/-- A tarball as JSON. -/
def toJson (tarball : Tarball) : Json :=
  .object ([("path", .string tarball.path), ("base_var", .string tarball.baseVar)] ++
    optionalMember "homepage" (tarball.homepage.map .string))

end Tarball

namespace Document

/-- The fields of a document. -/
def kind : RecordKind Document where
  title := "TechJson"
  fields := [
    .of "name" (.optional .string) fun document v => { document with name := v },
    .of "grid_unit" (.optional .string) fun document v => { document with gridUnit := v },
    .of "time_unit" (.optional .string) fun document v => { document with timeUnit := v },
    .of "installs" (.optional (.list Install.kind.decoder)) fun document v =>
      { document with installs := v },
    .of "tarballs" (.optional (.list Tarball.kind.decoder)) fun document v =>
      { document with tarballs := v },
    .of "libraries" (.optional (.list Library.kind.decoder)) fun document v =>
      { document with libraries := v },
    .of "dont_use_list" (.optional (.list .string)) fun document v =>
      { document with dontUseList := v }]
  required := 7
  empty := {}

/-- A document as JSON, null standing for an absent field. -/
def toJson (document : Document) : Json :=
  .object [
    ("name", .ofString? document.name),
    ("grid_unit", .ofString? document.gridUnit),
    ("time_unit", .ofString? document.timeUnit),
    ("installs", orNull (document.installs.map fun l => .array (l.map Install.toJson))),
    ("tarballs", orNull (document.tarballs.map fun l => .array (l.map Tarball.toJson))),
    ("libraries", orNull (document.libraries.map fun l => .array (l.map Library.toJson))),
    ("dont_use_list", orNull (document.dontUseList.map fun l => .array (l.map .string)))]

end Document
end ProcessKit
