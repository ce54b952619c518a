/-
# Libraries as JSON

`Library.parse` reads a library out of an object, and `Library.members` writes it with its set
fields in the order of the document. Extra prefixes are never written. A prefix has an encoding of
its own, a record of its name and root in which scalars stand for their text.
-/

import ProcessKit.Library.Basic
import ProcessKit.Json.Decode
import ProcessKit.Error

namespace ProcessKit

open Json (Decoder Field RecordKind optionalMember orNull)

/-- An optional string as JSON. -/
def Json.ofString? (s : Option String) : Json := orNull (s.map .string)

namespace Corner

/-- The fields of a corner. -/
def kind : RecordKind Corner where
  title := "Corner"
  fields := [
    .of "nmos" (.optional .string) fun corner v => { corner with nmos := v },
    .of "pmos" (.optional .string) fun corner v => { corner with pmos := v },
    .of "temperature" (.optional .string) fun corner v => { corner with temperature := v }]
  required := 3
  empty := ⟨none, none, none⟩

/-- A corner as JSON. -/
def toJson (corner : Corner) : Json :=
  .object [("nmos", .ofString? corner.nmos), ("pmos", .ofString? corner.pmos),
    ("temperature", .ofString? corner.temperature)]

end Corner

namespace Supplies

/-- The fields of supplies. -/
def kind : RecordKind Supplies where
  title := "Supplies"
  fields := [
    .of "VDD" (.optional .string) fun supplies v => { supplies with vdd := v },
    .of "GND" (.optional .string) fun supplies v => { supplies with gnd := v }]
  required := 2
  empty := ⟨none, none⟩

/-- Supplies as JSON. -/
def toJson (supplies : Supplies) : Json :=
  .object [("VDD", .ofString? supplies.vdd), ("GND", .ofString? supplies.gnd)]

end Supplies

namespace Provide

/-- The fields of an item of `provides`. -/
def kind : RecordKind Provide where
  title := "Provide"
  fields := [
    .of "lib_type" (.optional .string) fun provide v => { provide with libType := v },
    .of "vt" (.optional .string) fun provide v => { provide with vt := v }]
  required := 2
  empty := ⟨none, none⟩

/-- An item of `provides` as JSON. -/
def toJson (provide : Provide) : Json :=
  .object [("lib_type", .ofString? provide.libType), ("vt", .ofString? provide.vt)]

end Provide

namespace Library

/-- The library with the path of a kind of file. -/
def setFile (library : Library) (f : FileField) (path : Option String) : Library :=
  { library with file := fun g => if g = f then path else library.file g }

/-- The fields of a library. -/
def kind : RecordKind Library where
  title := "Library"
  fields := [
    .of "name" (.optional .string) fun library v => { library with name := v },
    .of "corner" (.optional Corner.kind.decoder) fun library v => { library with corner := v },
    .of "supplies" (.optional Supplies.kind.decoder) fun library v =>
      { library with supplies := v },
    .of "provides" (.optional (.list Provide.kind.decoder)) fun library v =>
      { library with provides := v }] ++
    FileField.all.map (fun f =>
      Field.of f.key (.optional .string) fun library v => setFile library f v) ++
    [.of "tluplus_files" (.optional (.list .string)) fun library v =>
      { library with tluplusFiles := v }]
  required := 0
  empty := {}

/-- The library of a JSON object. -/
def parse (v : Json) : Except Error Library :=
  match v with
  | .object members =>
    match kind.ofMembers members with
    | .ok library => .ok library
    | .error reason => .error (.libraryInvalid reason)
  | _ => .error (.libraryInvalid ("expected an object, got " ++ v.compact))

/-- The set fields of a library, in the order of the document. -/
def members (library : Library) : List (String × Json) :=
  optionalMember "name" (library.name.map .string) ++
  optionalMember "corner" (library.corner.map Corner.toJson) ++
  optionalMember "supplies" (library.supplies.map Supplies.toJson) ++
  optionalMember "provides" (library.provides.map fun ps => .array (ps.map Provide.toJson)) ++
  (FileField.all.flatMap fun f => optionalMember f.key ((library.file f).map .string)) ++
  optionalMember "tluplus_files"
    (library.tluplusFiles.map fun files => .array (files.map .string))

/-- A library as JSON, its fields in the order of the document. -/
def toJson (library : Library) : Json := .object library.members

end Library

namespace LibraryPrefix

/-- A prefix as a settings record. -/
def toSetting (p : LibraryPrefix) : Json :=
  .object [("path", .string p.root.text), ("prefix", .string p.name)]

/-- A field of a settings record, any value but a string standing for its JSON text. -/
def settingField (v : Json) (name : String) : Except Error String :=
  match v.get? name with
  | some (.string s) => .ok s
  | some .null | none => .error (.settingInvalid name "missing from path prefix record")
  | some other => .ok other.compact

/-- The prefix of a settings record. -/
def ofSetting (v : Json) : Except Error LibraryPrefix := do
  let name ← settingField v "prefix"
  let root ← settingField v "path"
  return { name, root := ⟨root⟩ }

/-- Whether two prefixes have the same name and take the same steps. -/
def same (p q : LibraryPrefix) : Bool := p.name == q.name && p.root.same q.root

end LibraryPrefix
end ProcessKit
