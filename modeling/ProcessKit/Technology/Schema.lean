/-
# The schema of technology documents

The fields of every record stand in the order of their names, which is the order in which violations
are reported.
-/

import ProcessKit.Json.Schema
import ProcessKit.Library.Basic
import ProcessKit.Error

namespace ProcessKit
namespace Document

/-- Any text. -/
def textSchema : Schema := .text []

/-- A record of texts, none of which must be there. -/
def textRecord (names : List String) : Schema := .record (names.map (·, textSchema)) []

/-- The schema of an install. -/
def installSchema : Schema :=
  .record [("base_var", textSchema), ("path", .text [.notEmpty])] ["path", "base_var"]

/-- The schema of a tarball, whose path must be the name of an entry in a directory. -/
def tarballSchema : Schema :=
  .record [
    ("base_var", textSchema),
    ("homepage", textSchema),
    ("path", .text [.notEmpty, .notOneOf [".", ".."], .charsOutside ['/', '\\']])]
    ["path", "base_var"]

/-- The schema of a library. -/
def librarySchema : Schema :=
  .record [
    ("ccs_liberty_file", textSchema),
    ("corner", textRecord ["nmos", "pmos", "temperature"]),
    ("gds_file", textSchema),
    ("lef_file", textSchema),
    ("milkyway_lib_in_dir", textSchema),
    ("milkyway_techfile", textSchema),
    ("name", textSchema),
    ("nldm_liberty_file", textSchema),
    ("provides", .list (textRecord ["lib_type", "vt"])),
    ("qrc_techfile", textSchema),
    ("spice_file", textSchema),
    ("supplies", textRecord ["GND", "VDD"]),
    ("tluplus_files", .list textSchema),
    ("verilog_sim", textSchema),
    ("verilog_synth", textSchema)]
    []

/-- The schema of a document. -/
def schema : Schema :=
  .record [
    ("dont_use_list", .list textSchema),
    ("grid_unit", textSchema),
    ("installs", .list installSchema),
    ("libraries", .list librarySchema),
    ("name", textSchema),
    ("tarballs", .list tarballSchema),
    ("time_unit", textSchema)]
    []

/-- Refuses the document of a technology with all violations of the schema in it. -/
def validate (technology : String) (v : Json) : Except Error Unit :=
  match schema.violations v with
  | [] => .ok ()
  | violations =>
    .error (.schemaInvalid technology ("; ".intercalate (violations.map (·.message))))

end Document
end ProcessKit
