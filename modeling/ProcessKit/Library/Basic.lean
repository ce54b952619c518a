/-
# Libraries

A library is one piece of semiconductor IP: its files, by kind, and the operating conditions it was
characterised for. `Library.fileFields` lists every path it names. Search roots found outside the
technology document are attached as extra prefixes, which are no part of the document.
-/

import ProcessKit.Path

namespace ProcessKit

/-- A name for a directory: a path whose first segment is the name continues below the root. -/
structure LibraryPrefix where
  name : String
  root : Path
  deriving DecidableEq, Repr, Inhabited

/-- The rest of a path below the root of a prefix; with nothing left, the root itself. -/
def LibraryPrefix.prepend (p : LibraryPrefix) (rest : Path) : Path :=
  if rest.text.isEmpty then p.root else p.root.join rest

/-- A process corner. -/
structure Corner where
  nmos : Option String
  pmos : Option String
  temperature : Option String
  deriving DecidableEq, Repr

/-- The supply voltages. -/
structure Supplies where
  vdd : Option String
  gnd : Option String
  deriving DecidableEq, Repr

/-- What a library provides. -/
structure Provide where
  libType : Option String
  vt : Option String
  deriving DecidableEq, Repr

/-- The kinds of file of which a library has at most one. -/
inductive FileField where
  | lef
  | nldmLiberty
  | ccsLiberty
  | gds
  | spice
  | verilogSim
  | verilogSynth
  | milkywayLibInDir
  | milkywayTechfile
  | qrcTechfile
  deriving DecidableEq, Repr

namespace FileField

/-- All kinds, in the order of the document. -/
def all : List FileField :=
  [.lef, .nldmLiberty, .ccsLiberty, .gds, .spice, .verilogSim, .verilogSynth, .milkywayLibInDir,
    .milkywayTechfile, .qrcTechfile]

/-- The name of a kind in the document. -/
def key : FileField → String
  | .lef => "lef_file"
  | .nldmLiberty => "nldm_liberty_file"
  | .ccsLiberty => "ccs_liberty_file"
  | .gds => "gds_file"
  | .spice => "spice_file"
  | .verilogSim => "verilog_sim"
  | .verilogSynth => "verilog_synth"
  | .milkywayLibInDir => "milkyway_lib_in_dir"
  | .milkywayTechfile => "milkyway_techfile"
  | .qrcTechfile => "qrc_techfile"

end FileField

/-- A library. -/
structure Library where
  name : Option String := none
  corner : Option Corner := none
  supplies : Option Supplies := none
  provides : Option (List Provide) := none
  file : FileField → Option String := fun _ => none
  tluplusFiles : Option (List String) := none
  extraPrefixes : List LibraryPrefix := []

namespace Library

/-- Every path the library names, with the kind of file, in the order of the document. -/
def fileFields (library : Library) : List (String × String) :=
  (FileField.all.filterMap fun f => (library.file f).map (f.key, ·)) ++
    (library.tluplusFiles.getD []).map ("tluplus_files", ·)

/-- The library with one more prefix, after those it has. -/
def addExtraPrefix (library : Library) (p : LibraryPrefix) : Library :=
  { library with extraPrefixes := library.extraPrefixes ++ [p] }

/-- The library with these prefixes in the place of those it has. -/
def setExtraPrefixes (library : Library) (ps : List LibraryPrefix) : Library :=
  { library with extraPrefixes := ps }

end Library
end ProcessKit
