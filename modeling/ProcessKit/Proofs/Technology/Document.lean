/-
# The schema and the document

The schema of technology documents and the records they are read into are two descriptions of one
format. `Document.Shape` spells the format out. The schema accepts exactly the values of this shape
(`accepts_schema`), and every such value is read into a document that agrees with it on each
declared member, at every depth (`Document.reads`). So a technology is refused by the schema or not
at all, and reading it loses nothing that is declared (`ofJson_agrees`).

The shape is written a third time so that neither of the two descriptions is taken for granted.
There is one structure for each kind of record, with the members that it may have and what they must
be, and beside it one that compares a record with the value it was read from. The rules about the
text of a path are in the shape as well, in words rather than as a list of rules
(`holds_tarballPath_iff`): the path of a tarball is the name of an entry of a directory.

Agreement is about the whole of a record. An absent member is an absent part, a list has as many
elements as the value and they agree one by one, and members that the format does not declare are
passed over wherever they stand.
-/

import ProcessKit.Proofs.Json.Schema
import ProcessKit.Proofs.Library.Encoding
import ProcessKit.Proofs.Yaml.Document
import ProcessKit.Technology.Loading

namespace ProcessKit

open Json (IsText IsListOf IsObject IsTextRecord Optionally AgreesText AgreesList Decoder Field
  RecordKind Members not_isText_null not_isListOf_null isObject_of_get? optionally_of_get?)

namespace Install

/-- **What an install must look like.** -/
structure Shape (v : Json) : Prop where
  path : ∃ s, v.get? "path" = some (.string s) ∧ s ≠ ""
  baseVar : ∃ s, v.get? "base_var" = some (.string s)

/-- The install holds what the declared members say. -/
structure Agrees (install : Install) (v : Json) : Prop where
  path : v.get? "path" = some (.string install.path)
  baseVar : v.get? "base_var" = some (.string install.baseVar)

/-- **An install is read** from every value of its shape, and corresponds to it. -/
theorem reads : kind.decoder.Reads Shape Agrees := by
  have htext := Decoder.reads_string
  refine RecordKind.reads_record (fun v hv => ?_) ?_ ?_ ?_
  · obtain ⟨base, hbase⟩ := hv.baseVar
    exact isObject_of_get? hbase
  · rintro members hordered ⟨⟨path, hpath, -⟩, base, hbase⟩
    simp only [kind, List.forall_mem_cons]
    refine ⟨htext.canRead hordered ?_, htext.canRead hordered ?_, by simp⟩
    · exact (optionally_of_get? hpath).2 ⟨path, rfl⟩
    · exact (optionally_of_get? hbase).2 ⟨base, rfl⟩
  · rintro members ⟨⟨path, hpath, -⟩, base, hbase⟩
    have hpath : Members.get? members "path" = some (.string path) := hpath
    have hbase : Members.get? members "base_var" = some (.string base) := hbase
    simp [kind, hpath, hbase]
  · rintro members install hordered ⟨⟨path, hpath, -⟩, base, hbase⟩ hread
    have hasPath : kind.Has "path" .string Install.path :=
      ⟨⟨_, rfl, fun _ _ => rfl⟩, by simp [kind]⟩
    have hasBase : kind.Has "base_var" .string Install.baseVar :=
      ⟨⟨_, rfl, fun _ _ => rfl⟩, by simp [kind]⟩
    constructor
    · rw [hpath, hasPath.holds hordered hread htext hpath ⟨path, rfl⟩]
    · rw [hbase, hasBase.holds hordered hread htext hbase ⟨base, rfl⟩]

end Install

namespace Tarball

/-- **What a tarball must look like.** Its path is the name of an entry, on any system. -/
structure Shape (v : Json) : Prop where
  path : ∃ s, v.get? "path" = some (.string s) ∧
    s ≠ "" ∧ '/' ∉ s.toList ∧ '\\' ∉ s.toList ∧ s ≠ "." ∧ s ≠ ".."
  baseVar : ∃ s, v.get? "base_var" = some (.string s)
  homepage : Optionally IsText v "homepage"

/-- The tarball holds what the declared members say. -/
structure Agrees (tarball : Tarball) (v : Json) : Prop where
  path : v.get? "path" = some (.string tarball.path)
  baseVar : v.get? "base_var" = some (.string tarball.baseVar)
  homepage : Json.Agrees AgreesText tarball.homepage v "homepage"

/-- **A tarball is read** from every value of its shape, and corresponds to it. -/
theorem reads : kind.decoder.Reads Shape Agrees := by
  have htext := Decoder.reads_string
  refine RecordKind.reads_record (fun v hv => ?_) ?_ ?_ ?_
  · obtain ⟨base, hbase⟩ := hv.baseVar
    exact isObject_of_get? hbase
  · rintro members hordered ⟨⟨path, hpath, -⟩, ⟨base, hbase⟩, hhomepage⟩
    simp only [kind, List.forall_mem_cons]
    refine ⟨htext.canRead hordered ?_, htext.canRead hordered ?_, ?_, by simp⟩
    · exact (optionally_of_get? hpath).2 ⟨path, rfl⟩
    · exact (optionally_of_get? hbase).2 ⟨base, rfl⟩
    · exact (htext.optional not_isText_null).canRead hordered hhomepage
  · rintro members ⟨⟨path, hpath, -⟩, ⟨base, hbase⟩, -⟩
    have hpath : Members.get? members "path" = some (.string path) := hpath
    have hbase : Members.get? members "base_var" = some (.string base) := hbase
    simp [kind, hpath, hbase]
  · rintro members tarball hordered ⟨⟨path, hpath, -⟩, ⟨base, hbase⟩, hhomepage⟩ hread
    have hasPath : kind.Has "path" .string Tarball.path :=
      ⟨⟨_, rfl, fun _ _ => rfl⟩, by simp [kind]⟩
    have hasBase : kind.Has "base_var" .string Tarball.baseVar :=
      ⟨⟨_, rfl, fun _ _ => rfl⟩, by simp [kind]⟩
    have hasHomepage : kind.Has "homepage" (.optional .string) Tarball.homepage :=
      ⟨⟨_, rfl, fun _ _ => rfl⟩, by simp [kind]⟩
    constructor
    · rw [hpath, hasPath.holds hordered hread htext hpath ⟨path, rfl⟩]
    · rw [hbase, hasBase.holds hordered hread htext hbase ⟨base, rfl⟩]
    · exact hasHomepage.agrees hordered hread rfl htext not_isText_null hhomepage

end Tarball

namespace Document

/-- **What a document must look like.** Members that are not declared may hold anything. -/
structure Shape (v : Json) : Prop where
  isObject : IsObject v
  name : Optionally IsText v "name"
  gridUnit : Optionally IsText v "grid_unit"
  timeUnit : Optionally IsText v "time_unit"
  installs : Optionally (IsListOf Install.Shape) v "installs"
  tarballs : Optionally (IsListOf Tarball.Shape) v "tarballs"
  libraries : Optionally (IsListOf Library.Shape) v "libraries"
  dontUseList : Optionally (IsListOf IsText) v "dont_use_list"

/-- **The document holds what the declared members say,** at every depth: a member that is absent
stays absent, and an array keeps its items one by one, in order. -/
structure Agrees (document : Document) (v : Json) : Prop where
  name : Json.Agrees AgreesText document.name v "name"
  gridUnit : Json.Agrees AgreesText document.gridUnit v "grid_unit"
  timeUnit : Json.Agrees AgreesText document.timeUnit v "time_unit"
  installs : Json.Agrees (AgreesList Install.Agrees) document.installs v "installs"
  tarballs : Json.Agrees (AgreesList Tarball.Agrees) document.tarballs v "tarballs"
  libraries : Json.Agrees (AgreesList Library.Agrees) document.libraries v "libraries"
  dontUseList : Json.Agrees (AgreesList AgreesText) document.dontUseList v "dont_use_list"

/-- **A document is read** from every value of its shape, and agrees with it at every depth: its
lists are read element by element, each by what was shown of one. -/
theorem reads : kind.decoder.Reads Shape Agrees := by
  have htext := Decoder.reads_string
  have hinstalls := Install.reads.list
  have htarballs := Tarball.reads.list
  have hlibraries := Library.reads.list
  have hnull := not_isListOf_null
  refine RecordKind.reads_record (fun v hv => hv.isObject) ?_ (by simp [kind]) ?_
  · intro members hordered hP
    simp only [kind, List.forall_mem_cons]
    refine ⟨?_, ?_, ?_, ?_, ?_, ?_, ?_, by simp⟩
    · exact (htext.optional not_isText_null).canRead hordered hP.name
    · exact (htext.optional not_isText_null).canRead hordered hP.gridUnit
    · exact (htext.optional not_isText_null).canRead hordered hP.timeUnit
    · exact (hinstalls.optional (hnull _)).canRead hordered hP.installs
    · exact (htarballs.optional (hnull _)).canRead hordered hP.tarballs
    · exact (hlibraries.optional (hnull _)).canRead hordered hP.libraries
    · exact (htext.list.optional (hnull _)).canRead hordered hP.dontUseList
  · intro members document hordered hP hread
    have htexts {n : String} {view : Document → Option String} (hempty : view kind.empty = none)
        (hP : Optionally IsText (.object members) n) (h : kind.Has n (.optional .string) view) :=
      h.agrees hordered hread hempty htext not_isText_null hP
    have hlists {β : Type} {n : String} {P : Json → Prop} {R : β → Json → Prop}
        {decoder : Decoder β} {view : Document → Option (List β)} (hempty : view kind.empty = none)
        (hreads : decoder.Reads P R) (hP : Optionally (IsListOf P) (.object members) n)
        (h : kind.Has n (.optional (.list decoder)) view) :=
      h.agrees hordered hread hempty hreads.list (hnull P) hP
    constructor
    · exact htexts rfl hP.name ⟨⟨_, rfl, fun _ _ => rfl⟩, by simp [kind]⟩
    · exact htexts rfl hP.gridUnit ⟨⟨_, rfl, fun _ _ => rfl⟩, by simp [kind]⟩
    · exact htexts rfl hP.timeUnit ⟨⟨_, rfl, fun _ _ => rfl⟩, by simp [kind]⟩
    · exact hlists rfl Install.reads hP.installs ⟨⟨_, rfl, fun _ _ => rfl⟩, by simp [kind]⟩
    · exact hlists rfl Tarball.reads hP.tarballs ⟨⟨_, rfl, fun _ _ => rfl⟩, by simp [kind]⟩
    · exact hlists rfl Library.reads hP.libraries ⟨⟨_, rfl, fun _ _ => rfl⟩, by simp [kind]⟩
    · exact hlists rfl htext hP.dontUseList ⟨⟨_, rfl, fun _ _ => rfl⟩, by simp [kind]⟩

/-- The schema of a text accepts texts. -/
theorem accepts_textSchema : textSchema.Accepts = IsText := Schema.accepts_text

/-- The schema of a record of texts accepts objects in which these members, as far as they are
there, are texts. -/
theorem accepts_textRecord (names : List String) :
    (textRecord names).Accepts = IsTextRecord names := by
  funext v
  rw [textRecord, Schema.accepts_record_iff, List.forall_mem_map]
  dsimp only
  rw [accepts_textSchema]
  exact propext ⟨fun h => ⟨h.1, h.2.1⟩, fun h => ⟨h.isObject, h.text, by simp⟩⟩

/-- A member that must be there is a text that keeps the rules. -/
theorem accepts_required_iff (rules : List TextRule) (v : Json) (name : String) :
    (Optionally (Schema.text rules).Accepts v name ∧ (v.get? name).isSome) ↔
      ∃ s, v.get? name = some (.string s) ∧ ∀ rule ∈ rules, rule.holds s = true := by
  constructor
  · rintro ⟨h, hsome⟩
    obtain ⟨x, hx⟩ := Option.isSome_iff_exists.1 hsome
    obtain ⟨s, rfl, hrules⟩ := h x hx
    exact ⟨s, hx, hrules⟩
  · rintro ⟨s, hs, hrules⟩
    exact ⟨(optionally_of_get? hs).2 ⟨s, rfl, hrules⟩, by rw [hs]; rfl⟩

/-- **The schema of an install** accepts the shape of one. -/
theorem accepts_installSchema : installSchema.Accepts = Install.Shape := by
  funext v
  have hpath := accepts_required_iff [.notEmpty] v "path"
  have hbase := accepts_required_iff [] v "base_var"
  simp only [List.forall_mem_cons, TextRule.holds, bne_iff_ne, List.not_mem_nil, false_imp_iff,
    implies_true, and_true] at hpath hbase
  rw [installSchema, Schema.accepts_record_iff]
  simp only [List.forall_mem_cons, List.not_mem_nil, false_imp_iff, implies_true, and_true]
  apply propext
  constructor
  · rintro ⟨-, ⟨hb, hp⟩, hp', hb'⟩
    exact ⟨hpath.1 ⟨hp, hp'⟩, hbase.1 ⟨hb, hb'⟩⟩
  · rintro ⟨hp, hb⟩
    obtain ⟨base, hget⟩ := hb
    obtain ⟨hp, hp'⟩ := hpath.2 hp
    obtain ⟨hb, hb'⟩ := hbase.2 ⟨base, hget⟩
    exact ⟨isObject_of_get? hget, ⟨hb, hp⟩, hp', hb'⟩

/-- The rules for the path of a tarball. -/
theorem holds_tarballPath_iff {s : String} :
    (∀ rule ∈ [TextRule.notEmpty, .notOneOf [".", ".."], .charsOutside ['/', '\\']],
      rule.holds s = true) ↔
      s ≠ "" ∧ '/' ∉ s.toList ∧ '\\' ∉ s.toList ∧ s ≠ "." ∧ s ≠ ".." := by
  have hrules : (∀ rule ∈ [TextRule.notEmpty, .notOneOf [".", ".."], .charsOutside ['/', '\\']],
      rule.holds s = true) ↔
      s ≠ "" ∧ (s ≠ "." ∧ s ≠ "..") ∧ s ≠ "" ∧ ∀ c ∈ s.toList, c ≠ '/' ∧ c ≠ '\\' := by
    simp [TextRule.holds]
  have hchars : (∀ c ∈ s.toList, c ≠ '/' ∧ c ≠ '\\') ↔ '/' ∉ s.toList ∧ '\\' ∉ s.toList := by
    constructor
    · exact fun h => ⟨fun hmem => (h _ hmem).1 rfl, fun hmem => (h _ hmem).2 rfl⟩
    · rintro ⟨hslash, hback⟩ c hc
      exact ⟨fun heq => hslash (heq ▸ hc), fun heq => hback (heq ▸ hc)⟩
  rw [hrules, hchars]
  constructor
  · rintro ⟨hne, ⟨hdot, hdots⟩, -, hslash, hback⟩
    exact ⟨hne, hslash, hback, hdot, hdots⟩
  · rintro ⟨hne, hslash, hback, hdot, hdots⟩
    exact ⟨hne, ⟨hdot, hdots⟩, hne, hslash, hback⟩

/-- **The schema of a tarball** accepts the shape of one, with the rules about its path. -/
theorem accepts_tarballSchema : tarballSchema.Accepts = Tarball.Shape := by
  funext v
  have hpath := accepts_required_iff
    [.notEmpty, .notOneOf [".", ".."], .charsOutside ['/', '\\']] v "path"
  have hbase := accepts_required_iff [] v "base_var"
  simp only [holds_tarballPath_iff] at hpath
  simp only [List.not_mem_nil, false_imp_iff, implies_true, and_true] at hbase
  rw [tarballSchema, Schema.accepts_record_iff]
  simp only [List.forall_mem_cons, List.not_mem_nil, false_imp_iff, implies_true, and_true]
  apply propext
  constructor
  · rintro ⟨-, ⟨hb, hhomepage, hp⟩, hp', hb'⟩
    exact ⟨hpath.1 ⟨hp, hp'⟩, hbase.1 ⟨hb, hb'⟩, accepts_textSchema ▸ hhomepage⟩
  · rintro ⟨hp, hb, hhomepage⟩
    obtain ⟨base, hget⟩ := hb
    obtain ⟨hp, hp'⟩ := hpath.2 hp
    obtain ⟨hb, hb'⟩ := hbase.2 ⟨base, hget⟩
    exact ⟨isObject_of_get? hget, ⟨hb, accepts_textSchema ▸ hhomepage, hp⟩, hp', hb'⟩

/-- **The schema of a library** accepts the shape of one. -/
theorem accepts_librarySchema : librarySchema.Accepts = Library.Shape := by
  funext v
  have hcorner : IsTextRecord ["nmos", "pmos", "temperature"] = IsTextRecord Corner.names := rfl
  have hprovides : IsTextRecord ["lib_type", "vt"] = IsTextRecord Provide.names := rfl
  have hsupplies : IsTextRecord ["GND", "VDD"] = IsTextRecord Supplies.names := rfl
  rw [librarySchema, Schema.accepts_record_iff]
  simp only [List.forall_mem_cons, List.not_mem_nil, false_imp_iff, implies_true, and_true,
    Schema.accepts_list, accepts_textSchema, accepts_textRecord, hcorner, hprovides, hsupplies]
  apply propext
  constructor
  · rintro ⟨hobject, hccs, hcorner, hgds, hlef, hdir, htech, hname, hnldm, hprovides, hqrc, hspice,
      hsupplies, htluplus, hsim, hsynth⟩
    refine ⟨hobject, hname, hcorner, hsupplies, hprovides, fun f => ?_, htluplus⟩
    cases f
    all_goals assumption
  · intro h
    exact ⟨h.isObject, h.file .ccsLiberty, h.corner, h.file .gds, h.file .lef,
      h.file .milkywayLibInDir, h.file .milkywayTechfile, h.name, h.file .nldmLiberty, h.provides,
      h.file .qrcTechfile, h.file .spice, h.supplies, h.tluplusFiles, h.file .verilogSim,
      h.file .verilogSynth⟩

/-- **The schema of a document** accepts the shape of one, and nothing else. Put together from the
schemas of its elements. -/
theorem accepts_schema : schema.Accepts = Shape := by
  funext v
  rw [schema, Schema.accepts_record_iff]
  simp only [List.forall_mem_cons, List.not_mem_nil, false_imp_iff, implies_true, and_true,
    Schema.accepts_list, accepts_textSchema, accepts_installSchema, accepts_tarballSchema,
    accepts_librarySchema]
  apply propext
  constructor
  · rintro ⟨hobject, hdont, hgrid, hinstalls, hlibraries, hname, htarballs, htime⟩
    exact ⟨hobject, hname, hgrid, htime, hinstalls, htarballs, hlibraries, hdont⟩
  · intro h
    exact ⟨h.isObject, h.dontUseList, h.gridUnit, h.installs, h.libraries, h.name, h.tarballs,
      h.timeUnit⟩

/-- A document is validated exactly if it has this shape. The name of the technology matters for the
message of a refusal only. -/
theorem validate_eq_ok_iff {technology : String} {v : Json} :
    validate technology v = .ok () ↔ Shape v := by
  rw [← accepts_schema, ← Schema.violationsAt_eq_nil_iff schema [] v]
  unfold validate Schema.violations
  cases schema.violationsAt [] v with
  | nil => simp
  | cons violation violations => simp

end Document

namespace Technology

/-- A value of the right shape makes a technology. -/
theorem ofJson_of_shape (name : String) (dir : Path) {v : Json} (hordered : v.Ordered)
    (hshape : Document.Shape v) :
    ∃ document, Document.kind.decoder.ofValue v = .ok document ∧
      ofJson name dir v = .ok ⟨name, dir, document⟩ ∧ document.Agrees v := by
  obtain ⟨document, hread, hagrees⟩ := Document.reads v hordered hshape
  refine ⟨document, hread, ?_, hagrees⟩
  have hvalid : Document.validate name v = .ok () := Document.validate_eq_ok_iff.2 hshape
  rw [ofJson, hvalid, hread]
  rfl

/-- **The schema and the records describe one format.** The schema accepts a value exactly if it is
of the shape spelled out in `Document.Shape`. Such a value is always read, into a document that
agrees with it on every declared member at every depth; so the only refusal is that of the schema.
Values are `Ordered` by the way they are made; the value of every text, of JSON or YAML, is. -/
theorem ofJson_agrees (name : String) (dir : Path) (v : Json) :
    (Document.validate name v = .ok () ↔ Document.Shape v) ∧
    (∀ text, Json.parse text = .ok v ∨ Yaml.parse text = .ok v → v.Ordered) ∧
    (v.Ordered → Document.validate name v = .ok () →
      ∃ document, Document.kind.decoder.ofValue v = .ok document ∧
        ofJson name dir v = .ok ⟨name, dir, document⟩ ∧ document.Agrees v) ∧
    (v.Ordered → ∀ error, ofJson name dir v = .error error →
      Document.validate name v = .error error) := by
  refine ⟨Document.validate_eq_ok_iff, ?_, fun hordered hvalid => ?_, fun hordered error h => ?_⟩
  · rintro text (hjson | hyaml)
    · exact Json.ordered_parse hjson
    · exact Yaml.ordered_parse hyaml
  · exact ofJson_of_shape name dir hordered (Document.validate_eq_ok_iff.1 hvalid)
  · cases hvalid : Document.validate name v with
    | ok =>
        obtain ⟨document, -, hok, -⟩ :=
          ofJson_of_shape name dir hordered (Document.validate_eq_ok_iff.1 hvalid)
        exact absurd (h.symm.trans hok) (by simp)
    | error refusal =>
        rw [ofJson, hvalid] at h
        exact congrArg Except.error (Except.error.inj h)

/-- A document with a tarball, no libraries though the member is there, no installs at all, and a
member of its own. -/
def oneTarball : Json :=
  .object [("libraries", .array []), ("maturity", .null), ("name", .string "tech"),
    ("tarballs", .array [.object [("base_var", .string ""), ("path", .string "io.tar.gz")]])]

/-- The document is read, and what is absent is told from what is empty. -/
theorem oneTarball_agrees :
    Document.validate "tech" oneTarball = .ok () ∧
    ∃ document, ofJson "tech" ⟨"/tech"⟩ oneTarball = .ok ⟨"tech", ⟨"/tech"⟩, document⟩ ∧
      document.libraries = some [] ∧ document.installs = none ∧ document.name = some "tech" ∧
      document.tarballs.map (·.map (·.path)) = some ["io.tar.gz"] := by
  have hvalid : Document.validate "tech" oneTarball = .ok () :=
    eq_ok_of_toOption (by decide +kernel)
  have hordered : oneTarball.Ordered := by
    refine ⟨?_, trivial, trivial, trivial, ⟨⟨?_, trivial, trivial, trivial⟩, trivial⟩, trivial⟩
    · unfold Members.Sorted
      decide +kernel
    · unfold Members.Sorted
      decide +kernel
  obtain ⟨document, -, hok, hagrees⟩ :=
    (ofJson_agrees "tech" ⟨"/tech"⟩ oneTarball).2.2.1 hordered hvalid
  obtain ⟨libraries, hlibraries, hnil⟩ := hagrees.libraries.eq_some (x := .array []) rfl
  obtain ⟨text, hname, htext⟩ := hagrees.name.eq_some (x := .string "tech") rfl
  obtain ⟨tarballs, htarballs, hitems⟩ := hagrees.tarballs.eq_some (x := .array [_]) rfl
  refine ⟨hvalid, document, hok, ?_, hagrees.installs.eq_none rfl, ?_, ?_⟩
  · rw [hlibraries, List.forall₂_nil_right_iff.1 (Json.agreesList_array.1 hnil)]
  · rw [hname, (Json.string.inj htext).symm]
  · obtain ⟨tarball, rest, htarball, hrest, rfl⟩ :=
      List.forall₂_cons_right_iff.1 (Json.agreesList_array.1 hitems)
    rw [htarballs, List.forall₂_nil_right_iff.1 hrest]
    have hpath : some (Json.string "io.tar.gz") = some (.string tarball.path) := htarball.path
    rw [Option.map_some, List.map_singleton, Json.string.inj (Option.some.inj hpath)]

end Technology
end ProcessKit
