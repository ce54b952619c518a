/-
# What is reported of a document

A document that the schema refuses is refused with everything that is wrong with it. `Declared`
lists the places that the format declares and `Demand.Breaks` what a value there can fail in; the
violations of a document are then exactly the rules broken at a declared place, each of them once
(`every_violation_reported`).

Both lists are written without the schema, as a reader of the format would write them: which members
there are, what is asked of each, and which texts are wrong. What ties them to the schema is one
relation, `Asks`, between a schema at a place and a demand. It is shown that every declared place is
reached by the schema, with a schema that asks what is demanded (`Declared.exists_within`), that the
schema reaches no other place (`declaredFor_of_within`), and that the two find the same rules broken
(`Asks.breaks_iff`).

A message ends in the pointer to its place. No declared name has a slash in it
(`Declared.no_slash`), so that two places of one document never look alike in what is reported.
-/

import Mathlib.Tactic.FinCases
import ProcessKit.Proofs.Json.Places
import ProcessKit.Proofs.Technology.Document

namespace ProcessKit
namespace Document

open Json (IsText IsObject IsTextRecord)
open Schema (Rule Violation)

/-- What the format asks of the value at a place. -/
inductive Demand where
  | text
  /-- The path of an install. -/
  | installPath
  /-- The path of a tarball, which is the name of an entry in a directory. -/
  | tarballPath
  | list
  | record (required : List String)

/-- What is asked of a value is a text, of any kind. -/
def Demand.IsOfText (demand : Demand) : Prop :=
  demand = .text ∨ demand = .installPath ∨ demand = .tarballPath

/-- **A rule that a value breaks.** A value of the wrong type breaks that rule alone. A record lacks
each required member for itself. The path of an install must not be empty; that of a tarball must
not be empty, not be one of the two dots, and be made of characters other than slashes, one at
least. -/
inductive Demand.Breaks : Demand → Json → Rule → Prop
  | notText {demand : Demand} {v : Json} (hdemand : demand.IsOfText) (h : ¬ IsText v) :
      Breaks demand v .isText
  | notList {v : Json} (h : ∀ items, v ≠ .array items) : Breaks .list v .isList
  | notRecord {required : List String} {v : Json} (h : ¬ IsObject v) :
      Breaks (.record required) v .isRecord
  | missing {required : List String} {v : Json} {name : String} (hobject : IsObject v)
      (hname : name ∈ required) (h : v.get? name = none) :
      Breaks (.record required) v (.has name)
  | emptyInstallPath : Breaks .installPath (.string "") (.text .notEmpty)
  | emptyTarballPath : Breaks .tarballPath (.string "") (.text .notEmpty)
  | dots {s : String} (h : s = "." ∨ s = "..") :
      Breaks .tarballPath (.string s) (.text (.notOneOf [".", ".."]))
  | pattern {s : String} (h : s = "" ∨ '/' ∈ s.toList ∨ '\\' ∈ s.toList) :
      Breaks .tarballPath (.string s) (.text (.charsOutside ['/', '\\']))

/-- **The places that the format declares,** with what is asked there. -/
inductive Declared : List Step → Demand → Prop
  | document : Declared [] (.record [])
  | ownText {name : String} (hname : name ∈ ["name", "grid_unit", "time_unit"]) :
      Declared [.member name] .text
  | collection {name : String}
      (hname : name ∈ ["installs", "tarballs", "libraries", "dont_use_list"]) :
      Declared [.member name] .list
  | dontUse (i : Nat) : Declared [.member "dont_use_list", .item i] .text
  | install (i : Nat) : Declared [.member "installs", .item i] (.record ["path", "base_var"])
  | installPath (i : Nat) : Declared [.member "installs", .item i, .member "path"] .installPath
  | installBase (i : Nat) : Declared [.member "installs", .item i, .member "base_var"] .text
  | tarball (i : Nat) : Declared [.member "tarballs", .item i] (.record ["path", "base_var"])
  | tarballPath (i : Nat) : Declared [.member "tarballs", .item i, .member "path"] .tarballPath
  | tarballText (i : Nat) {name : String} (hname : name ∈ ["base_var", "homepage"]) :
      Declared [.member "tarballs", .item i, .member name] .text
  | library (i : Nat) : Declared [.member "libraries", .item i] (.record [])
  | libraryText (i : Nat) {name : String} (hname : name ∈ ["name", "lef_file",
      "nldm_liberty_file", "ccs_liberty_file", "gds_file", "spice_file", "verilog_sim",
      "verilog_synth", "milkyway_lib_in_dir", "milkyway_techfile", "qrc_techfile"]) :
      Declared [.member "libraries", .item i, .member name] .text
  | libraryRecord (i : Nat) {name : String} (hname : name ∈ ["corner", "supplies"]) :
      Declared [.member "libraries", .item i, .member name] (.record [])
  | libraryList (i : Nat) {name : String} (hname : name ∈ ["provides", "tluplus_files"]) :
      Declared [.member "libraries", .item i, .member name] .list
  | corner (i : Nat) {name : String} (hname : name ∈ ["nmos", "pmos", "temperature"]) :
      Declared [.member "libraries", .item i, .member "corner", .member name] .text
  | supplies (i : Nat) {name : String} (hname : name ∈ ["VDD", "GND"]) :
      Declared [.member "libraries", .item i, .member "supplies", .member name] .text
  | provide (i j : Nat) :
      Declared [.member "libraries", .item i, .member "provides", .item j] (.record [])
  | provideText (i j : Nat) {name : String} (hname : name ∈ ["lib_type", "vt"]) :
      Declared [.member "libraries", .item i, .member "provides", .item j, .member name] .text
  | tluplusFile (i j : Nat) :
      Declared [.member "libraries", .item i, .member "tluplus_files", .item j] .text

/-- The places of the elements of a document, with what makes an element valid. -/
inductive Element : List Step → (Json → Prop) → Prop
  | install (i : Nat) : Element [.member "installs", .item i] Install.Shape
  | tarball (i : Nat) : Element [.member "tarballs", .item i] Tarball.Shape
  | library (i : Nat) : Element [.member "libraries", .item i] Library.Shape
  | provide (i j : Nat) : Element [.member "libraries", .item i, .member "provides", .item j]
      (IsTextRecord ["lib_type", "vt"])
  | tluplusFile (i j : Nat) :
      Element [.member "libraries", .item i, .member "tluplus_files", .item j] IsText
  | dontUse (i : Nat) : Element [.member "dont_use_list", .item i] IsText

/-- The schema of a place is the one of a demand. -/
inductive Asks : Schema → Demand → Prop
  | text : Asks (.text []) .text
  | installPath : Asks (.text [.notEmpty]) .installPath
  | tarballPath :
      Asks (.text [.notEmpty, .notOneOf [".", ".."], .charsOutside ['/', '\\']]) .tarballPath
  | list (item : Schema) : Asks (.list item) .list
  | record (fields : List (String × Schema)) (required : List String) :
      Asks (.record fields required) (.record required)

/-- The rule that a text is not empty is broken by the empty text only. -/
theorem holds_notEmpty_eq_false_iff {s : String} : TextRule.notEmpty.holds s = false ↔ s = "" := by
  simp [TextRule.holds]

/-- The rule about dots is broken by the two names that stand for directories themselves. -/
theorem holds_dots_eq_false_iff {s : String} :
    (TextRule.notOneOf [".", ".."]).holds s = false ↔ s = "." ∨ s = ".." := by
  simp [TextRule.holds, or_iff_not_imp_left]

/-- The rule about slashes is broken by a text with a slash of either kind, and by the empty text,
in which there is no character at all. -/
theorem holds_slashes_eq_false_iff {s : String} :
    (TextRule.charsOutside ['/', '\\']).holds s = false ↔
      s = "" ∨ '/' ∈ s.toList ∨ '\\' ∈ s.toList := by
  have hchars : (s.toList.all fun c => !(['/', '\\'].contains c)) = false ↔
      '/' ∈ s.toList ∨ '\\' ∈ s.toList := by
    rw [List.all_eq_false]
    constructor
    · rintro ⟨c, hc, h⟩
      obtain rfl | rfl : c = '/' ∨ c = '\\' := by simpa [or_iff_not_imp_left] using h
      · exact .inl hc
      · exact .inr hc
    · rintro (h | h)
      · exact ⟨_, h, by decide⟩
      · exact ⟨_, h, by decide⟩
  rw [TextRule.holds, Bool.and_eq_false_iff, hchars]
  simp

/-- What the schema of a text asks for is a text, whatever its rules are. -/
theorem Asks.isOfText {rules : List TextRule} {demand : Demand} (h : Asks (.text rules) demand) :
    demand.IsOfText := by
  cases h with
  | text => exact .inl rfl
  | installPath => exact .inr (.inl rfl)
  | tarballPath => exact .inr (.inr rfl)

/-- A text that breaks a rule of its schema breaks the same rule of the demand. There is one rule
for the path of an install, there are three for that of a tarball, and none for other texts. -/
theorem Asks.breaks_of_holds_eq_false {rules : List TextRule} {demand : Demand}
    (h : Asks (.text rules) demand) {rule : TextRule} {s : String} (hrule : rule ∈ rules)
    (hholds : rule.holds s = false) : demand.Breaks (.string s) (.text rule) := by
  cases h with
  | text => exact absurd hrule List.not_mem_nil
  | installPath =>
      obtain rfl := List.mem_singleton.1 hrule
      obtain rfl := holds_notEmpty_eq_false_iff.1 hholds
      exact .emptyInstallPath
  | tarballPath =>
      fin_cases hrule
      · obtain rfl := holds_notEmpty_eq_false_iff.1 hholds
        exact .emptyTarballPath
      · exact .dots (holds_dots_eq_false_iff.1 hholds)
      · exact .pattern (holds_slashes_eq_false_iff.1 hholds)

/-- What breaks a schema breaks its demand: a wrong type, a missing member or a rule about texts is
the same to both. -/
theorem Asks.breaks_demand {schema : Schema} {demand : Demand} (h : Asks schema demand) {v : Json}
    {rule : Rule} (hbreaks : schema.Breaks v rule) : demand.Breaks v rule := by
  cases hbreaks with
  | notText hnot => exact .notText h.isOfText hnot
  | text hrule hholds => exact h.breaks_of_holds_eq_false hrule hholds
  | notList hnot =>
      cases h
      exact .notList hnot
  | notRecord hnot =>
      cases h
      exact .notRecord hnot
  | missing hname hnone =>
      cases h
      exact .missing ⟨_, rfl⟩ hname hnone

/-- What breaks a demand breaks the schema that it is the demand of. -/
theorem Asks.breaks_schema {schema : Schema} {demand : Demand} (h : Asks schema demand) {v : Json}
    {rule : Rule} (hbreaks : demand.Breaks v rule) : schema.Breaks v rule := by
  cases hbreaks with
  | notText hdemand hnot =>
      -- three demands are of a text, and each has its own schema
      obtain rfl | rfl | rfl := hdemand
      all_goals
        cases h
        exact .notText hnot
  | notList hnot =>
      cases h
      exact .notList hnot
  | notRecord hnot =>
      cases h
      exact .notRecord hnot
  | missing hobject hname hnone =>
      obtain ⟨members, rfl⟩ := hobject
      cases h
      exact .missing hname hnone
  | emptyInstallPath =>
      cases h
      exact .text (by simp) (by decide)
  | emptyTarballPath =>
      cases h
      exact .text (by simp) (by decide)
  | dots hdots =>
      cases h
      exact .text (by simp) (holds_dots_eq_false_iff.2 hdots)
  | pattern hchars =>
      cases h
      exact .text (by simp) (holds_slashes_eq_false_iff.2 hchars)

/-- **A schema and its demand** find the same rules broken. So the list that the program makes with
the schema can be told from the format alone. -/
theorem Asks.breaks_iff {schema : Schema} {demand : Demand} (h : Asks schema demand) {v : Json}
    {rule : Rule} : schema.Breaks v rule ↔ demand.Breaks v rule :=
  ⟨h.breaks_demand, h.breaks_schema⟩

/-- The schema reaches every declared place. -/
theorem Declared.exists_within {place : List Step} {demand : Demand} (h : Declared place demand) :
    ∃ target, schema.within? place = some target ∧ Asks target demand := by
  cases h with
  | document | install _ | tarball _ | library _ | provide _ _ => exact ⟨_, rfl, .record _ _⟩
  | installBase _ | dontUse _ | tluplusFile _ _ => exact ⟨_, rfl, .text⟩
  | installPath i => exact ⟨_, rfl, .installPath⟩
  | tarballPath i => exact ⟨_, rfl, .tarballPath⟩
  | ownText hname | tarballText _ hname | libraryText _ hname | corner _ hname | supplies _ hname
  | provideText _ _ hname =>
      fin_cases hname
      all_goals exact ⟨_, rfl, .text⟩
  | collection hname | libraryList _ hname =>
      fin_cases hname
      all_goals exact ⟨_, rfl, .list _⟩
  | libraryRecord _ hname =>
      fin_cases hname
      all_goals exact ⟨_, rfl, .record _ _⟩

/-- The place is declared with the demand of a schema. -/
def DeclaredFor (place : List Step) (target : Schema) : Prop :=
  ∃ demand, Asks target demand ∧ Declared place demand

section Reached

variable {place : List Step} {target : Schema}

/-- Below a record of texts there is one text for each of its names, and nothing below these. -/
theorem within?_textRecord_cases {names : List String}
    (h : (textRecord names).within? place = some target) :
    (place = [] ∧ target = textRecord names) ∨
      ∃ name ∈ names, place = [.member name] ∧ target = .text [] := by
  obtain h | ⟨member, hmember, rest, rfl, hrest⟩ := Schema.within?_record_cases h
  · exact .inl h
  · obtain ⟨name, hname, rfl⟩ := List.mem_map.1 hmember
    obtain ⟨rfl, rfl⟩ := Schema.within?_text_cases hrest
    exact .inr ⟨name, hname, rfl, rfl⟩

/-- Whatever schema is found in that of an install is declared for the place there. -/
theorem declaredFor_install (i : Nat) (h : installSchema.within? place = some target) :
    DeclaredFor (.member "installs" :: .item i :: place) target := by
  obtain ⟨rfl, rfl⟩ | ⟨member, hmember, rest, rfl, hrest⟩ := Schema.within?_record_cases h
  · exact ⟨_, .record _ _, .install i⟩
  fin_cases hmember
  all_goals obtain ⟨rfl, rfl⟩ := Schema.within?_text_cases hrest
  · exact ⟨_, .text, .installBase i⟩
  · exact ⟨_, .installPath, .installPath i⟩

/-- Whatever schema is found in that of a tarball is declared for the place there. -/
theorem declaredFor_tarball (i : Nat) (h : tarballSchema.within? place = some target) :
    DeclaredFor (.member "tarballs" :: .item i :: place) target := by
  obtain ⟨rfl, rfl⟩ | ⟨member, hmember, rest, rfl, hrest⟩ := Schema.within?_record_cases h
  · exact ⟨_, .record _ _, .tarball i⟩
  fin_cases hmember
  all_goals obtain ⟨rfl, rfl⟩ := Schema.within?_text_cases hrest
  · exact ⟨_, .text, .tarballText i (by simp)⟩
  · exact ⟨_, .text, .tarballText i (by simp)⟩
  · exact ⟨_, .tarballPath, .tarballPath i⟩

/-- Whatever schema is found in that of the cells that a library provides is declared for the place
there. -/
theorem declaredFor_provides (i : Nat)
    (h : (Schema.list (textRecord ["lib_type", "vt"])).within? place = some target) :
    DeclaredFor (.member "libraries" :: .item i :: .member "provides" :: place) target := by
  obtain ⟨rfl, rfl⟩ | ⟨j, rest, rfl, hrest⟩ := Schema.within?_list_cases h
  · exact ⟨_, .list _, .libraryList i (by simp)⟩
  obtain ⟨rfl, rfl⟩ | ⟨name, hname, rfl, rfl⟩ := within?_textRecord_cases hrest
  · exact ⟨_, .record _ _, .provide i j⟩
  · exact ⟨_, .text, .provideText i j hname⟩

/-- Whatever schema is found in that of the list of files of a library is declared for the place
there. -/
theorem declaredFor_tluplusFiles (i : Nat)
    (h : (Schema.list textSchema).within? place = some target) :
    DeclaredFor (.member "libraries" :: .item i :: .member "tluplus_files" :: place) target := by
  obtain ⟨rfl, rfl⟩ | ⟨j, rest, rfl, hrest⟩ := Schema.within?_list_cases h
  · exact ⟨_, .list _, .libraryList i (by simp)⟩
  obtain ⟨rfl, rfl⟩ := Schema.within?_text_cases hrest
  exact ⟨_, .text, .tluplusFile i j⟩

/-- Whatever schema is found in that of a library is declared for the place there: its own members
first, and then what is in these. -/
theorem declaredFor_library (i : Nat) (h : librarySchema.within? place = some target) :
    DeclaredFor (.member "libraries" :: .item i :: place) target := by
  obtain ⟨rfl, rfl⟩ | ⟨member, hmember, rest, rfl, hrest⟩ := Schema.within?_record_cases h
  · exact ⟨_, .record _ _, .library i⟩
  have htext {name : String} (hname : name ∈ ["name", "lef_file", "nldm_liberty_file",
      "ccs_liberty_file", "gds_file", "spice_file", "verilog_sim", "verilog_synth",
      "milkyway_lib_in_dir", "milkyway_techfile", "qrc_techfile"])
      (hrest : textSchema.within? rest = some target) :
      DeclaredFor (.member "libraries" :: .item i :: .member name :: rest) target := by
    obtain ⟨rfl, rfl⟩ := Schema.within?_text_cases hrest
    exact ⟨_, .text, .libraryText i hname⟩
  fin_cases hmember
  · exact htext (by simp) hrest
  · obtain ⟨rfl, rfl⟩ | ⟨name, hname, rfl, rfl⟩ := within?_textRecord_cases hrest
    · exact ⟨_, .record _ _, .libraryRecord i (by simp)⟩
    · exact ⟨_, .text, .corner i hname⟩
  · exact htext (by simp) hrest
  · exact htext (by simp) hrest
  · exact htext (by simp) hrest
  · exact htext (by simp) hrest
  · exact htext (by simp) hrest
  · exact htext (by simp) hrest
  · exact declaredFor_provides i hrest
  · exact htext (by simp) hrest
  · exact htext (by simp) hrest
  · obtain ⟨rfl, rfl⟩ | ⟨name, hname, rfl, rfl⟩ := within?_textRecord_cases hrest
    · exact ⟨_, .record _ _, .libraryRecord i (by simp)⟩
    · exact ⟨_, .text, .supplies i (by simpa [or_comm] using hname)⟩
  · exact declaredFor_tluplusFiles i hrest
  · exact htext (by simp) hrest
  · exact htext (by simp) hrest

/-- **Every place the schema reaches** is declared. Each member of the document is gone through, and
for a list the schema of its items. -/
theorem declaredFor_of_within (h : schema.within? place = some target) :
    DeclaredFor place target := by
  obtain ⟨rfl, rfl⟩ | ⟨member, hmember, rest, rfl, hrest⟩ := Schema.within?_record_cases h
  · exact ⟨_, .record _ _, .document⟩
  have htext {name : String} (hname : name ∈ ["name", "grid_unit", "time_unit"])
      (hrest : textSchema.within? rest = some target) :
      DeclaredFor (.member name :: rest) target := by
    obtain ⟨rfl, rfl⟩ := Schema.within?_text_cases hrest
    exact ⟨_, .text, .ownText hname⟩
  have hlist {name : String} {item : Schema}
      (hname : name ∈ ["installs", "tarballs", "libraries", "dont_use_list"])
      (hrest : (Schema.list item).within? rest = some target)
      (hitem : ∀ i rest, item.within? rest = some target →
        DeclaredFor (.member name :: .item i :: rest) target) :
      DeclaredFor (.member name :: rest) target := by
    obtain ⟨rfl, rfl⟩ | ⟨i, rest, rfl, hrest⟩ := Schema.within?_list_cases hrest
    · exact ⟨_, .list _, .collection hname⟩
    · exact hitem i rest hrest
  fin_cases hmember
  · refine hlist (by simp) hrest fun i rest hrest => ?_
    obtain ⟨rfl, rfl⟩ := Schema.within?_text_cases hrest
    exact ⟨_, .text, .dontUse i⟩
  · exact htext (by simp) hrest
  · exact hlist (by simp) hrest fun i rest hrest => declaredFor_install i hrest
  · exact hlist (by simp) hrest fun i rest hrest => declaredFor_library i hrest
  · exact htext (by simp) hrest
  · exact hlist (by simp) hrest fun i rest hrest => declaredFor_tarball i hrest
  · exact htext (by simp) hrest

end Reached

/-- A record of texts has different names when it is given different names. -/
theorem distinct_textRecord {names : List String} (h : names.Nodup) :
    (textRecord names).Distinct := by
  have hfields : Schema.DistinctFields (names.map (·, textSchema)) := by
    clear h
    induction names with
    | nil => trivial
    | cons name names ih => exact ⟨List.nodup_nil, ih⟩
  refine ⟨?_, List.nodup_nil, hfields⟩
  rw [List.map_map]
  exact (List.map_id names).symm ▸ h

/-- Nothing stands twice in the schema. -/
theorem distinct_schema : schema.Distinct := by
  have htext : textSchema.Distinct := List.nodup_nil
  have hinstall : installSchema.Distinct :=
    ⟨by decide, by decide, htext, List.nodup_singleton _, trivial⟩
  have hpath : [TextRule.notEmpty, .notOneOf [".", ".."], .charsOutside ['/', '\\']].Nodup := by
    decide
  have htarball : tarballSchema.Distinct :=
    ⟨by decide, by decide, htext, htext, hpath, trivial⟩
  have hlibrary : librarySchema.Distinct := by
    refine ⟨by decide, List.nodup_nil, htext, distinct_textRecord (by decide), htext, htext, htext,
      htext, htext, htext, distinct_textRecord (by decide), htext, htext,
      distinct_textRecord (by decide), htext, htext, htext, trivial⟩
  exact ⟨by decide, List.nodup_nil, htext, htext, hinstall, hlibrary, htext, htarball, htext,
    trivial⟩

/-- **What is found wrong** is what a declared place breaks: at a place that the document has, with
the value that it has there. -/
theorem mem_violations_iff {document : Json} {violation : Violation} :
    violation ∈ schema.violations document ↔ ∃ demand, Declared violation.place demand ∧
      document.follow? violation.place = some violation.value ∧
      demand.Breaks violation.value violation.rule := by
  rw [Schema.mem_violations_iff distinct_schema]
  constructor
  · rintro ⟨target, htarget, hx, hbreaks⟩
    obtain ⟨demand, hasks, hdeclared⟩ := declaredFor_of_within htarget
    exact ⟨demand, hdeclared, hx, hasks.breaks_iff.1 hbreaks⟩
  · rintro ⟨demand, hdeclared, hx, hbreaks⟩
    obtain ⟨target, htarget, hasks⟩ := hdeclared.exists_within
    exact ⟨target, htarget, hx, hasks.breaks_iff.2 hbreaks⟩

/-- The schema of a document has a place for each of its elements, and accepts there what is valid.
-/
theorem Element.exists_within {place : List Step} {Valid : Json → Prop} (h : Element place Valid) :
    ∃ target, schema.within? place = some target ∧ target.Accepts = Valid := by
  cases h with
  | install i => exact ⟨_, rfl, accepts_installSchema⟩
  | tarball i => exact ⟨_, rfl, accepts_tarballSchema⟩
  | library i => exact ⟨_, rfl, accepts_librarySchema⟩
  | provide i j => exact ⟨_, rfl, accepts_textRecord _⟩
  | tluplusFile i j => exact ⟨_, rfl, accepts_textSchema⟩
  | dontUse i => exact ⟨_, rfl, accepts_textSchema⟩

/-- No step to a declared place is called by a name with a slash in it. -/
theorem Declared.no_slash {place : List Step} {demand : Demand} (h : Declared place demand) :
    ∀ step ∈ place, '/' ∉ step.called := by
  have hitem := Step.slash_not_mem_called_item
  cases h with
  | ownText hname | collection hname | tarballText _ hname | libraryText _ hname
  | libraryRecord _ hname | libraryList _ hname | corner _ hname | supplies _ hname
  | provideText _ _ hname =>
      fin_cases hname
      all_goals simp [hitem, Step.called_member]
  | _ => simp [hitem, Step.called_member]

/-- **A pointer tells the place** among those that are declared. Names and indices are told apart by
the schema, which asks for one or the other. -/
theorem Declared.eq_of_pointer_eq {place other : List Step} {demand otherDemand : Demand}
    (hplace : Declared place demand) (hother : Declared other otherDemand)
    (h : Step.pointer place = Step.pointer other) : place = other := by
  obtain ⟨target, htarget, -⟩ := hplace.exists_within
  obtain ⟨otherTarget, hotherTarget, -⟩ := hother.exists_within
  exact Schema.eq_of_called_eq (by rw [htarget]; rfl) (by rw [hotherTarget]; rfl)
    (Step.called_eq_of_pointer_eq hplace.no_slash hother.no_slash h)

/-- **Every violation is reported, once, and nothing else.** For every document:

* the document is refused exactly if something is found, with the messages of all that is found;
* a place and a rule are found together once if the rule is broken by the value at that place, a
  place that the format declares, and otherwise not at all;
* of a value of the wrong type nothing else is found, at its place or below it;
* a message ends with the place, written so that it is told from every other place;
* an element of a list is named, or something inside it, exactly if it is not valid, whatever else
  is in the document. -/
theorem every_violation_reported (technology : String) (document : Json) :
    let found := schema.violations document
    (validate technology document =
      if found.isEmpty then .ok ()
      else .error (.schemaInvalid technology ("; ".intercalate (found.map (·.message))))) ∧
    (found.map Violation.key).Nodup ∧
    (∀ violation, violation ∈ found ↔ ∃ demand, Declared violation.place demand ∧
      document.follow? violation.place = some violation.value ∧
      demand.Breaks violation.value violation.rule) ∧
    (∀ violation ∈ found, violation.rule.IsOfType → ∀ other ∈ found,
      violation.place <+: other.place → other = violation) ∧
    (∀ violation ∈ found,
      (∃ reason, violation.message = reason ++ " at '" ++ Step.pointer violation.place ++ "'") ∧
      ∀ other ∈ found, Step.pointer violation.place = Step.pointer other.place →
        violation.place = other.place) ∧
    ∀ place Valid x, Element place Valid → document.follow? place = some x →
      ((∃ violation ∈ found, place <+: violation.place) ↔ ¬ Valid x) := by
  dsimp only
  refine ⟨?_, Schema.nodup_violationsAt schema distinct_schema [] document,
    fun violation => mem_violations_iff, fun violation hmem htype other hother =>
      Schema.eq_of_wrong_type distinct_schema hmem htype hother, fun violation hmem =>
      ⟨⟨_, rfl⟩, fun other hother => ?_⟩, fun place Valid x helement hx => ?_⟩
  · rw [validate]
    cases schema.violations document with
    | nil => rfl
    | cons violation rest => rfl
  · obtain ⟨demand, hdeclared, -⟩ := mem_violations_iff.1 hmem
    obtain ⟨otherDemand, hotherDeclared, -⟩ := mem_violations_iff.1 hother
    exact hdeclared.eq_of_pointer_eq hotherDeclared
  · obtain ⟨target, htarget, rfl⟩ := helement.exists_within
    exact Schema.exists_violation_below_iff distinct_schema htarget hx

/-- A document with a list that is a text, an install without a base, tarballs with two bad paths,
and a library with a bad corner, a bad item among what it provides and one among its files. -/
def defective : Json :=
  .object [
    ("dont_use_list", .string "x"),
    ("installs", .array [
      .object [("base_var", .string ""), ("path", .string "stdcell")],
      .object [("path", .string "io")]]),
    ("libraries", .array [.object [
      ("corner", .array []),
      ("provides", .array [.object [], .bool true]),
      ("tluplus_files", .array [.string "max", .null])]]),
    ("tarballs", .array [
      .object [("base_var", .null), ("path", .string "..")],
      .object [("base_var", .string ""), ("path", .string "")]])]

/-- Each defect is found where it is, those of one text one by one, and what is valid beside it is
not named. -/
theorem defective_reported :
    let found := schema.violations defective
    (∃ reason, validate "tech" defective = .error (.schemaInvalid "tech" reason)) ∧
    ⟨[.member "installs", .item 1], .object [("path", .string "io")], .has "base_var"⟩ ∈ found ∧
    ⟨[.member "tarballs", .item 0, .member "base_var"], .null, .isText⟩ ∈ found ∧
    ⟨[.member "tarballs", .item 0, .member "path"], .string "..",
      .text (.notOneOf [".", ".."])⟩ ∈ found ∧
    ⟨[.member "tarballs", .item 1, .member "path"], .string "", .text .notEmpty⟩ ∈ found ∧
    ⟨[.member "tarballs", .item 1, .member "path"], .string "",
      .text (.charsOutside ['/', '\\'])⟩ ∈ found ∧
    (∃ violation ∈ found, [.member "libraries", .item 0, .member "provides", .item 1] <+:
      violation.place) ∧
    ¬ (∃ violation ∈ found, [.member "libraries", .item 0, .member "provides", .item 0] <+:
      violation.place) ∧
    ¬ ∃ violation ∈ found, [.member "installs", .item 0] <+: violation.place := by
  intro found
  obtain ⟨hvalidate, -, hfound, -, -, helements⟩ := every_violation_reported "tech" defective
  have hmissing : ⟨[.member "installs", .item 1], .object [("path", .string "io")],
      .has "base_var"⟩ ∈ found :=
    (hfound _).2 ⟨_, .install 1, rfl, .missing ⟨_, rfl⟩ (by simp) rfl⟩
  refine ⟨⟨_, hvalidate.trans (if_neg ?_)⟩, hmissing, ?_, ?_, ?_, ?_, ?_, ?_, ?_⟩
  · rw [List.isEmpty_iff]
    exact List.ne_nil_of_mem hmissing
  · exact (hfound _).2 ⟨_, .tarballText 0 (by simp), rfl, .notText (.inl rfl) Json.not_isText_null⟩
  · exact (hfound _).2 ⟨_, .tarballPath 0, rfl, .dots (.inr rfl)⟩
  · exact (hfound _).2 ⟨_, .tarballPath 1, rfl, .emptyTarballPath⟩
  · exact (hfound _).2 ⟨_, .tarballPath 1, rfl, .pattern (.inl rfl)⟩
  · refine (helements _ _ (.bool true) (.provide 0 1) rfl).2 fun hvalid => ?_
    obtain ⟨members, hmembers⟩ := hvalid.isObject
    exact absurd hmembers (by simp)
  · refine fun hnamed => (helements _ _ (.object []) (.provide 0 0) rfl).1 hnamed ⟨⟨_, rfl⟩, ?_⟩
    exact fun name _ x hx => absurd hx (by simp [Json.get?])
  · refine fun hnamed => (helements _ _ _ (.install 0) rfl).1 hnamed ⟨?_, ?_⟩
    · exact ⟨"stdcell", rfl, by decide⟩
    · exact ⟨"", rfl⟩

end Document
end ProcessKit
