/-
# Libraries read out of JSON

What a value must look like to be read as a library, and how the library that is read agrees with it
(`Library.reads`). Every declared member may be absent, and is absent in the library then; members
that are not declared may hold anything. The records inside a library hold nothing but texts, and
are read by one rule (`reads_textRecord`).

`Library.Agrees` compares a library with a value member by member. The members that name a file are
one family with one name each (`FileField`), and are compared together (`has_file`); those that hold
a record or a list have a lemma of their own. For each it is shown that the field is read into its
part of the library and that the others leave it alone (`RecordKind.Has`), and this is all that goes
into `Library.reads`.
-/

import ProcessKit.Library.Encoding
import ProcessKit.Proofs.Json.Decode

namespace ProcessKit

open Json (IsText IsListOf IsObject IsTextRecord Optionally AgreesText AgreesList Decoder Field
  RecordKind not_isText_null not_isListOf_null not_isTextRecord_null)

/-- **A record of optional texts** is read, and every part that is a field of its own agrees with
the member of that field. -/
theorem reads_textRecord {α : Type} {kind : RecordKind α} {names : List String}
    {R : α → Json → Prop} (hmandatory : kind.mandatory = [])
    (hfields : ∀ f ∈ kind.fields, f.name ∈ names ∧ ∃ set, f = .of f.name (.optional .string) set)
    (hR : ∀ v record, (∀ name (view : α → Option String), name ∈ names →
        kind.Has name (.optional .string) view → view kind.empty = none →
        Json.Agrees AgreesText (view record) v name) → R record v) :
    kind.decoder.Reads (IsTextRecord names) R := by
  have htext := Decoder.reads_string.optional not_isText_null
  refine RecordKind.reads_record (fun v hv => hv.isObject) ?_ (by simp [hmandatory]) ?_
  · intro members hordered hP f hf v hv
    obtain ⟨hname, set, heq⟩ := hfields f hf
    rw [heq]
    exact htext.canRead hordered (hP.text f.name hname) v hv
  · intro members record hordered hP hread
    refine hR _ record fun name view hname h hempty => ?_
    exact h.agrees hordered hread hempty Decoder.reads_string not_isText_null (hP.text name hname)

/-- The declared members of a corner. -/
def Corner.names : List String := ["nmos", "pmos", "temperature"]

/-- The corner holds what the declared members say. -/
structure Corner.Agrees (corner : Corner) (v : Json) : Prop where
  nmos : Json.Agrees AgreesText corner.nmos v "nmos"
  pmos : Json.Agrees AgreesText corner.pmos v "pmos"
  temperature : Json.Agrees AgreesText corner.temperature v "temperature"

/-- **A corner is read** from every record of these texts, and corresponds to it. -/
theorem Corner.reads : kind.decoder.Reads (IsTextRecord names) Agrees := by
  refine reads_textRecord rfl ?_ fun v corner h => ?_
  · simp only [kind, List.forall_mem_cons]
    exact ⟨⟨by simp [names], _, rfl⟩, ⟨by simp [names], _, rfl⟩, ⟨by simp [names], _, rfl⟩, by simp⟩
  · constructor
    · exact h _ nmos (by simp [names]) ⟨⟨_, rfl, fun _ _ => rfl⟩, by simp [kind]⟩ rfl
    · exact h _ pmos (by simp [names]) ⟨⟨_, rfl, fun _ _ => rfl⟩, by simp [kind]⟩ rfl
    · exact h _ temperature (by simp [names]) ⟨⟨_, rfl, fun _ _ => rfl⟩, by simp [kind]⟩ rfl

/-- The declared members of supplies. -/
def Supplies.names : List String := ["GND", "VDD"]

/-- The supplies hold what the declared members say. -/
structure Supplies.Agrees (supplies : Supplies) (v : Json) : Prop where
  vdd : Json.Agrees AgreesText supplies.vdd v "VDD"
  gnd : Json.Agrees AgreesText supplies.gnd v "GND"

/-- **Supplies are read** from every record of these texts, and correspond to it. -/
theorem Supplies.reads : kind.decoder.Reads (IsTextRecord names) Agrees := by
  refine reads_textRecord rfl ?_ fun v supplies h => ?_
  · simp only [kind, List.forall_mem_cons]
    exact ⟨⟨by simp [names], _, rfl⟩, ⟨by simp [names], _, rfl⟩, by simp⟩
  · constructor
    · exact h _ vdd (by simp [names]) ⟨⟨_, rfl, fun _ _ => rfl⟩, by simp [kind]⟩ rfl
    · exact h _ gnd (by simp [names]) ⟨⟨_, rfl, fun _ _ => rfl⟩, by simp [kind]⟩ rfl

/-- The declared members of an item of `provides`. -/
def Provide.names : List String := ["lib_type", "vt"]

/-- The item of `provides` holds what the declared members say. -/
structure Provide.Agrees (provide : Provide) (v : Json) : Prop where
  libType : Json.Agrees AgreesText provide.libType v "lib_type"
  vt : Json.Agrees AgreesText provide.vt v "vt"

/-- **A provided cell is read** from every record of these texts, and corresponds to it. -/
theorem Provide.reads : kind.decoder.Reads (IsTextRecord names) Agrees := by
  refine reads_textRecord rfl ?_ fun v provide h => ?_
  · simp only [kind, List.forall_mem_cons]
    exact ⟨⟨by simp [names], _, rfl⟩, ⟨by simp [names], _, rfl⟩, by simp⟩
  · constructor
    · exact h _ libType (by simp [names]) ⟨⟨_, rfl, fun _ _ => rfl⟩, by simp [kind]⟩ rfl
    · exact h _ vt (by simp [names]) ⟨⟨_, rfl, fun _ _ => rfl⟩, by simp [kind]⟩ rfl

namespace Library

/-- **What a library must look like.** -/
structure Shape (v : Json) : Prop where
  isObject : IsObject v
  name : Optionally IsText v "name"
  corner : Optionally (IsTextRecord Corner.names) v "corner"
  supplies : Optionally (IsTextRecord Supplies.names) v "supplies"
  provides : Optionally (IsListOf (IsTextRecord Provide.names)) v "provides"
  file : ∀ f : FileField, Optionally IsText v f.key
  tluplusFiles : Optionally (IsListOf IsText) v "tluplus_files"

/-- **The library holds what the declared members say,** at every depth. -/
structure Agrees (library : Library) (v : Json) : Prop where
  name : Json.Agrees AgreesText library.name v "name"
  corner : Json.Agrees Corner.Agrees library.corner v "corner"
  supplies : Json.Agrees Supplies.Agrees library.supplies v "supplies"
  provides : Json.Agrees (AgreesList Provide.Agrees) library.provides v "provides"
  file : ∀ f : FileField, Json.Agrees AgreesText (library.file f) v f.key
  tluplusFiles : Json.Agrees (AgreesList AgreesText) library.tluplusFiles v "tluplus_files"

/-! Every part of a library is a field of its own. -/

/-- The name of a library is read from the member of that name, and from no other. -/
theorem has_name : kind.Has "name" (.optional .string) name :=
  ⟨⟨_, rfl, fun _ _ => rfl⟩, by simp [kind, or_imp, forall_and, setFile]⟩

/-- The corner of a library is read from the member of that name, and from no other. -/
theorem has_corner : kind.Has "corner" (.optional Corner.kind.decoder) corner :=
  ⟨⟨_, rfl, fun _ _ => rfl⟩, by simp [kind, or_imp, forall_and, setFile]⟩

/-- The supplies of a library are read from the member of that name, and from no other. -/
theorem has_supplies : kind.Has "supplies" (.optional Supplies.kind.decoder) supplies :=
  ⟨⟨_, rfl, fun _ _ => rfl⟩, by simp [kind, or_imp, forall_and, setFile]⟩

/-- The cells that a library provides are read from the member of that name, and from no other. -/
theorem has_provides : kind.Has "provides" (.optional (.list Provide.kind.decoder)) provides :=
  ⟨⟨_, rfl, fun _ _ => rfl⟩, by simp [kind, or_imp, forall_and, setFile]⟩

/-- The list of files of a library is read from the member of that name, and from no other. -/
theorem has_tluplusFiles : kind.Has "tluplus_files" (.optional (.list .string)) tluplusFiles :=
  ⟨⟨_, rfl, fun _ _ => rfl⟩, by simp [kind, or_imp, forall_and, setFile]⟩

/-- Each single file of a library is read from the member of its key, and from no other. -/
theorem has_file (f : FileField) :
    kind.Has f.key (.optional .string) fun library => library.file f := by
  refine ⟨⟨fun library v => setFile library f v, ?_, fun library x => if_pos rfl⟩, ?_⟩
  · cases f <;> rfl
  · have hother : ∀ g : FileField, g.key ≠ f.key →
        (Field.of g.key (.optional .string) fun library v => setFile library g v).Keeps
          fun library => library.file f := by
      intro g hne
      exact Field.keeps_of fun library x => if_neg fun heq => hne (congrArg _ heq.symm)
    simp only [kind, List.mem_append, List.mem_map]
    rintro g ((hg | ⟨g', -, rfl⟩) | hg) hne
    · revert g
      simp
    · exact hother g' hne
    · revert g
      simp

/-- **A library is read** from every value of its shape, and agrees with it in each of its parts.
The parts that name a file are dealt with together. -/
theorem reads : kind.decoder.Reads Shape Agrees := by
  have htext := Decoder.reads_string
  have hprovides := Provide.reads.list
  have hnull := not_isListOf_null
  refine RecordKind.reads_record (fun v hv => hv.isObject) ?_ (by simp [kind]) ?_
  · intro members hordered hP
    have hfile : ∀ g : FileField, ∀ v, Json.Members.get? members g.key = some v →
        (Field.of g.key (.optional .string) fun library v => setFile library g v).CanRead v :=
      fun g => (htext.optional not_isText_null).canRead hordered (hP.file g)
    simp only [kind, List.forall_mem_append, List.forall_mem_cons, List.forall_mem_map]
    refine ⟨⟨⟨?_, ?_, ?_, ?_, by simp⟩, fun g _ => hfile g⟩, ?_, by simp⟩
    · exact (htext.optional not_isText_null).canRead hordered hP.name
    · exact (Corner.reads.optional (not_isTextRecord_null _)).canRead hordered hP.corner
    · exact (Supplies.reads.optional (not_isTextRecord_null _)).canRead hordered hP.supplies
    · exact (hprovides.optional (hnull _)).canRead hordered hP.provides
    · exact (htext.list.optional (hnull _)).canRead hordered hP.tluplusFiles
  · intro members library hordered hP hread
    constructor
    · exact has_name.agrees hordered hread rfl htext not_isText_null hP.name
    · exact has_corner.agrees hordered hread rfl Corner.reads (not_isTextRecord_null _) hP.corner
    · exact has_supplies.agrees hordered hread rfl Supplies.reads (not_isTextRecord_null _)
        hP.supplies
    · exact has_provides.agrees hordered hread rfl hprovides (hnull _) hP.provides
    · intro f
      exact (has_file f).agrees hordered hread rfl htext not_isText_null (hP.file f)
    · exact has_tluplusFiles.agrees hordered hread rfl htext.list (hnull _) hP.tluplusFiles

/-- No field of a library puts extra prefixes there. -/
theorem extraPrefixes_of_ofValue {library : Library} {v : Json}
    (h : kind.decoder.ofValue v = .ok library) : library.extraPrefixes = [] := by
  refine RecordKind.keeps_ofValue (I := fun library => library.extraPrefixes = []) ?_ rfl h
  have hset {name : String} {β : Type} {decoder : Decoder β} {set : Library → β → Library}
      (hkeeps : ∀ library x, (set library x).extraPrefixes = library.extraPrefixes) :
      (Field.of name decoder set).Preserves fun library => library.extraPrefixes = [] :=
    Field.preserves_of fun library _ x _ hnone => (hkeeps library x).trans hnone
  simp only [kind, List.forall_mem_append, List.forall_mem_cons, List.forall_mem_map]
  refine ⟨⟨⟨hset ?_, hset ?_, hset ?_, hset ?_, by simp⟩, fun f _ => hset ?_⟩, hset ?_, by simp⟩
  all_goals exact fun _ _ => rfl

end Library
end ProcessKit
