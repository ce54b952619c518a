/-
# Libraries written and read again

What is written of a library gives the library back, whether it is read as it is written or with the
members of its objects in the order of their names (`parse_toJson`), as they are in a text that is
read. `Decoder.Gives` says that a value is read as something in both forms. A whole library is read
when each of its parts is (`Told.ofMembers`), whatever the order of the members. Extra prefixes are
not written, and no library that has been read has any.

`Members.Tell` is what the members of an object say about one part: the member of its name is read
as the value of the part, or there is no such member and the part is absent. A part that is absent
is not written, so this is what holds of the members of a library (`told_members`), and it does not
depend on their order as long as no name is there twice. That the two forms of a value are read
alike is then one fact about lists of members, used once for the library and once for each record
inside it.
-/

import ProcessKit.Proofs.Json.Printer
import ProcessKit.Proofs.Library.Encoding

namespace ProcessKit

open Json (Decoder RecordKind Members optionalMember)

namespace Json

/-- The decoder reads `x` of the value, with the members of its objects as they are and in the order
of their names. -/
structure Decoder.Gives {α : Type} (decoder : Decoder α) (v : Json) (x : α) : Prop where
  asWritten : decoder.ofValue v = .ok x
  arranged : decoder.ofValue v.arranged = .ok x

namespace Decoder

variable {α : Type} {decoder : Decoder α}

/-- A text written as such is read back. -/
theorem gives_string (s : String) : string.Gives (.string s) s := ⟨rfl, rfl⟩

/-- A value that is written comes back as one that is there. It must not be null, which stands for
one that is not. -/
theorem Gives.optional {v : Json} {x : α} (h : decoder.Gives v x) (hnull : v ≠ .null) :
    decoder.optional.Gives v (some x) := by
  obtain ⟨hwritten, harranged⟩ := h
  cases v with
  | null => exact absurd rfl hnull
  | _ => exact ⟨congrArg (Except.map some) hwritten, congrArg (Except.map some) harranged⟩

/-- A list is written and read item by item. -/
theorem Gives.list {encode : α → Json} (h : ∀ x, decoder.Gives (encode x) x) (xs : List α) :
    decoder.list.Gives (.array (xs.map encode)) xs := by
  constructor
  · refine mapM_eq_ok_iff.2 (List.forall₂_map_left_iff.2 (List.forall₂_same.2 fun x _ => ?_))
    exact (h x).asWritten
  · rw [Json.arranged, arrangedItems_eq, List.map_map]
    refine mapM_eq_ok_iff.2 (List.forall₂_map_left_iff.2 (List.forall₂_same.2 fun x _ => ?_))
    exact (h x).arranged

end Decoder

namespace Members

variable {α β : Type} {members : Members} {name : String} {decoder : Decoder α} {x : Option α}

/-- What the members tell of a field: what is read of its member, and nothing without one. -/
def Tell (members : Members) (name : String) (decoder : Decoder α) (x : Option α) : Prop :=
  match members.get? name with
  | some v => decoder.optional.ofValue v = .ok x
  | none => x = none

/-- What tells of a field can be read by it. -/
theorem Tell.canRead {set : β → Option α → β} (h : members.Tell name decoder x) (v : Json)
    (hv : members.get? name = some v) : (Field.of name decoder.optional set).CanRead v := by
  rw [Tell, hv] at h
  exact fun record => ⟨set record x, Field.ofValue_of_eq_ok_iff.2 ⟨x, h, rfl⟩⟩

/-- A field that is read of the members is what they tell of it. -/
theorem Tell.eq {kind : RecordKind β} {record : β} {view : β → Option α}
    (h : members.Tell name decoder x) (hhas : kind.Has name decoder.optional view)
    (hdistinct : members.Distinct) (hread : kind.ofMembers members = .ok record)
    (hempty : view kind.empty = none) : view record = x := by
  have hvalue := hhas.ofMembers hdistinct hread
  rw [Tell] at h
  cases hget : members.get? name with
  | none =>
      rw [hget] at h hvalue
      exact hvalue.trans (hempty.trans h.symm)
  | some v =>
      rw [hget] at h hvalue
      exact Except.ok.inj (hvalue.symm.trans h)

/-- **What is written of a field, the members tell of it,** as they are and arranged. -/
theorem tell_of_gives {encode : α → Json} (hget : members.get? name = x.map encode)
    (hgives : ∀ y, decoder.Gives (encode y) y) (hnull : ∀ y, encode y ≠ .null)
    (hdistinct : members.Distinct) :
    members.Tell name decoder x ∧
      (ofList (arrangedMembers members)).Tell name decoder x := by
  rw [Tell, Tell, get?_ofList_arrangedMembers hdistinct, hget]
  cases x with
  | none => exact ⟨rfl, rfl⟩
  | some y =>
      have hy := (hgives y).optional (hnull y)
      exact ⟨hy.asWritten, hy.arranged⟩

/-- In members behind other members a name leads to the first ones that have it. -/
theorem get?_append (members others : Members) (name : String) :
    get? (members ++ others) name = (get? members name).or (get? others name) := by
  rw [get?, List.find?_append, get?, get?]
  cases members.find? (·.1 == name) <;> rfl

/-- A member that may be left out has its own name and no other. -/
theorem get?_optionalMember (n : String) (v : Option Json) (name : String) :
    get? (optionalMember n v) name = if n = name then v else none := by
  cases v with
  | none => simp [optionalMember]
  | some v => simp [optionalMember]

end Members

/-- An optional member has no other name. -/
theorem names_optionalMember (name : String) (v : Option Json) :
    ((optionalMember name v).map (·.1)).Sublist [name] := by
  cases v with
  | none => exact List.nil_sublist [name]
  | some v => exact List.Sublist.refl [name]

end Json

/-- **A corner comes back** from what is written of it. -/
theorem Corner.gives_toJson (corner : Corner) : kind.decoder.Gives corner.toJson corner := by
  obtain ⟨nmos, pmos, temperature⟩ := corner
  cases nmos <;> cases pmos <;> cases temperature <;> exact ⟨rfl, rfl⟩

/-- **Supplies come back** from what is written of them. -/
theorem Supplies.gives_toJson (supplies : Supplies) :
    kind.decoder.Gives supplies.toJson supplies := by
  obtain ⟨vdd, gnd⟩ := supplies
  cases vdd <;> cases gnd <;> exact ⟨rfl, rfl⟩

/-- **A provided cell comes back** from what is written of it. -/
theorem Provide.gives_toJson (provide : Provide) : kind.decoder.Gives provide.toJson provide := by
  obtain ⟨libType, vt⟩ := provide
  cases libType <;> cases vt <;> exact ⟨rfl, rfl⟩

namespace Library

/-- **What the members tell of a library.** -/
structure Told (library : Library) (members : Members) : Prop where
  name : members.Tell "name" .string library.name
  corner : members.Tell "corner" Corner.kind.decoder library.corner
  supplies : members.Tell "supplies" Supplies.kind.decoder library.supplies
  provides : members.Tell "provides" (.list Provide.kind.decoder) library.provides
  file : ∀ f : FileField, members.Tell f.key .string (library.file f)
  tluplusFiles : members.Tell "tluplus_files" (.list .string) library.tluplusFiles

/-- **A library is read** when members tell of it, whatever order they are in. Each part of the
record is what its member says, and so the record is the library. -/
theorem Told.ofMembers {library : Library} {members : Members} (h : library.Told members)
    (hdistinct : members.Distinct) :
    kind.ofMembers members = .ok (library.setExtraPrefixes []) := by
  obtain ⟨read, hread⟩ : ∃ read, kind.ofMembers members = .ok read := by
    refine RecordKind.exists_ofMembers hdistinct ?_ (by simp [kind])
    simp only [kind, List.forall_mem_append, List.forall_mem_cons, List.forall_mem_map]
    exact ⟨⟨⟨h.name.canRead, h.corner.canRead, h.supplies.canRead, h.provides.canRead, by simp⟩,
      fun f _ => (h.file f).canRead⟩, h.tluplusFiles.canRead, by simp⟩
  have hname : read.name = library.name := h.name.eq has_name hdistinct hread rfl
  have hcorner : read.corner = library.corner := h.corner.eq has_corner hdistinct hread rfl
  have hsupplies : read.supplies = library.supplies :=
    h.supplies.eq has_supplies hdistinct hread rfl
  have hprovides : read.provides = library.provides :=
    h.provides.eq has_provides hdistinct hread rfl
  have hfile : read.file = library.file := by
    funext f
    have hf := (h.file f).eq (has_file f) hdistinct hread rfl
    exact hf
  have htluplusFiles : read.tluplusFiles = library.tluplusFiles :=
    h.tluplusFiles.eq has_tluplusFiles hdistinct hread rfl
  have hprefixes : read.extraPrefixes = [] := by
    have hvalue : kind.decoder.ofValue (.object members) = .ok read := hread
    exact extraPrefixes_of_ofValue hvalue
  rw [hread]
  obtain ⟨name, corner, supplies, provides, file, tluplusFiles, extraPrefixes⟩ := read
  subst hname hcorner hsupplies hprovides hfile htluplusFiles hprefixes
  rfl

variable (library : Library)

/-- The names of all fields, in the order of the document. -/
def names : List String :=
  ["name"] ++ ["corner"] ++ ["supplies"] ++ ["provides"] ++ FileField.all.map FileField.key ++
    ["tluplus_files"]

/-- No name is written twice. -/
theorem distinct_members : Members.Distinct library.members := by
  have hfiles (fs : List FileField) :
      ((fs.flatMap fun f => optionalMember f.key ((library.file f).map .string)).map (·.1)).Sublist
        (fs.map FileField.key) := by
    induction fs with
    | nil => exact List.nil_sublist []
    | cons f fs ih =>
        rw [List.flatMap_cons, List.map_append]
        exact (Json.names_optionalMember _ _).append ih
  have hnames : (library.members.map (·.1)).Sublist names := by
    simp only [members, List.map_append]
    exact (((((Json.names_optionalMember _ _).append (Json.names_optionalMember _ _)).append
      (Json.names_optionalMember _ _)).append (Json.names_optionalMember _ _)).append
      (hfiles _)).append (Json.names_optionalMember _ _)
  have hnodup : names.Nodup := by decide
  exact hnodup.sublist hnames

/-- What is written under each name. -/
theorem get?_members :
    Members.get? library.members "name" = library.name.map .string ∧
    Members.get? library.members "corner" = library.corner.map Corner.toJson ∧
    Members.get? library.members "supplies" = library.supplies.map Supplies.toJson ∧
    Members.get? library.members "provides" =
      library.provides.map (fun ps => .array (ps.map Provide.toJson)) ∧
    (∀ f : FileField,
      Members.get? library.members f.key = (library.file f).map .string) ∧
    Members.get? library.members "tluplus_files" =
      library.tluplusFiles.map (fun files => .array (files.map .string)) := by
  simp only [members, FileField.all, List.flatMap_cons, List.flatMap_nil, Json.Members.get?_append,
    Json.Members.get?_optionalMember, FileField.key]
  refine ⟨by simp, by simp, by simp, by simp, fun f => ?_, by simp⟩
  cases f <;> simp

/-- **The members of a library tell of it,** as they are written and once they are put into order.
Parts that are absent are not written, and have no member then. -/
theorem told_members : library.Told library.members ∧
    library.Told (Members.ofList (Json.arrangedMembers library.members)) := by
  have hdistinct := library.distinct_members
  obtain ⟨hname, hcorner, hsupplies, hprovides, hfile, htluplusFiles⟩ := library.get?_members
  have name := Json.Members.tell_of_gives hname Decoder.gives_string (by simp) hdistinct
  have corner := Json.Members.tell_of_gives hcorner Corner.gives_toJson
    (by simp [Corner.toJson]) hdistinct
  have supplies := Json.Members.tell_of_gives hsupplies Supplies.gives_toJson
    (by simp [Supplies.toJson]) hdistinct
  have provides := Json.Members.tell_of_gives hprovides (Decoder.Gives.list Provide.gives_toJson)
    (by simp) hdistinct
  have file := fun f => Json.Members.tell_of_gives (hfile f) Decoder.gives_string (by simp)
    hdistinct
  have tluplusFiles := Json.Members.tell_of_gives htluplusFiles
    (Decoder.Gives.list Decoder.gives_string) (by simp) hdistinct
  exact ⟨⟨name.1, corner.1, supplies.1, provides.1, fun f => (file f).1, tluplusFiles.1⟩,
    ⟨name.2, corner.2, supplies.2, provides.2, fun f => (file f).2, tluplusFiles.2⟩⟩

/-- **What is written of a library gives it back,** without its extra prefixes. They belong to a
command line and not to a document. -/
theorem parse_toJson : parse library.toJson = .ok (library.setExtraPrefixes []) ∧
    parse library.toJson.arranged = .ok (library.setExtraPrefixes []) := by
  have hdistinct := library.distinct_members
  obtain ⟨hwritten, harranged⟩ := library.told_members
  constructor
  · rw [toJson, parse, hwritten.ofMembers hdistinct]
  · have hsorted : Members.Sorted (Members.ofList (Json.arrangedMembers library.members)) :=
      Json.Members.sorted_ofList _
    rw [toJson, Json.arranged, Json.ofMembers, parse, harranged.ofMembers hsorted.distinct]

/-- A text fits at any depth, and so does null. -/
theorem fits_ofString? (depth : Nat) (s : Option String) : (Json.ofString? s).Fits depth := by
  cases s <;> trivial

/-- A member that may be left out fits where the value does. -/
theorem fits_optionalMember {name : String} {depth : Nat} {α : Type} {encode : α → Json}
    (h : ∀ x, (encode x).Fits depth) (x : Option α) :
    ∀ member ∈ optionalMember name (x.map encode), member.2.Fits depth := by
  cases x with
  | none => simp [optionalMember]
  | some x => simpa [optionalMember] using h x

/-- A library nests three levels at most. -/
theorem fits_toJson {depth : Nat} (hdepth : 3 < depth) : library.toJson.Fits depth := by
  have htext (s : String) : (Json.string s).Fits (depth - 1) := trivial
  have hcorner (corner : Corner) : corner.toJson.Fits (depth - 1) :=
    ⟨by omega, fits_ofString? .., fits_ofString? .., fits_ofString? .., trivial⟩
  have hsupplies (supplies : Supplies) : supplies.toJson.Fits (depth - 1) :=
    ⟨by omega, fits_ofString? .., fits_ofString? .., trivial⟩
  have hprovides (provides : List Provide) :
      (Json.array (provides.map Provide.toJson)).Fits (depth - 1) := by
    refine ⟨by omega, Json.allFit_iff.2 (List.forall_mem_map.2 fun provide _ => ?_)⟩
    exact ⟨by omega, fits_ofString? .., fits_ofString? .., trivial⟩
  have hfiles (files : List String) : (Json.array (files.map .string)).Fits (depth - 1) :=
    ⟨by omega, Json.allFit_iff.2 (List.forall_mem_map.2 fun _ _ => trivial)⟩
  refine ⟨by omega, Json.membersFit_iff.2 ?_⟩
  simp only [members, List.forall_mem_append, List.forall_mem_flatMap]
  exact ⟨⟨⟨⟨⟨fits_optionalMember htext _, fits_optionalMember hcorner _⟩,
    fits_optionalMember hsupplies _⟩, fits_optionalMember hprovides _⟩,
    fun _ _ => fits_optionalMember htext _⟩, fits_optionalMember hfiles _⟩

variable {library}

/-- A library without additional prefixes is the same when it is given none. -/
theorem setExtraPrefixes_nil (h : library.extraPrefixes = []) :
    library.setExtraPrefixes [] = library := by
  rw [← h]
  rfl

/-- A library that is read out of an object has no extra prefixes. -/
theorem extraPrefixes_of_parse {v : Json} (h : parse v = .ok library) :
    library.extraPrefixes = [] := by
  cases v with
  | object members =>
      rw [parse] at h
      cases hread : kind.ofMembers members with
      | error reason =>
          rw [hread] at h
          exact absurd h (by simp)
      | ok read =>
          rw [hread] at h
          obtain rfl := Except.ok.inj h
          have hvalue : kind.decoder.ofValue (.object members) = .ok read := hread
          exact extraPrefixes_of_ofValue hvalue
  | _ => exact absurd h (by simp [parse])

/-- **What is read is written in full,** so that it can be read again. Nothing that was read has
extra prefixes to be lost. -/
theorem parse_toJson_of_parse {v : Json} (h : parse v = .ok library) :
    parse library.toJson = .ok library ∧ parse library.toJson.arranged = .ok library := by
  have hagain := library.parse_toJson
  rwa [setExtraPrefixes_nil (extraPrefixes_of_parse h)] at hagain

end Library
end ProcessKit
