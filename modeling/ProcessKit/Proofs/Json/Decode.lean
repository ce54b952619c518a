/-
# What decoders read

`Decoder.Reads decoder P R` says that a decoder reads every value with the property `P`, and that
what it reads is related to the value by `R`. Its rules follow the ways that decoders are put
together: strings, optional values, lists, records.

A record is read member by member. It is read when every field that is there can be read and the
mandatory ones are there (`reads_record`). `RecordKind.Has` says that a field is read into one part
of the record and that no other field touches this part; then the part holds what the member of that
name says, or what it held in the empty record (`Has.holds`, `Has.agrees`). What the empty record
has and every field keeps, each record has that is read, from whatever value (`keeps_ofValue`).

So a type that is read from a record needs one fact for each of its parts, and nothing about the
other parts. That members come in some order, that one may be there which no field has, and that a
later one may be read into the same part is dealt with once, in the fold over the members
(`Has.foldlM`). The value is taken to be ordered, so that no name is in it twice.
-/

import ProcessKit.Json.Decode
import ProcessKit.Proofs.Json.Members
import ProcessKit.Proofs.Json.Shape
import ProcessKit.Proofs.Results

namespace ProcessKit
namespace Json

/-- What is read of a member: nothing where it is absent, or else something related to it. -/
def Agrees {α : Type} (R : α → Json → Prop) (read : Option α) (v : Json) (name : String) : Prop :=
  Option.Rel R read (v.get? name)

/-- The text read is the string. -/
def AgreesText (read : String) (v : Json) : Prop := v = .string read

/-- The items read are related to those of an array, one by one and in order. -/
def AgreesList {α : Type} (R : α → Json → Prop) (read : List α) (v : Json) : Prop :=
  ∃ items, v = .array items ∧ List.Forall₂ R read items

/-- Where there is no member of a name, nothing was read of it. -/
theorem Agrees.eq_none {α : Type} {R : α → Json → Prop} {read : Option α} {v : Json}
    {name : String} (h : Agrees R read v name) (hv : v.get? name = none) : read = none := by
  rw [Agrees, hv] at h
  cases h
  rfl

/-- Where there is a member of a name, what was read of it corresponds to it. -/
theorem Agrees.eq_some {α : Type} {R : α → Json → Prop} {read : Option α} {v x : Json}
    {name : String} (h : Agrees R read v name) (hv : v.get? name = some x) :
    ∃ y, read = some y ∧ R y x := by
  rw [Agrees, hv] at h
  cases h with
  | some hR => exact ⟨_, rfl, hR⟩

/-- A list corresponds to an array when the items do, one by one. -/
theorem agreesList_array {α : Type} {R : α → Json → Prop} {read : List α} {items : List Json} :
    AgreesList R read (.array items) ↔ List.Forall₂ R read items := by
  simp [AgreesList]

/-- What is in an ordered object is ordered. -/
theorem ordered_get? {members : Members} {name : String} {v : Json}
    (h : (Json.object members).Ordered) (hv : Members.get? members name = some v) : v.Ordered :=
  membersOrdered_iff.1 h.2 (name, v) (Members.mem_of_get? hv)

namespace Decoder

variable {α : Type} {P : Json → Prop} {R : α → Json → Prop} {decoder : Decoder α}

/-- **What a decoder reads,** and what it makes of it. -/
def Reads (decoder : Decoder α) (P : Json → Prop) (R : α → Json → Prop) : Prop :=
  ∀ v : Json, v.Ordered → P v → ∃ x, decoder.ofValue v = .ok x ∧ R x v

/-- A text is read as the text that it is. -/
theorem reads_string : string.Reads IsText AgreesText := by
  rintro v - ⟨s, rfl⟩
  exact ⟨s, rfl, rfl⟩

/-- What is no null is read as something. -/
theorem Reads.optional (h : decoder.Reads P R) (hnull : ¬ P .null) :
    decoder.optional.Reads P fun read v => ∃ x, read = some x ∧ R x v := by
  intro v hv hP
  obtain ⟨x, hx, hR⟩ := h v hv hP
  refine ⟨some x, ?_, x, rfl, hR⟩
  cases v with
  | null => exact absurd hP hnull
  | _ => exact congrArg (Except.map some) hx

/-- Items that were read one by one correspond to what was read of them. -/
theorem forall₂_ofValue (h : decoder.Reads P R) {items : List Json} {read : List α}
    (hread : List.Forall₂ (fun v x => decoder.ofValue v = .ok x) items read)
    (hitems : ∀ v ∈ items, v.Ordered) (hP : ∀ v ∈ items, P v) : List.Forall₂ R read items := by
  induction hread with
  | nil => exact .nil
  | @cons v x items read hx hrest ih =>
      obtain ⟨hv, hitems⟩ := List.forall_mem_cons.1 hitems
      obtain ⟨hPv, hP⟩ := List.forall_mem_cons.1 hP
      obtain ⟨y, hy, hR⟩ := h v hv hPv
      obtain rfl : x = y := Except.ok.inj (hx.symm.trans hy)
      exact .cons hR (ih hitems hP)

/-- **An array is read item by item,** and what is read has one element for each item, in order. -/
theorem Reads.list (h : decoder.Reads P R) : decoder.list.Reads (IsListOf P) (AgreesList R) := by
  rintro v hv ⟨items, rfl, hP⟩
  have hitems : ∀ x ∈ items, x.Ordered := allOrdered_iff.1 hv
  have hone : ∀ x ∈ items, ∃ y, decoder.ofValue x = .ok y := by
    intro x hx
    obtain ⟨y, hy, -⟩ := h x (hitems x hx) (hP x hx)
    exact ⟨y, hy⟩
  obtain ⟨read, hread⟩ := exists_mapM hone
  exact ⟨read, hread, items, rfl, forall₂_ofValue h (mapM_eq_ok_iff.1 hread) hitems hP⟩

end Decoder

namespace Field

variable {α β γ : Type}

/-- The field reads a value into any record. -/
def CanRead (f : Field α) (v : Json) : Prop :=
  ∀ record, ∃ record', f.ofValue record v = .ok record'

/-- The field leaves a part of the record alone. -/
def Keeps (f : Field α) (view : α → γ) : Prop :=
  ∀ record v record', f.ofValue record v = .ok record' → view record' = view record

/-- The name of a field is the one it was made with. -/
@[simp] theorem name_of (name : String) (decoder : Decoder β) (set : α → β → α) :
    (Field.of name decoder set).name = name := rfl

/-- A field reads its own member and sets what it has read, whatever is in the record by then. -/
theorem ofValue_of (name : String) (decoder : Decoder β) (set : α → β → α) (record : α) (v : Json) :
    (Field.of name decoder set).ofValue record v = (decoder.ofValue v).map (set record) := rfl

/-- A field reads what its decoder reads, and puts it into the record. -/
theorem ofValue_of_eq_ok_iff {name : String} {decoder : Decoder β} {set : α → β → α} {record : α}
    {v : Json} {record' : α} :
    (Field.of name decoder set).ofValue record v = .ok record' ↔
      ∃ x, decoder.ofValue v = .ok x ∧ record' = set record x := by
  rw [ofValue_of]
  cases decoder.ofValue v with
  | error error => simp [Except.map]
  | ok x => simp [Except.map, eq_comm]

/-- A field keeps a view of the record that its setting does not touch. -/
@[simp] theorem keeps_of {name : String} {decoder : Decoder β} {set : α → β → α} {view : α → γ}
    (h : ∀ record x, view (set record x) = view record) :
    (Field.of name decoder set).Keeps view := by
  intro record v record' hread
  obtain ⟨x, -, rfl⟩ := ofValue_of_eq_ok_iff.1 hread
  exact h record x

/-- Reading the field keeps a property of the record. -/
def Preserves (f : Field α) (I : α → Prop) : Prop :=
  ∀ record v record', I record → f.ofValue record v = .ok record' → I record'

/-- A field preserves what its setting preserves for every value that it can read. -/
theorem preserves_of {name : String} {decoder : Decoder β} {set : α → β → α} {I : α → Prop}
    (h : ∀ record v x, decoder.ofValue v = .ok x → I record → I (set record x)) :
    (Field.of name decoder set).Preserves I := by
  intro record v record' hI hread
  obtain ⟨x, hx, rfl⟩ := ofValue_of_eq_ok_iff.1 hread
  exact h record v x hx hI

end Field

/-- A field can read the member of its name when the decoder can read what the schema allows there.
-/
theorem Decoder.Reads.canRead {α β : Type} {P : Json → Prop} {R : β → Json → Prop}
    {decoder : Decoder β} (h : decoder.Reads P R) {name : String} {set : α → β → α}
    {members : Members} (hordered : (Json.object members).Ordered)
    (hP : Optionally P (.object members) name) (v : Json)
    (hv : Members.get? members name = some v) : (Field.of name decoder set).CanRead v := by
  obtain ⟨x, hx, -⟩ := h v (ordered_get? hordered hv) (hP v hv)
  exact fun record => ⟨set record x, Field.ofValue_of_eq_ok_iff.2 ⟨x, hx, rfl⟩⟩

namespace RecordKind

variable {α β : Type} {kind : RecordKind α} {members : Members} {record record' : α}
  {name : String} {decoder : Decoder β} {view : α → β}

/-- One member read into a record. -/
def readMember (kind : RecordKind α) (record : α) (member : String × Json) : Except String α :=
  (kind.field? member.1).elim (.ok record) fun f => f.ofValue record member.2

/-- A record is read by going through the members from the empty record on, and then asking for
those that are missing. -/
theorem ofMembers_eq (kind : RecordKind α) (members : Members) :
    kind.ofMembers members =
      (members.foldlM kind.readMember kind.empty).bind fun record =>
        match kind.missing? (members.map (·.1)) with
        | some message => .error message
        | none => .ok record := rfl

/-- The field that a name leads to is among the fields and has that name. -/
theorem field?_eq_some {f : Field α} (h : kind.field? name = some f) :
    f ∈ kind.fields ∧ f.name = name :=
  ⟨List.mem_of_find?_eq_some h, by simpa using List.find?_some h⟩

/-- When every member of a field's name can be read by that field, going through the members does
not fail. -/
theorem exists_foldlM
    (h : ∀ member ∈ members, ∀ f, kind.field? member.1 = some f → f.CanRead member.2)
    (record : α) : ∃ record', members.foldlM kind.readMember record = .ok record' := by
  induction members generalizing record with
  | nil => exact ⟨record, rfl⟩
  | cons member members ih =>
      have hone : ∃ record', kind.readMember record member = .ok record' := by
        unfold readMember
        cases hf : kind.field? member.1 with
        | none => exact ⟨record, rfl⟩
        | some f => exact h member (List.mem_cons_self ..) f hf record
      obtain ⟨record', hone⟩ := hone
      obtain ⟨last, hrest⟩ :=
        ih (fun member' hmem => h member' (List.mem_cons_of_mem _ hmem)) record'
      refine ⟨last, ?_⟩
      rw [List.foldlM_cons, hone]
      exact hrest

/-- **A record is read** when every field that is there can be read and the mandatory ones are
there. Members that no field is for are passed over. -/
theorem exists_ofMembers (hdistinct : Members.Distinct members)
    (hfields : ∀ f ∈ kind.fields, ∀ v, Members.get? members f.name = some v → f.CanRead v)
    (hmandatory : ∀ name ∈ kind.mandatory, (Members.get? members name).isSome) :
    ∃ record, kind.ofMembers members = .ok record := by
  have hmembers : ∀ member ∈ members, ∀ f, kind.field? member.1 = some f →
      f.CanRead member.2 := by
    intro member hmem f hf
    obtain ⟨hdeclared, hname⟩ := field?_eq_some hf
    refine hfields f hdeclared member.2 ?_
    rw [hname]
    exact (Members.get?_eq_some_iff hdistinct).2 hmem
  have hnone : kind.missing? (members.map (·.1)) = none := by
    rw [missing?, Option.map_eq_none_iff, List.find?_eq_none]
    intro name hname hmissing
    have hthere := hmandatory name hname
    rw [Option.isSome_iff_ne_none, Ne, Members.get?_eq_none_iff, not_not] at hthere
    simp [hthere] at hmissing
  obtain ⟨record, hrecord⟩ := exists_foldlM hmembers kind.empty
  refine ⟨record, ?_⟩
  rw [ofMembers_eq, hrecord]
  dsimp only [Except.bind]
  rw [hnone]

/-- **A part of a record is a field of its own:** the field of a name is read into it, and no other
field touches it. -/
structure Has (kind : RecordKind α) (name : String) (decoder : Decoder β) (view : α → β) :
    Prop where
  field : ∃ set, kind.field? name = some (Field.of name decoder set) ∧
    ∀ record x, view (set record x) = x
  keeps : ∀ f ∈ kind.fields, f.name ≠ name → f.Keeps view

/-- A member of another name leaves the part alone. -/
theorem Has.readMember_other (h : kind.Has name decoder view) {member : String × Json}
    (hne : member.1 ≠ name) (hread : kind.readMember record member = .ok record') :
    view record' = view record := by
  unfold readMember at hread
  cases hf : kind.field? member.1 with
  | none =>
      rw [hf] at hread
      exact congrArg view (Except.ok.inj hread).symm
  | some f =>
      rw [hf] at hread
      obtain ⟨hdeclared, hname⟩ := field?_eq_some hf
      exact h.keeps f hdeclared (hname ▸ hne) record member.2 record' hread

/-- The member of the name is read into the part. -/
theorem Has.readMember_own (h : kind.Has name decoder view) {v : Json}
    (hread : kind.readMember record (name, v) = .ok record') :
    decoder.ofValue v = .ok (view record') := by
  obtain ⟨set, hfield, hset⟩ := h.field
  rw [readMember, hfield] at hread
  obtain ⟨x, hx, rfl⟩ := Field.ofValue_of_eq_ok_iff.1 hread
  rw [hset, hx]

/-- **A part of a record** is read from the member of its name, and from nothing else: by induction
on the members that are left, of which one at most has the name. -/
theorem Has.foldlM (h : kind.Has name decoder view) (hdistinct : Members.Distinct members)
    (hread : members.foldlM kind.readMember record = .ok record') :
    match Members.get? members name with
    | some v => decoder.ofValue v = .ok (view record')
    | none => view record' = view record := by
  induction members generalizing record with
  | nil => exact congrArg view (Except.ok.inj hread).symm
  | cons member members ih =>
      obtain ⟨n, v⟩ := member
      rw [List.foldlM_cons] at hread
      cases hone : kind.readMember record (n, v) with
      | error error =>
          rw [hone] at hread
          exact absurd hread (by simp [bind, Except.bind])
      | ok next =>
          rw [hone] at hread
          have hrest := ih hdistinct.tail hread
          rw [Members.get?_cons]
          by_cases hn : n = name
          · -- The rest has no member of this name, so what was read stays.
            subst hn
            have hnone : Members.get? members n = none := by
              rw [Members.get?_eq_none_iff]
              exact (List.nodup_cons.1 hdistinct).1
            rw [hnone] at hrest
            rw [if_pos rfl]
            dsimp only at hrest ⊢
            rw [hrest]
            exact h.readMember_own hone
          · rw [if_neg hn, ← h.readMember_other hn hone]
            exact hrest

/-- **What a record shows in one view,** once it was read: what its member says, or the default
where there is no member. -/
theorem Has.ofMembers (h : kind.Has name decoder view) (hdistinct : Members.Distinct members)
    (hread : kind.ofMembers members = .ok record) :
    match Members.get? members name with
    | some v => decoder.ofValue v = .ok (view record)
    | none => view record = view kind.empty := by
  rw [ofMembers_eq] at hread
  cases hfold : members.foldlM kind.readMember kind.empty with
  | error error =>
      rw [hfold] at hread
      exact absurd hread (by simp [Except.bind])
  | ok last =>
      rw [hfold] at hread
      dsimp only [Except.bind] at hread
      split at hread
      · exact absurd hread (by simp)
      · obtain rfl := Except.ok.inj hread
        exact h.foldlM hdistinct hfold

section

variable {P : Json → Prop} {R : β → Json → Prop} (hordered : (Json.object members).Ordered)
  (hread : kind.ofMembers members = .ok record)

include hordered hread

/-- **A field whose member is there** holds what the member says, in every record that was read from
the members. -/
theorem Has.holds (h : kind.Has name decoder view) (hreads : decoder.Reads P R) {v : Json}
    (hv : Members.get? members name = some v) (hP : P v) : R (view record) v := by
  have hvalue := h.ofMembers hordered.1.distinct hread
  rw [hv] at hvalue
  obtain ⟨x, hx, hR⟩ := hreads v (ordered_get? hordered hv) hP
  exact Except.ok.inj (hx.symm.trans hvalue) ▸ hR

/-- **An optional field** is absent exactly when its member is, and holds what the member says. The
empty record has to have it absent. -/
theorem Has.agrees {view : α → Option β} (h : kind.Has name decoder.optional view)
    (hempty : view kind.empty = none) (hreads : decoder.Reads P R) (hnull : ¬ P .null)
    (hP : Optionally P (.object members) name) : Agrees R (view record) (.object members) name := by
  unfold Agrees
  change Option.Rel R (view record) (Members.get? members name)
  cases hv : Members.get? members name with
  | none =>
      have hvalue := h.ofMembers hordered.1.distinct hread
      rw [hv] at hvalue
      rw [hvalue, hempty]
      exact .none
  | some v =>
      obtain ⟨x, hx, hR⟩ := h.holds hordered hread (hreads.optional hnull) hv (hP v hv)
      rw [hx]
      exact .some hR

end

/-- **A record is read** as a whole when its fields are. What relates the record to the value is
shown afterwards, from the parts. -/
theorem reads_record {P : Json → Prop} {R : α → Json → Prop} (hobject : ∀ v, P v → IsObject v)
    (hfields : ∀ members, (Json.object members).Ordered → P (.object members) →
      ∀ f ∈ kind.fields, ∀ v, Members.get? members f.name = some v → f.CanRead v)
    (hmandatory : ∀ members, P (.object members) →
      ∀ name ∈ kind.mandatory, (Members.get? members name).isSome)
    (hagrees : ∀ members record, (Json.object members).Ordered → P (.object members) →
      kind.ofMembers members = .ok record → R record (.object members)) :
    kind.decoder.Reads P R := by
  intro v hv hP
  obtain ⟨members, rfl⟩ := hobject v hP
  obtain ⟨record, hread⟩ :=
    exists_ofMembers hv.1.distinct (hfields members hv hP) (hmandatory members hP)
  exact ⟨record, hread, hagrees members record hv hP hread⟩

/-- **What every field keeps,** every record has that is read, given by name or in order. A record
may also be given as an array of its fields, and that is covered. -/
theorem keeps_ofValue {I : α → Prop} (hfields : ∀ f ∈ kind.fields, f.Preserves I)
    (hempty : I kind.empty) {v : Json} (hread : kind.decoder.ofValue v = .ok record) :
    I record := by
  cases v with
  | object members =>
      change kind.ofMembers members = .ok record at hread
      obtain ⟨read, hfold, hcheck⟩ := bind_eq_ok_iff.1 (kind.ofMembers_eq members ▸ hread)
      have hkept : I read := by
        refine foldlM_keeps (fun member hmem record record' hI hone => ?_) hempty hfold
        unfold readMember at hone
        cases hf : kind.field? member.1 with
        | none =>
            rw [hf] at hone
            obtain rfl := Except.ok.inj hone
            exact hI
        | some f =>
            rw [hf] at hone
            exact hfields f (field?_eq_some hf).1 record member.2 record' hI hone
      split at hcheck
      · exact absurd hcheck (by simp)
      · obtain rfl := Except.ok.inj hcheck
        exact hkept
  | array items =>
      change kind.ofItems items = .ok record at hread
      obtain ⟨read, hfold, hcheck⟩ := bind_eq_ok_iff.1 hread
      have hkept : I read := by
        refine foldlM_keeps (fun item hmem record record' hI hone => ?_) hempty hfold
        exact hfields item.1 (List.of_mem_zip hmem).1 record item.2 record' hI hone
      split_ifs at hcheck
      obtain rfl := Except.ok.inj hcheck
      exact hkept
  | _ => exact absurd hread (by simp [decoder])

end RecordKind

end Json
end ProcessKit
