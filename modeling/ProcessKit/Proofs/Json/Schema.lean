/-
# What a schema accepts

A schema lists what is wrong with a value (`Schema.violations`). `Schema.Accepts` says, without
places and messages, what it takes for that list to be empty, and `violationsAt_eq_nil_iff` that it
takes exactly this, at any place.

The two go down through the schema in the same way: a text has its rules, a list asks something of
each item, and a record of each member that is there, and that the required ones are. A record
accepts members that it has no field for. So a schema is one definition to read for what it accepts,
and `accepts_record_iff` gives it in terms of the names of the fields, which is how the shape of a
document is written down.
-/

import ProcessKit.Json.Schema
import ProcessKit.Proofs.Json.Shape

namespace ProcessKit
namespace Schema

open Json (Members)

mutual

/-- The value is as the schema says. -/
def Accepts : Schema → Json → Prop
  | .text rules, v => ∃ s, v = .string s ∧ ∀ rule ∈ rules, rule.holds s = true
  | .list item, v => ∃ items, v = .array items ∧ ∀ x ∈ items, item.Accepts x
  | .record fields required, v => ∃ members, v = .object members ∧
      AcceptsFields fields members ∧ ∀ name ∈ required, (Members.get? members name).isSome

/-- The members for the fields of a record are as the schema says, as far as they are there. -/
def AcceptsFields : List (String × Schema) → Members → Prop
  | [], _ => True
  | (name, field) :: rest, members =>
    (∀ v, Members.get? members name = some v → field.Accepts v) ∧ AcceptsFields rest members

end

/-- The fields of an object are accepted when every member of a field's name is, by the schema of
that field. Other members do not matter. -/
theorem acceptsFields_iff {fields : List (String × Schema)} {members : Members} :
    AcceptsFields fields members ↔ ∀ field ∈ fields, ∀ v,
      Members.get? members field.1 = some v → field.2.Accepts v := by
  induction fields with
  | nil => simp [AcceptsFields]
  | cons field fields ih => rw [AcceptsFields, ih, List.forall_mem_cons]

mutual

/-- **Nothing is wrong** with a value exactly when the schema accepts it, at any place: the place
only says where a violation is, not whether there is one. -/
theorem violationsAt_eq_nil_iff (schema : Schema) (place : List Step) (v : Json) :
    schema.violationsAt place v = [] ↔ schema.Accepts v := by
  cases schema with
  | text rules =>
      rw [Accepts]
      cases v with
      | string s => simp [violationsAt]
      | _ => simp [violationsAt]
  | list item =>
      rw [Accepts]
      cases v with
      | array items =>
          have hitem : ∀ x index, item.violationsAt (place ++ [.item index]) x = [] ↔
              item.Accepts x := fun x index => violationsAt_eq_nil_iff item _ x
          have hitems : (violationsAt (.list item) place (.array items) = []) ↔
              ∀ x ∈ items, item.Accepts x := by
            rw [violationsAt, List.flatMap_eq_nil_iff]
            constructor
            · intro h x hx
              obtain ⟨index, hindex⟩ := List.mem_iff_getElem?.1 hx
              exact (hitem x index).1 (h (x, index) (List.mem_zipIdx_iff_getElem?.2 hindex))
            · intro h pair hpair
              exact (hitem _ _).2 (h pair.1 (List.fst_mem_of_mem_zipIdx hpair))
          rw [hitems]
          simp
      | _ => simp [violationsAt]
  | record fields required =>
      rw [Accepts]
      cases v with
      | object members =>
          have hfields := fieldViolations_eq_nil_iff fields place members
          simp [violationsAt, hfields, Option.isSome_iff_ne_none]
      | _ => simp [violationsAt]

/-- Nothing is listed about the fields exactly if they are accepted. -/
theorem fieldViolations_eq_nil_iff (fields : List (String × Schema)) (place : List Step)
    (members : Members) :
    fieldViolations fields place members = [] ↔ AcceptsFields fields members := by
  cases fields with
  | nil => simp [fieldViolations, AcceptsFields]
  | cons field rest =>
      obtain ⟨name, field⟩ := field
      rw [fieldViolations, AcceptsFields, List.append_eq_nil_iff,
        fieldViolations_eq_nil_iff rest place members]
      cases Members.get? members name with
      | none => simp
      | some v => simp [violationsAt_eq_nil_iff field _ v]

end

open Json (IsText IsListOf IsObject Optionally)

/-- A text without rules is any string. -/
theorem accepts_text : (text []).Accepts = IsText := by
  funext v
  simp [Accepts, IsText]

/-- The schema of a list accepts arrays whose items are accepted. -/
theorem accepts_list (item : Schema) : (list item).Accepts = IsListOf item.Accepts := by
  funext v
  rw [Accepts]
  rfl

/-- **A record** is an object whose known members are as the schema says, with the required ones
among them. -/
theorem accepts_record_iff {fields : List (String × Schema)} {required : List String} {v : Json} :
    (record fields required).Accepts v ↔
      IsObject v ∧ (∀ field ∈ fields, Optionally field.2.Accepts v field.1) ∧
        ∀ name ∈ required, (v.get? name).isSome := by
  rw [Accepts]
  constructor
  · rintro ⟨members, rfl, hfields, hrequired⟩
    exact ⟨⟨members, rfl⟩, acceptsFields_iff.1 hfields, hrequired⟩
  · rintro ⟨⟨members, rfl⟩, hfields, hrequired⟩
    exact ⟨members, rfl, acceptsFields_iff.2 hfields, hrequired⟩

end Schema
end ProcessKit
