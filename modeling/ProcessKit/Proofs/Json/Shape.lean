/-
# Shapes of values

Properties of JSON values from which the shape of a document is put together. None of them holds of
null, so a member that is there with such a property is there for good.

They are texts, lists of something, objects, and records with texts for some of their names.
`Optionally` makes one of them into a property of a member that may be absent. There is no shape for
a member that may be null: the format has none, and a document with a null in the place of an
optional member is refused.
-/

import ProcessKit.Json.Value

namespace ProcessKit
namespace Json

/-- The value is a string. -/
def IsText (v : Json) : Prop := ∃ s, v = .string s

/-- The value is an array of values with a property. -/
def IsListOf (P : Json → Prop) (v : Json) : Prop := ∃ items, v = .array items ∧ ∀ x ∈ items, P x

/-- The value is an object. -/
def IsObject (v : Json) : Prop := ∃ members, v = .object members

/-- A member, where it is there, has a property. -/
def Optionally (P : Json → Prop) (v : Json) (name : String) : Prop :=
  ∀ x, v.get? name = some x → P x

/-- The value is an object in which the members of these names, where they are there, are
strings. -/
structure IsTextRecord (names : List String) (v : Json) : Prop where
  isObject : IsObject v
  text : ∀ name ∈ names, Optionally IsText v name

/-- Null is no text, so that a member of that value is not read as one that is missing. -/
theorem not_isText_null : ¬ IsText .null := fun ⟨_, h⟩ => absurd h (by simp)

/-- Null is no array either. -/
theorem not_isListOf_null (P : Json → Prop) : ¬ IsListOf P .null :=
  fun ⟨_, h, _⟩ => absurd h (by simp)

/-- Null is no object either. -/
theorem not_isObject_null : ¬ IsObject .null := fun ⟨_, h⟩ => absurd h (by simp)

/-- Null is no record of texts either. -/
theorem not_isTextRecord_null (names : List String) : ¬ IsTextRecord names .null :=
  fun h => not_isObject_null h.isObject

/-- Only an object has members. -/
theorem isObject_of_get? {v x : Json} {name : String} (h : v.get? name = some x) : IsObject v := by
  cases v with
  | object members => exact ⟨members, rfl⟩
  | _ => exact absurd h (by simp [get?])

/-- A member that is there decides whether it is as it should be, where it may be missing. -/
theorem optionally_of_get? {P : Json → Prop} {v x : Json} {name : String}
    (h : v.get? name = some x) : Optionally P v name ↔ P x := by
  constructor
  · exact fun hP => hP x h
  · intro hx y hy
    exact Option.some.inj (h.symm.trans hy) ▸ hx

end Json
end ProcessKit
