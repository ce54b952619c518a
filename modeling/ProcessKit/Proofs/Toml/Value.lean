/-
# What TOML values stand for

The settings that a value stands for are `Ordered` whatever the value is (`ordered_toJson`). Names
lead to the same in both (`get?_toJson`), save in a date-time: there it is the name of the one
member of its record.

The members of a table are turned into JSON one by one and put in one by one, each at its place. The
first is a map over the members (`membersToJson_eq_map`), although it is written as a recursion
together with that of values, and the second keeps the order by what is known of insertion.
-/

import ProcessKit.Proofs.Json.Reader
import ProcessKit.Toml.Value

namespace ProcessKit
namespace Toml
namespace Value

mutual

/-- The JSON of a TOML value is ordered, as what comes out of a sorted map is: the members were
sorted by name, at every depth. -/
theorem ordered_toJson (v : Value) : v.toJson.Ordered := by
  cases v with
  | array items => exact allOrdered_itemsToJson items
  | table members => exact Json.ordered_ofMembers (membersOrdered_membersToJson members)
  | dateTime t => exact ⟨List.pairwise_singleton .., trivial, trivial⟩
  | float d => cases d <;> trivial
  | _ => trivial

/-- The same of the elements of an array. -/
theorem allOrdered_itemsToJson (items : List Value) : Json.AllOrdered (itemsToJson items) := by
  cases items with
  | nil => trivial
  | cons v rest => exact ⟨ordered_toJson v, allOrdered_itemsToJson rest⟩

/-- The same of the members of a table. -/
theorem membersOrdered_membersToJson (members : List (String × Value)) :
    Json.MembersOrdered (membersToJson members) := by
  cases members with
  | nil => trivial
  | cons member rest =>
      obtain ⟨name, v⟩ := member
      exact ⟨ordered_toJson v, membersOrdered_membersToJson rest⟩

end

/-- The members are turned into JSON one by one, under the names they have. -/
theorem membersToJson_eq_map (members : List (String × Value)) :
    membersToJson members = members.map fun (name, v) => (name, v.toJson) := by
  induction members with
  | nil => rfl
  | cons member members ih => rw [membersToJson, List.map_cons, ih]

/-- What a name of a table leads to. -/
def get? (v : Value) (name : String) : Option Value :=
  match v with
  | .table members => Json.Members.last? members name
  | _ => none

/-- The date-time that a value is, if it is one. -/
def dateTime? : Value → Option DateTime
  | .dateTime t => some t
  | _ => none

/-- **Names lead to the same** in a value and in what it stands for, if it is no date-time. -/
theorem get?_toJson {v : Value} (h : v.dateTime? = none) (name : String) :
    v.toJson.get? name = (v.get? name).map toJson := by
  cases v with
  | table members =>
      rw [toJson, membersToJson_eq_map]
      exact Json.Members.get?_ofList_map toJson members name
  | dateTime t => exact absurd h (by simp [dateTime?])
  | float d => cases d <;> rfl
  | _ => rfl

end Value
end Toml
end ProcessKit
