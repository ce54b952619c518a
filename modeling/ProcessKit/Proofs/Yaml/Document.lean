/-
# What is read from a YAML text is ordered

A YAML value may name a key twice. The pairs of a mapping are put in one by one when it is turned
into JSON, so that what it stands for is `Ordered` whatever the value is (`Value.ordered_toJson`),
and with it everything that is read from a text (`ordered_parse`).

Nothing about the scanner or the parser of YAML is needed for that. Whatever they make of a text is
a value, and being ordered is a matter of turning that into JSON. For the same reason a name leads
to what the last pair with this key leads to (`get?_toJson`).
-/

import ProcessKit.Proofs.Json.Reader
import ProcessKit.Yaml.Document

namespace ProcessKit
namespace Yaml

namespace Value

mutual

/-- The JSON of a YAML value is ordered: a mapping was read into a sorted map, at every depth. -/
theorem ordered_toJson (v : Value) : v.toJson.Ordered := by
  cases v with
  | sequence items => exact allOrdered_itemsToJson items
  | mapping pairs => exact Json.ordered_ofMembers (membersOrdered_pairsToJson pairs)
  | float d => cases d <;> trivial
  | _ => trivial

/-- The same of the elements of a sequence. -/
theorem allOrdered_itemsToJson (items : List Value) : Json.AllOrdered (itemsToJson items) := by
  cases items with
  | nil => trivial
  | cons v rest => exact ⟨ordered_toJson v, allOrdered_itemsToJson rest⟩

/-- The same of the pairs of a mapping. -/
theorem membersOrdered_pairsToJson (pairs : List (String × Value)) :
    Json.MembersOrdered (pairsToJson pairs) := by
  cases pairs with
  | nil => trivial
  | cons pair rest =>
      obtain ⟨name, v⟩ := pair
      exact ⟨ordered_toJson v, membersOrdered_pairsToJson rest⟩

end

/-- The pairs are turned into JSON one by one, under the names they have. -/
theorem pairsToJson_eq_map (pairs : List (String × Value)) :
    pairsToJson pairs = pairs.map fun (name, v) => (name, v.toJson) := by
  induction pairs with
  | nil => rfl
  | cons pair pairs ih => rw [pairsToJson, List.map_cons, ih]

/-- What a key of a mapping leads to: of pairs with one key the last one counts. -/
def get? (v : Value) (name : String) : Option Value :=
  match v with
  | .mapping pairs => Json.Members.last? pairs name
  | _ => none

/-- **Names lead to the same** in a value and in what it stands for. -/
theorem get?_toJson (v : Value) (name : String) :
    v.toJson.get? name = (v.get? name).map toJson := by
  cases v with
  | mapping pairs =>
      rw [toJson, pairsToJson_eq_map]
      exact Json.Members.get?_ofList_map toJson pairs name
  | float d => cases d <;> rfl
  | _ => rfl

end Value

/-- **The value of a YAML text** is ordered. -/
theorem ordered_parse {text : String} {v : Json} (h : parse text = .ok v) : v.Ordered := by
  obtain ⟨value, -, rfl⟩ := map_eq_ok_iff.1 h
  exact value.ordered_toJson

end Yaml
end ProcessKit
