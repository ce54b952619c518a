/-
# Settings

Technologies name directories of the machine by settings keys. A `Settings` value is a stack of
layers, each a map from keys to values, and the newest layer that has a key decides it, even with a
null. A settings document is one layer: its nested tables are flattened, so that the value under
`a` and then `b` gets the key `a.b`, and arrays stay whole.
-/

import ProcessKit.Json.Printer
import ProcessKit.Error

namespace ProcessKit

/-- The layers of settings, the newest first. -/
structure Settings where
  layers : List Json.Members := []

namespace Settings

/-- The value of a key. -/
def lookup (settings : Settings) (key : String) : Option Json :=
  settings.layers.findSome? fun layer => Json.Members.get? layer key

/-- How many layers there are. -/
def depth (settings : Settings) : Nat := settings.layers.length

/-- The settings with one more layer on top. -/
def push (settings : Settings) (layer : Json.Members) : Settings :=
  { layers := layer :: settings.layers }

/-- The settings with a layer of pairs on top, a later pair taking the place of an earlier one. -/
def pushPairs (settings : Settings) (pairs : List (String × Json)) : Settings :=
  settings.push (Json.Members.ofList pairs)

/-- The settings of one layer of pairs. -/
def ofPairs (pairs : List (String × Json)) : Settings := ({} : Settings).pushPairs pairs

/-- The key of a name inside a table, if there is a table around it. -/
def keyIn (table : Option String) (name : String) : String :=
  match table with
  | some table => table ++ "." ++ name
  | none => name

mutual

/-- A layer with the values of a table's members, the tables among them flattened. -/
def flattenMembers (table : Option String) (layer : Json.Members) :
    List (String × Json) → Json.Members
  | [] => layer
  | (name, v) :: rest => flattenMembers table (flattenValue (keyIn table name) layer v) rest

/-- A layer with a value under a key, or with the members of a table below that key. -/
def flattenValue (key : String) (layer : Json.Members) : Json → Json.Members
  | .object members => flattenMembers (some key) layer members
  | v => layer.insert key v

end

/-- The layer of a table. -/
def flatten (members : Json.Members) : Json.Members := flattenMembers none [] members

/-- The settings with a document as a layer on top. -/
def pushDocument (settings : Settings) : Json → Except Error Settings
  | .object members => .ok (settings.push (flatten members))
  | _ => .error (.user "Settings document must be a table at the top level")

/-- The value of a key as a text: scalars are written as in JSON, and null counts as absent. -/
def text? (settings : Settings) (key : String) : Except Error (Option String) :=
  match settings.lookup key with
  | none | some .null => .ok none
  | some (.string s) => .ok (some s)
  | some (.bool b) => .ok (some (Json.bool b).compact)
  | some (.number n) => .ok (some n.render)
  | some (.array _) | some (.object _) =>
    .error (.settingInvalid key "expected a string, found a list or table")

end Settings
end ProcessKit
