/-
# YAML values

A YAML node is a scalar, a sequence or a mapping from texts. `Value.toJson` gives the value that it
stands for in JSON: of equal keys the last one counts, and a float that JSON cannot write becomes
null.
-/

import ProcessKit.Json.Value

namespace ProcessKit
namespace Yaml

/-- A YAML value. -/
inductive Value where
  | null
  | boolean (value : Bool)
  | integer (value : Int)
  /-- A float; `none` is an infinity or not a number. -/
  | float (value : Option Double)
  | string (text : String)
  | sequence (items : List Value)
  /-- A mapping, with its pairs in the order of the document. -/
  | mapping (pairs : List (String × Value))
  deriving Inhabited

namespace Value

mutual

/-- The value in JSON. -/
def toJson : Value → Json
  | .null => .null
  | .boolean b => .bool b
  | .integer i => .number (.integer i)
  | .float (some d) => .number (.double d)
  | .float none => .null
  | .string s => .string s
  | .sequence items => .array (itemsToJson items)
  | .mapping pairs => Json.ofMembers (pairsToJson pairs)

/-- The items of a sequence, each in JSON. -/
def itemsToJson : List Value → List Json
  | [] => []
  | v :: rest => v.toJson :: itemsToJson rest

/-- The pairs of a mapping, each in JSON. -/
def pairsToJson : List (String × Value) → List (String × Json)
  | [] => []
  | (name, v) :: rest => (name, v.toJson) :: pairsToJson rest

end

end Value
end Yaml
end ProcessKit
