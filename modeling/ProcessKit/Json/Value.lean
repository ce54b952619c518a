/-
# JSON values

Technology documents, settings layers and libraries are JSON values, whatever notation they were
written in. The members of an object are kept in the order of their names, each name once:
`Json.Members.insert` replaces an earlier member of the same name, so in a document with a repeated
name the last one counts. `Json.Ordered` says that a whole value is in this form.
-/

import ProcessKit.Number.Shortest

namespace ProcessKit

/-- A JSON number: an integer of 64 bits, signed or not, or else a double. -/
inductive JsonNumber where
  | integer (value : Int)
  | double (value : Double)
  deriving DecidableEq, Repr, Inhabited

/-- A JSON value. -/
inductive Json where
  | null
  | bool (value : Bool)
  | number (value : JsonNumber)
  | string (value : String)
  | array (items : List Json)
  | object (members : List (String × Json))
  deriving Repr, Inhabited

namespace Json

/-- The members of an object, in the order of their names. -/
abbrev Members := List (String × Json)

namespace Members

/-- The value of a member. -/
def get? (members : Members) (name : String) : Option Json :=
  (members.find? (·.1 == name)).map (·.2)

/-- The members with one more, which takes the place of a member of the same name. -/
def insert (name : String) (value : Json) : Members → Members
  | [] => [(name, value)]
  | (n, v) :: rest =>
    if name < n then (name, value) :: (n, v) :: rest
    else if name == n then (name, value) :: rest
    else (n, v) :: insert name value rest

/-- The members given in any order, a later one taking the place of an earlier one. -/
def ofList (pairs : List (String × Json)) : Members :=
  pairs.foldl (fun members (name, value) => members.insert name value) []

/-- Every name comes before the names after it. -/
def Sorted (members : Members) : Prop := members.Pairwise (·.1 < ·.1)

end Members

/-- An object whose members are given in any order. -/
def ofMembers (pairs : List (String × Json)) : Json := .object (Members.ofList pairs)

/-- The value of a member of an object; nothing is a member of any other value. -/
def get? (value : Json) (name : String) : Option Json :=
  match value with
  | .object members => Members.get? members name
  | _ => none

mutual

/-- Every object in the value has its members in the order of their names. -/
def Ordered : Json → Prop
  | .array items => AllOrdered items
  | .object members => Members.Sorted members ∧ MembersOrdered members
  | _ => True

/-- Every item is ordered. -/
def AllOrdered : List Json → Prop
  | [] => True
  | v :: rest => Ordered v ∧ AllOrdered rest

/-- Every member's value is ordered. -/
def MembersOrdered : List (String × Json) → Prop
  | [] => True
  | (_, v) :: rest => Ordered v ∧ MembersOrdered rest

end

end Json
end ProcessKit
