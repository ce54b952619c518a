/-
# Tables under construction

A document builds its tables statement by statement, and how a table came to be decides what may
still be put into it. A table is opened once by its own header, which may come after headers of
tables inside it. A table made by a dotted key grows only by dotted keys, from the table where it
was made. An array of tables grows by its headers, and its last table is the one that paths lead to.
-/

import ProcessKit.Toml.Value

namespace ProcessKit
namespace Toml

/-- How a table came to be. -/
inductive Origin where
  /-- By a header of its own, or as the root. -/
  | header
  /-- By the header of a table inside it. -/
  | implied
  /-- By a dotted key. -/
  | dotted
  deriving DecidableEq, Repr

/-- What stands under a name while a document is read. -/
inductive Node where
  | value (v : Value)
  | table (origin : Origin) (members : List (String × Node))
  | tables (earlier : List (List (String × Node))) (last : List (String × Node))
  deriving Inhabited

/-- The members of a table under construction. -/
abbrev Node.Members := List (String × Node)

namespace Node

/-- What stands under a name. -/
def find? (name : String) (members : Members) : Option Node :=
  (members.find? (·.1 == name)).map (·.2)

/-- The members with what stands under a name replaced or added. -/
def put (name : String) (node : Node) : Members → Members
  | [] => [(name, node)]
  | (n, v) :: rest => if n == name then (n, node) :: rest else (n, v) :: put name node rest

/-- Changes the table at the end of a path; tables missing on the way come to be as `way` says. A
dotted path does not lead through a table that was opened by its header. -/
def change (way : Origin) (f : Origin → Members → Option Members) :
    List String → Origin → Members → Option Members
  | [], origin, members => f origin members
  | name :: path, _, members =>
    match find? name members with
    | none => (change way f path way []).map fun inner => put name (.table way inner) members
    | some (.table origin inner) =>
      if way = .dotted ∧ origin = .header then none
      else (change way f path origin inner).map fun inner => put name (.table origin inner) members
    | some (.tables earlier last) =>
      (change way f path .header last).map fun last => put name (.tables earlier last) members
    | some (.value _) => none

/-- The members with a value under a dotted key, which must be free. -/
def assign (keys : List String) (v : Value) (members : Members) : Option Members :=
  match keys.getLast? with
  | none => none
  | some name =>
    let dotted := keys.dropLast ≠ []
    change .dotted (fun origin members =>
      if (origin = .dotted) ≠ dotted ∨ (find? name members).isSome then none
      else some (put name (.value v) members)) keys.dropLast .header members

/-- The members with a value under a dotted key of the table that a header opened. -/
def assignIn (opened keys : List String) (v : Value) (members : Members) : Option Members :=
  change .implied (fun _ inner => assign keys v inner) opened .header members

/-- The members with a table opened by its header. -/
def openTable (path : List String) (members : Members) : Option Members :=
  match path.getLast? with
  | none => none
  | some name =>
    change .implied (fun _ members =>
      match find? name members with
      | none => some (put name (.table .header []) members)
      | some (.table .implied inner) => some (put name (.table .header inner) members)
      | _ => none) path.dropLast .header members

/-- The members with one more table in an array of tables. -/
def addTable (path : List String) (members : Members) : Option Members :=
  match path.getLast? with
  | none => none
  | some name =>
    change .implied (fun _ members =>
      match find? name members with
      | none => some (put name (.tables [] []) members)
      | some (.tables earlier last) => some (put name (.tables (earlier ++ [last]) []) members)
      | _ => none) path.dropLast .header members

mutual

/-- The value that a node stands for. -/
def toValue : Node → Value
  | .value v => v
  | .table _ members => .table (membersToValue members)
  | .tables earlier last => .array (tablesToValue earlier ++ [.table (membersToValue last)])

/-- The members of a finished table. -/
def membersToValue : List (String × Node) → List (String × Value)
  | [] => []
  | (name, node) :: rest => (name, node.toValue) :: membersToValue rest

/-- The tables of an array. -/
def tablesToValue : List (List (String × Node)) → List Value
  | [] => []
  | members :: rest => .table (membersToValue members) :: tablesToValue rest

end

end Node
end Toml
end ProcessKit
