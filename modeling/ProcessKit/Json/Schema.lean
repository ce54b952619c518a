/-
# Schemas

A schema says what a JSON value must look like: a text that keeps some rules, a list of like items,
or a record with fields, some of which must be there. `Schema.violations` lists every rule that a
value breaks, with its place. A value of the wrong type breaks that rule alone, and nothing is said
of what is inside it; a member that the schema does not know may hold anything.
-/

import ProcessKit.Json.Printer

namespace ProcessKit

/-- A rule on texts. -/
inductive TextRule where
  | notEmpty
  | notOneOf (texts : List String)
  /-- At least one character, and none of these. -/
  | charsOutside (excluded : List Char)
  deriving DecidableEq, Repr

/-- Whether a text keeps a rule. -/
def TextRule.holds (rule : TextRule) (text : String) : Bool :=
  match rule with
  | .notEmpty => text != ""
  | .notOneOf texts => !texts.contains text
  | .charsOutside excluded => text != "" && text.toList.all fun c => !excluded.contains c

/-- What a JSON value must look like. -/
inductive Schema where
  | text (rules : List TextRule)
  | list (item : Schema)
  | record (fields : List (String × Schema)) (required : List String)

/-- One step to a place inside a value. -/
inductive Step where
  | member (name : String)
  | item (index : Nat)
  deriving DecidableEq, Repr

/-- A place as text: a slash and a name or a number for each step. -/
def Step.pointer (place : List Step) : String :=
  String.join (place.map fun
    | .member name => "/" ++ name
    | .item index => "/" ++ toString index)

namespace Schema

/-- What a value can fail in. -/
inductive Rule where
  | isText
  | isList
  | isRecord
  | text (rule : TextRule)
  | has (member : String)
  deriving DecidableEq, Repr

/-- A rule that the value at a place breaks. -/
structure Violation where
  place : List Step
  value : Json
  rule : Rule

/-- The wording of a violation. -/
def Violation.message (violation : Violation) : String :=
  let value := violation.value.compact
  let reason :=
    match violation.rule with
    | .isText => value ++ " is not of type \"string\""
    | .isList => value ++ " is not of type \"array\""
    | .isRecord => value ++ " is not of type \"object\""
    | .text .notEmpty => value ++ " is shorter than 1 character"
    | .text (.notOneOf texts) =>
      let refused := Json.object [("enum", .array (texts.map .string))]
      refused.compact ++ " is not allowed for " ++ value
    | .text (.charsOutside excluded) =>
      let chars := excluded.flatMap fun c => if c = '\\' then ['\\', '\\'] else [c]
      value ++ " does not match \"^[^" ++ String.ofList chars ++ "]+$\""
    | .has member => (Json.string member).compact ++ " is a required property"
  reason ++ " at '" ++ Step.pointer violation.place ++ "'"

mutual

/-- Every rule that a value at a place breaks: the fields of a record in the order of the schema,
then the members it lacks. -/
def violationsAt : Schema → List Step → Json → List Violation
  | .text rules, place, v =>
    match v with
    | .string s => (rules.filter fun rule => !rule.holds s).map fun rule => ⟨place, v, .text rule⟩
    | _ => [⟨place, v, .isText⟩]
  | .list item, place, v =>
    match v with
    | .array items =>
      items.zipIdx.flatMap fun (x, index) => item.violationsAt (place ++ [.item index]) x
    | _ => [⟨place, v, .isList⟩]
  | .record fields required, place, v =>
    match v with
    | .object members =>
      fieldViolations fields place members ++
        ((required.filter fun name => (Json.Members.get? members name).isNone).map fun name =>
          ⟨place, v, .has name⟩)
    | _ => [⟨place, v, .isRecord⟩]

/-- Every rule that the members for the fields of a record break. -/
def fieldViolations : List (String × Schema) → List Step → Json.Members → List Violation
  | [], _, _ => []
  | (name, field) :: rest, place, members =>
    (match Json.Members.get? members name with
      | some v => field.violationsAt (place ++ [.member name]) v
      | none => []) ++ fieldViolations rest place members

end

/-- Every rule that a value breaks. -/
def violations (schema : Schema) (v : Json) : List Violation := schema.violationsAt [] v

end Schema
end ProcessKit
