/-
# Reading types of the library out of JSON

A `Decoder` reads values of one type in two ways: out of a JSON value, or straight out of a text,
where the first thing wrong decides and the message tells its place. A record is an object whose
members may stand in any order, or an array with its fields in order; members that the record does
not know are passed over. A null stands for an absent optional field. In a text no field may be
given twice.
-/

import ProcessKit.Json.Printer
import ProcessKit.Json.Skip
import ProcessKit.Text.Quoted

namespace ProcessKit
namespace Json

/-- What a value is, in a message. -/
def describe : Json → String
  | .null => "null"
  | .bool b => "boolean \x60" ++ (if b then "true" else "false") ++ "\x60"
  | .number (.integer i) => "integer \x60" ++ toString i ++ "\x60"
  | .number (.double d) => "floating point \x60" ++ (JsonNumber.double d).render ++ "\x60"
  | .string s => "string " ++ Quoted.quote s
  | .array _ => "sequence"
  | .object _ => "map"

/-- The message for a value in the place of something else. -/
def mismatch (v : Json) (expected : String) : String :=
  "invalid type: " ++ v.describe ++ ", expected " ++ expected

/-- The fault of a text that goes on with a value in the place of something else. An array or object
is not read, any other value is. -/
def mismatchAt (expected : String) : List Char → Fault
  | [] => { reason := .endInValue, left := [] }
  | c :: rest =>
    if c = '[' then { reason := .unwanted (mismatch (.array []) expected), left := c :: rest }
    else if c = '{' then { reason := .unwanted (mismatch (.object []) expected), left := c :: rest }
    else match readScalar c rest with
      | .ok (v, rest) => { reason := .unwanted (mismatch v expected), left := rest }
      | .error fault => fault

/-- How values of a type are read out of a JSON value and out of a text. -/
structure Decoder (α : Type) where
  ofValue : Json → Except String α
  ofText : List Char → Except Fault (α × List Char)

namespace Decoder

variable {α : Type}

/-- The value of a whole text. -/
def parse (decoder : Decoder α) (text : String) : Except String α :=
  (readWhole decoder.ofText text.toList).mapError (·.message text.toList)

/-- A string. -/
def string : Decoder String where
  ofValue
    | .string s => .ok s
    | v => .error (mismatch v "a string")
  ofText cs :=
    match skipBlanks cs with
    | '"' :: rest => readString rest
    | cs => .error (mismatchAt "a string" cs)

/-- A value or null. -/
def optional (decoder : Decoder α) : Decoder (Option α) where
  ofValue
    | .null => .ok none
    | v => (decoder.ofValue v).map some
  ofText cs :=
    match skipBlanks cs with
    | 'n' :: rest => (readLiteral .null "ull".toList rest).map fun (_, rest) => (none, rest)
    | cs => (decoder.ofText cs).map fun (v, rest) => (some v, rest)

/-- The items of an array after its bracket; `first` tells that none was read. -/
def readItems (decoder : Decoder α) (first : Bool) (cs : List Char) :
    Nat → Except Fault (List α × List Char)
  | 0 => .error { reason := .endInList, left := cs }
  | fuel + 1 =>
    let more (cs : List Char) : Except Fault (List α × List Char) := do
      let (v, rest) ← decoder.ofText cs
      let (vs, rest) ← readItems decoder false rest fuel
      .ok (v :: vs, rest)
    match skipBlanks cs with
    | [] => .error { reason := .endInList, left := [] }
    | ']' :: rest => .ok ([], rest)
    | ',' :: rest =>
      if first then more (',' :: rest)
      else match skipBlanks rest with
        | [] => .error { reason := .endInValue, left := [] }
        | ']' :: rest => .error (faultAt .trailingComma (']' :: rest))
        | rest => more rest
    | rest => if first then more rest else .error (faultAt .expectedListEnd rest)

/-- An array. -/
def list (decoder : Decoder α) : Decoder (List α) where
  ofValue
    | .array items => items.mapM decoder.ofValue
    | v => .error (mismatch v "a sequence")
  ofText cs :=
    match skipBlanks cs with
    | '[' :: rest => decoder.readItems true rest (rest.length + 1)
    | cs => .error (mismatchAt "a sequence" cs)

end Decoder

/-- A field of a record: its name, and how it is read into the record. -/
structure Field (α : Type) where
  name : String
  ofValue : α → Json → Except String α
  ofText : α → List Char → Except Fault (α × List Char)

/-- The field of a name that a decoder reads and `set` puts into the record. -/
def Field.of {α β : Type} (name : String) (decoder : Decoder β) (set : α → β → α) : Field α where
  name
  ofValue record v := (decoder.ofValue v).map (set record)
  ofText record cs := (decoder.ofText cs).map fun (v, rest) => (set record v, rest)

/-- A kind of record: its fields in order, of which the first `required` must stand in an array and
those of `mandatory` in an object, and the record without any. -/
structure RecordKind (α : Type) where
  title : String
  fields : List (Field α)
  required : Nat
  mandatory : List String := []
  empty : α

namespace RecordKind

variable {α : Type} (kind : RecordKind α)

/-- The field of a name. -/
def field? (name : String) : Option (Field α) := kind.fields.find? (·.name == name)

/-- The message for an array with too few fields. -/
def tooFew (count : Nat) : String :=
  "invalid length " ++ toString count ++ ", expected struct " ++ kind.title ++ " with " ++
    toString kind.fields.length ++ " elements"

/-- The message for an object without a field that must be there. -/
def missing? (names : List String) : Option String :=
  (kind.mandatory.find? (!names.contains ·)).map fun name => "missing field \x60" ++ name ++ "\x60"

/-- The fields given in order. -/
def ofItems (items : List Json) : Except String α := do
  let record ← (kind.fields.zip items).foldlM (fun record (f, v) => f.ofValue record v) kind.empty
  if items.length < kind.required then .error (kind.tooFew items.length)
  else if kind.fields.length < items.length then
    .error ("invalid length " ++ toString items.length ++ ", expected fewer elements in array")
  else .ok record

/-- The fields given by name. -/
def ofMembers (members : Members) : Except String α := do
  let record ← members.foldlM (fun record (name, v) =>
    (kind.field? name).elim (.ok record) fun f => f.ofValue record v) kind.empty
  match kind.missing? (members.map (·.1)) with
  | some message => .error message
  | none => .ok record

/-- The end of an array that holds all fields. -/
def readClosing (record : α) (cs : List Char) : Except Fault (α × List Char) :=
  match skipBlanks cs with
  | [] => .error { reason := .endInList, left := [] }
  | ']' :: rest => .ok (record, rest)
  | ',' :: rest =>
    match skipBlanks rest with
    | ']' :: rest => .error (faultAt .trailingComma (']' :: rest))
    | rest => .error (faultAt .trailingCharacters rest)
  | rest => .error (faultAt .trailingCharacters rest)

/-- The fields in an array, after as many as `count`. -/
def readFields (record : α) (count : Nat) (cs : List Char) :
    List (Field α) → Except Fault (α × List Char)
  | [] => readClosing record cs
  | f :: fields =>
    let more (cs : List Char) : Except Fault (α × List Char) := do
      let (record, rest) ← f.ofText record cs
      readFields record (count + 1) rest fields
    match skipBlanks cs with
    | [] => .error { reason := .endInList, left := [] }
    | ']' :: rest =>
      if count < kind.required then .error { reason := .unwanted (kind.tooFew count), left := rest }
      else .ok (record, rest)
    | ',' :: rest =>
      if count = 0 then more (',' :: rest)
      else match skipBlanks rest with
        | [] => .error { reason := .endInValue, left := [] }
        | ']' :: rest => .error (faultAt .trailingComma (']' :: rest))
        | rest => more rest
    | rest => if count = 0 then more rest else .error (faultAt .expectedListEnd rest)

/-- Past the colon after a name. -/
def readColon (cs : List Char) : Except Fault (List Char) :=
  match skipBlanks cs with
  | [] => .error { reason := .endInObject, left := [] }
  | ':' :: rest => .ok rest
  | rest => .error (faultAt .expectedColon rest)

/-- The fault of a field given twice, after its second name. -/
def duplicate (name : String) (cs : List Char) : Fault :=
  let left := match skipBlanks cs with
    | '}' :: rest => rest
    | rest => rest
  { reason := .unwanted ("duplicate field \x60" ++ name ++ "\x60"), left }

/-- The members of an object after those in `seen`; `first` tells that there was none. -/
def readMembers (record : α) (seen : List String) (first : Bool) (cs : List Char) :
    Nat → Except Fault (α × List Char)
  | 0 => .error { reason := .endInObject, left := cs }
  | fuel + 1 =>
    let member (cs : List Char) : Except Fault (α × List Char) :=
      match cs with
      | [] => .error { reason := .endInValue, left := [] }
      | '}' :: rest => .error (faultAt .trailingComma ('}' :: rest))
      | '"' :: rest => do
        let (name, rest) ← readString rest
        match kind.field? name with
        | none =>
          let rest ← skipAny (← readColon rest)
          readMembers record seen false rest fuel
        | some f =>
          if seen.contains name then .error (duplicate name rest)
          else
            let (record, rest) ← f.ofText record (← readColon rest)
            readMembers record (name :: seen) false rest fuel
      | rest => .error (faultAt .keyNotString rest)
    match skipBlanks cs with
    | [] => .error { reason := .endInObject, left := [] }
    | '}' :: rest =>
      match kind.missing? seen with
      | some message => .error { reason := .unwanted message, left := rest }
      | none => .ok (record, rest)
    | c :: rest =>
      if first then member (c :: rest)
      else if c = ',' then member (skipBlanks rest)
      else .error (faultAt .expectedObjectEnd (c :: rest))

/-- A record, given as an object or as an array. -/
def decoder : Decoder α where
  ofValue
    | .object members => kind.ofMembers members
    | .array items => kind.ofItems items
    | v => .error (mismatch v ("struct " ++ kind.title))
  ofText cs :=
    match skipBlanks cs with
    | '[' :: rest => kind.readFields kind.empty 0 rest kind.fields
    | '{' :: rest => kind.readMembers kind.empty [] true rest (rest.length + 1)
    | cs => .error (mismatchAt ("struct " ++ kind.title) cs)

end RecordKind

/-- An optional value as a member, which is left out when it is absent. -/
def optionalMember (name : String) : Option Json → List (String × Json)
  | some v => [(name, v)]
  | none => []

/-- An optional value, null when it is absent. -/
def orNull : Option Json → Json
  | some v => v
  | none => .null

end Json
end ProcessKit
