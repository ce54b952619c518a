/-
# YAML documents

`Yaml.read` gives the value of a text, `Yaml.parse` the one that it stands for in JSON. The keys of
a mapping are the texts of scalars. An alias stands for the node its anchor names, to a depth of 128
levels and no more than a hundred times as often as there are events. A text without a document is
null. A tag of the document's own has no value in JSON, and is refused.

An anchor gets the number of anchor names known before it, and a later node takes over a number it
shares; a name that was never repeated has a number to itself.
-/

import ProcessKit.Yaml.Event
import ProcessKit.Yaml.Scalar

namespace ProcessKit
namespace Yaml

/-- The events of a document with what its aliases stand for. -/
structure Document where
  events : Array Event
  /-- The number that the alias at an event refers to. -/
  references : List (Nat × Nat)
  /-- The event where the node of a number starts. -/
  targets : List (Nat × Nat)

namespace Document

/-- The anchor of a node's first event. -/
def anchor? : Event → Option String
  | .scalar p .. | .sequenceStart p | .mappingStart p => p.anchor
  | _ => none

/-- Numbers the anchors and aliases of the events from an index on. -/
def link (names : List (String × Nat)) (index : Nat) (document : Document) :
    List Event → Except String Document
  | [] => .ok document
  | event :: rest =>
    match event with
    | .alias name =>
      match names.lookup name with
      | some id =>
        link names (index + 1)
          { document with references := (index, id) :: document.references } rest
      | none => .error "unknown anchor"
    | _ =>
      match anchor? event with
      | some name =>
        let id := names.length
        link ((name, id) :: names.filter (·.1 != name)) (index + 1)
          { document with targets := (id, index) :: document.targets } rest
      | none => link names (index + 1) document rest

/-- A document with its aliases linked. -/
def ofEvents (events : Array Event) : Except String Document :=
  link [] 0 { events, references := [], targets := [] } events.toList

/-- Follows the alias at an event, given how many were followed before. -/
def follow (document : Document) (index jumps : Nat) : Except String (Nat × Nat) :=
  if document.events.size * 100 < jumps + 1 then .error "repetition limit exceeded"
  else match (document.references.lookup index).bind fun id => document.targets.lookup id with
    | some target => .ok (target, jumps + 1)
    | none => .error "unknown anchor"

/-- The text of the key at an event, and the number of aliases followed. -/
def key (document : Document) (index jumps : Nat) : Except String (String × Nat) :=
  match document.events[index]? with
  | some (.scalar _ text _) => .ok (text, jumps)
  | some (.alias _) =>
    match document.follow index jumps with
    | .error e => .error e
    | .ok (target, jumps) =>
      match document.events[target]? with
      | some (.scalar _ text _) => .ok (text, jumps)
      | _ => .error "invalid type, expected a string key"
  | _ => .error "invalid type, expected a string key"

/-- Whether a tag is one of the document's own: a text that starts with an exclamation mark. -/
def isOwnTag (tag : Option Bytes) : Bool :=
  tag.any fun bytes => bytes.head? == some 0x21 && (Utf8.decode? bytes).isSome

mutual

/-- The value of the node at an event, with the event after it and the number of aliases followed;
`depth` is how many levels it may still nest. -/
def value (document : Document) (fuel depth index jumps : Nat) :
    Except String (Value × Nat × Nat) :=
  match fuel with
  | 0 => .error "recursion limit exceeded"
  | fuel + 1 =>
    match document.events[index]? with
    | some (.alias _) =>
      match document.follow index jumps with
      | .error e => .error e
      | .ok (target, jumps) =>
        match value document fuel depth target jumps with
        | .error e => .error e
        | .ok (v, _, jumps) => .ok (v, index + 1, jumps)
    | some (.scalar p text plain) =>
      if isOwnTag p.tag then .error "invalid type: enum"
      else match p.tag.elim (Scalar.untagged text plain) (Scalar.value · text plain) with
        | .error e => .error e
        | .ok v => .ok (v, index + 1, jumps)
    | some (.sequenceStart p) =>
      if isOwnTag p.tag then .error "invalid type: enum"
      else match depth with
        | 0 => .error "recursion limit exceeded"
        | depth + 1 =>
          match items document fuel depth (index + 1) jumps with
          | .error e => .error e
          | .ok (vs, index, jumps) => .ok (.sequence vs, index, jumps)
    | some (.mappingStart p) =>
      if isOwnTag p.tag then .error "invalid type: enum"
      else match depth with
        | 0 => .error "recursion limit exceeded"
        | depth + 1 =>
          match pairs document fuel depth (index + 1) jumps with
          | .error e => .error e
          | .ok (ps, index, jumps) => .ok (.mapping ps, index, jumps)
    | _ => .error "EOF while parsing a value"

/-- The items of a sequence from an event on. -/
def items (document : Document) (fuel depth index jumps : Nat) :
    Except String (List Value × Nat × Nat) :=
  match fuel with
  | 0 => .error "recursion limit exceeded"
  | fuel + 1 =>
    match document.events[index]? with
    | some .sequenceEnd => .ok ([], index + 1, jumps)
    | _ =>
      match value document fuel depth index jumps with
      | .error e => .error e
      | .ok (v, index, jumps) =>
        match items document fuel depth index jumps with
        | .error e => .error e
        | .ok (vs, index, jumps) => .ok (v :: vs, index, jumps)

/-- The pairs of a mapping from an event on. -/
def pairs (document : Document) (fuel depth index jumps : Nat) :
    Except String (List (String × Value) × Nat × Nat) :=
  match fuel with
  | 0 => .error "recursion limit exceeded"
  | fuel + 1 =>
    match document.events[index]? with
    | some .mappingEnd => .ok ([], index + 1, jumps)
    | _ =>
      match document.key index jumps with
      | .error e => .error e
      | .ok (name, jumps) =>
        match value document fuel depth (index + 1) jumps with
        | .error e => .error e
        | .ok (v, index, jumps) =>
          match pairs document fuel depth index jumps with
          | .error e => .error e
          | .ok (ps, index, jumps) => .ok ((name, v) :: ps, index, jumps)

end

/-- The value of a document. -/
def root (document : Document) : Except String Value :=
  (document.value (260 * (document.events.size + 4)) 128 0 0).map (·.1)

end Document

/-- The value of a YAML text. -/
def read (text : String) : Except String Value := do
  match ← Event.ofTokens? (← Token.scan text) with
  | none => return .null
  | some events => (← Document.ofEvents events).root

/-- The value of a YAML text in JSON. -/
def parse (text : String) : Except String Json := (read text).map Value.toJson

end Yaml
end ProcessKit
