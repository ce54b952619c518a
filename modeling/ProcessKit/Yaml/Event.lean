/-
# The events of a YAML document

A document is a flat list of events: scalars, aliases, and the starts and ends of sequences and
mappings, a mapping holding its keys and values in turn. `Event.ofTokens?` recognises the grammar,
puts in an empty scalar wherever a node is left out, and gives tags in full. A text holds at most
one document.
-/

import ProcessKit.Yaml.Token

namespace ProcessKit
namespace Yaml

/-- What a node may carry besides its content: the name of an anchor, and the bytes of a tag, which
need not be text. -/
structure Properties where
  anchor : Option String := none
  tag : Option Bytes := none
  deriving DecidableEq, Repr, Inhabited

/-- An event. -/
inductive Event where
  | scalar (properties : Properties) (text : String) (plain : Bool)
  | alias (name : String)
  | sequenceStart (properties : Properties)
  | sequenceEnd
  | mappingStart (properties : Properties)
  | mappingEnd
  deriving DecidableEq, Repr, Inhabited

namespace Event

/-- The scalar that stands for a node that is left out. -/
def empty : Event := .scalar {} "" true

/-- What the handles of tags stand for. -/
abbrev Handles := List (String × Bytes)

/-- What the tags of the standard types start with. -/
def standardStart : String := "tag:yaml.org,2002:"

/-- The handles that need no directive. -/
def defaultHandles : Handles := [("!", Utf8.encode "!"), ("!!", Utf8.encode standardStart)]

/-- A tag in full. -/
def fullTag (handles : Handles) (handle : String) (suffix : Bytes) : Except String Bytes :=
  if handle = "" then .ok suffix
  else match handles.lookup handle with
    | some start => .ok (start ++ suffix)
    | none => .error "found undefined tag handle"

/-- The anchor and tag in front of a node, in either order. -/
def readProperties (handles : Handles) : List Token → Except String (Properties × List Token)
  | .anchor name :: .tag h s :: rest => do
    return ({ anchor := some name, tag := some (← fullTag handles h s) }, rest)
  | .tag h s :: .anchor name :: rest => do
    return ({ anchor := some name, tag := some (← fullTag handles h s) }, rest)
  | .anchor name :: rest => return ({ anchor := some name }, rest)
  | .tag h s :: rest => do return ({ tag := some (← fullTag handles h s) }, rest)
  | rest => return ({}, rest)

mutual

/-- A node. `block` allows blocks, `indentless` a sequence as deep as the mapping it is in. -/
def readNode (handles : Handles) (fuel : Nat) (block indentless : Bool) (events : Array Event)
    (ts : List Token) : Except String (Array Event × List Token) :=
  match fuel with
  | 0 => .error "did not find expected node content"
  | fuel + 1 =>
    match ts with
    | .alias name :: rest => .ok (events.push (.alias name), rest)
    | _ =>
      match readProperties handles ts with
      | .error e => .error e
      | .ok (p, rest) =>
        match rest with
        | .scalar text plain :: rest => .ok (events.push (.scalar p text plain), rest)
        | .flowSequenceStart :: rest =>
          readFlowItems handles fuel true (events.push (.sequenceStart p)) rest
        | .flowMappingStart :: rest =>
          readFlowPairs handles fuel true (events.push (.mappingStart p)) rest
        | _ =>
          match rest, block, indentless with
          | .blockEntry :: _, _, true =>
            readIndentless handles fuel (events.push (.sequenceStart p)) rest
          | .blockSequenceStart :: rest, true, _ =>
            readItems handles fuel (events.push (.sequenceStart p)) rest
          | .blockMappingStart :: rest, true, _ =>
            readPairs handles fuel (events.push (.mappingStart p)) rest
          | _, _, _ =>
            if p = {} then .error "did not find expected node content"
            else .ok (events.push (.scalar p "" true), rest)

/-- The items of a block sequence. -/
def readItems (handles : Handles) (fuel : Nat) (events : Array Event) (ts : List Token) :
    Except String (Array Event × List Token) :=
  match fuel with
  | 0 => .error "did not find expected '-' indicator"
  | fuel + 1 =>
    match ts with
    | .blockEntry :: rest =>
      match rest with
      | .blockEntry :: _ | .blockEnd :: _ => readItems handles fuel (events.push empty) rest
      | _ =>
        match readNode handles fuel true false events rest with
        | .ok (events, rest) => readItems handles fuel events rest
        | .error e => .error e
    | .blockEnd :: rest => .ok (events.push .sequenceEnd, rest)
    | _ => .error "did not find expected '-' indicator"

/-- The items of a sequence as deep as the mapping it is in. -/
def readIndentless (handles : Handles) (fuel : Nat) (events : Array Event) (ts : List Token) :
    Except String (Array Event × List Token) :=
  match fuel with
  | 0 => .error "did not find expected '-' indicator"
  | fuel + 1 =>
    match ts with
    | .blockEntry :: rest =>
      match rest with
      | .blockEntry :: _ | .key :: _ | .value :: _ | .blockEnd :: _ =>
        readIndentless handles fuel (events.push empty) rest
      | _ =>
        match readNode handles fuel true false events rest with
        | .ok (events, rest) => readIndentless handles fuel events rest
        | .error e => .error e
    | _ => .ok (events.push .sequenceEnd, ts)

/-- The pairs of a block mapping, from a key. -/
def readPairs (handles : Handles) (fuel : Nat) (events : Array Event) (ts : List Token) :
    Except String (Array Event × List Token) :=
  match fuel with
  | 0 => .error "did not find expected key"
  | fuel + 1 =>
    match ts with
    | .key :: rest =>
      match rest with
      | .key :: _ | .value :: _ | .blockEnd :: _ =>
        readPairValue handles fuel (events.push empty) rest
      | _ =>
        match readNode handles fuel true true events rest with
        | .ok (events, rest) => readPairValue handles fuel events rest
        | .error e => .error e
    | .blockEnd :: rest => .ok (events.push .mappingEnd, rest)
    | _ => .error "did not find expected key"

/-- The value of a pair of a block mapping, and the pairs after it. -/
def readPairValue (handles : Handles) (fuel : Nat) (events : Array Event) (ts : List Token) :
    Except String (Array Event × List Token) :=
  match fuel with
  | 0 => .error "did not find expected key"
  | fuel + 1 =>
    match ts with
    | .value :: rest =>
      match rest with
      | .key :: _ | .value :: _ | .blockEnd :: _ =>
        readPairs handles fuel (events.push empty) rest
      | _ =>
        match readNode handles fuel true true events rest with
        | .ok (events, rest) => readPairs handles fuel events rest
        | .error e => .error e
    | _ => readPairs handles fuel (events.push empty) ts

/-- The items of a sequence in brackets. -/
def readFlowItems (handles : Handles) (fuel : Nat) (first : Bool) (events : Array Event)
    (ts : List Token) : Except String (Array Event × List Token) :=
  match fuel with
  | 0 => .error "did not find expected ',' or ']'"
  | fuel + 1 =>
    match ts, first with
    | .flowSequenceEnd :: rest, _ => .ok (events.push .sequenceEnd, rest)
    | .flowEntry :: .flowSequenceEnd :: rest, false => .ok (events.push .sequenceEnd, rest)
    | .flowEntry :: rest, false => readFlowItem handles fuel events rest
    | _, true => readFlowItem handles fuel events ts
    | _, false => .error "did not find expected ',' or ']'"

/-- One item of a sequence in brackets, which may be a single pair, and the items after it. -/
def readFlowItem (handles : Handles) (fuel : Nat) (events : Array Event) (ts : List Token) :
    Except String (Array Event × List Token) :=
  match fuel with
  | 0 => .error "did not find expected ',' or ']'"
  | fuel + 1 =>
    match ts with
    | .key :: rest =>
      let events := events.push (.mappingStart {})
      let keyed := match rest with
        | .value :: rest | .flowEntry :: rest | .flowSequenceEnd :: rest =>
          Except.ok (events.push empty, rest)
        | _ => readNode handles fuel false false events rest
      match keyed with
      | .error e => .error e
      | .ok (events, rest) =>
        let valued := match rest with
          | .value :: .flowEntry :: _ | .value :: .flowSequenceEnd :: _ =>
            Except.ok (events.push empty, rest.tail)
          | .value :: rest => readNode handles fuel false false events rest
          | _ => Except.ok (events.push empty, rest)
        match valued with
        | .error e => .error e
        | .ok (events, rest) => readFlowItems handles fuel false (events.push .mappingEnd) rest
    | _ =>
      match readNode handles fuel false false events ts with
      | .ok (events, rest) => readFlowItems handles fuel false events rest
      | .error e => .error e

/-- The pairs of a mapping in braces. -/
def readFlowPairs (handles : Handles) (fuel : Nat) (first : Bool) (events : Array Event)
    (ts : List Token) : Except String (Array Event × List Token) :=
  match fuel with
  | 0 => .error "did not find expected ',' or '\x7d'"
  | fuel + 1 =>
    match ts, first with
    | .flowMappingEnd :: rest, _ => .ok (events.push .mappingEnd, rest)
    | .flowEntry :: .flowMappingEnd :: rest, false => .ok (events.push .mappingEnd, rest)
    | .flowEntry :: rest, false => readFlowPair handles fuel events rest
    | _, true => readFlowPair handles fuel events ts
    | _, false => .error "did not find expected ',' or '\x7d'"

/-- One pair of a mapping in braces, and the pairs after it. -/
def readFlowPair (handles : Handles) (fuel : Nat) (events : Array Event) (ts : List Token) :
    Except String (Array Event × List Token) :=
  match fuel with
  | 0 => .error "did not find expected ',' or '\x7d'"
  | fuel + 1 =>
    match ts with
    | .key :: rest =>
      let keyed := match rest with
        | .value :: _ | .flowEntry :: _ | .flowMappingEnd :: _ =>
          Except.ok (events.push empty, rest)
        | _ => readNode handles fuel false false events rest
      match keyed with
      | .error e => .error e
      | .ok (events, rest) =>
        let valued := match rest with
          | .value :: .flowEntry :: _ | .value :: .flowMappingEnd :: _ =>
            Except.ok (events.push empty, rest.tail)
          | .value :: rest => readNode handles fuel false false events rest
          | _ => Except.ok (events.push empty, rest)
        match valued with
        | .error e => .error e
        | .ok (events, rest) => readFlowPairs handles fuel false events rest
    | _ =>
      match readNode handles fuel false false events ts with
      | .ok (events, rest) => readFlowPairs handles fuel false (events.push empty) rest
      | .error e => .error e

end

/-- The directives in front of a document, given the version and the handles read so far. -/
def readDirectives (version : Bool) (handles : Handles) :
    List Token → Except String (Handles × List Token)
  | .versionDirective major minor :: rest =>
    if version then .error "found duplicate %YAML directive"
    else if major != 1 || (minor != 1 && minor != 2) then .error "found incompatible YAML document"
    else readDirectives true handles rest
  | .tagDirective handle start :: rest =>
    if (handles.lookup handle).isSome then .error "found duplicate %TAG directive"
    else readDirectives version (handles ++ [(handle, start)]) rest
  | ts => .ok (handles ++ defaultHandles, ts)

/-- What may stand after a document: nothing but its end marks. -/
def readEnd : List Token → Except String Unit
  | [] => .ok ()
  | .documentEnd :: rest => readEnd rest
  | _ => .error "deserializing from YAML containing more than one document is not supported"

/-- Whether a token stands before or between documents. -/
def isOutside : Token → Bool
  | .versionDirective .. | .tagDirective .. | .documentStart => true
  | _ => false

/-- The events of the one document of a text; `none` for a text without any. -/
def ofTokens? (tokens : Array Token) : Except String (Option (Array Event)) := do
  let fuel := 4 * tokens.size + 4
  match tokens.toList with
  | [] => return none
  | t :: ts =>
    if isOutside t then
      let (handles, rest) ← readDirectives false [] (t :: ts)
      match rest with
      | .documentStart :: rest =>
        match rest with
        | [] => return some #[empty]
        | u :: _ =>
          if isOutside u || u = .documentEnd then
            readEnd rest
            return some #[empty]
          else
            let (events, rest) ← readNode handles fuel true false #[] rest
            readEnd rest
            return some events
      | _ => .error "did not find expected <document start>"
    else
      let (events, rest) ← readNode defaultHandles fuel true false #[] (t :: ts)
      readEnd rest
      return some events

end Event
end Yaml
end ProcessKit
