/-
# The tokens of a YAML text

Indentation becomes structure here: `Token.scan` puts a start token before the first item of a
block and an end token after its last one. A key is recognised only when its colon is met, so a
place where a key may start is remembered, one for each level of brackets, and the key token is put
in there afterwards. Such a place is forgotten at the end of its line or after 1024 bytes. A byte
order mark is passed over at the start of a line, where it takes up a column.
-/

import ProcessKit.Yaml.Lexeme

namespace ProcessKit
namespace Yaml

/-- A token. -/
inductive Token where
  | versionDirective (major minor : Nat)
  | tagDirective (handle : String) (start : Bytes)
  | documentStart
  | documentEnd
  | blockSequenceStart
  | blockMappingStart
  | blockEnd
  | flowSequenceStart
  | flowSequenceEnd
  | flowMappingStart
  | flowMappingEnd
  | blockEntry
  | flowEntry
  | key
  | value
  | alias (name : String)
  | anchor (name : String)
  | tag (handle : String) (suffix : Bytes)
  | scalar (text : String) (plain : Bool)
  deriving DecidableEq, Repr, Inhabited

/-- A place where a key may have started. -/
structure KeyPlace where
  /-- How many tokens there were. -/
  number : Nat
  /-- Whether a key must have started there. -/
  required : Bool
  index : Nat
  line : Nat
  column : Nat

/-- The scanner between two tokens. -/
structure Scanner where
  cursor : Cursor
  tokens : Array Token := #[]
  /-- The column of the innermost block, `-1` outside all blocks. -/
  indent : Int := -1
  /-- The columns of the blocks around it. -/
  outer : List Int := []
  /-- The places of keys at the levels of brackets around the current one, the inner ones first. -/
  outerKeys : List (Option KeyPlace) := []
  /-- The place of a key at the current level. -/
  keyPlace : Option KeyPlace := none
  /-- Whether a key may start here. -/
  keyAllowed : Bool := true

namespace Scanner

/-- Whether the scanner is inside brackets. -/
def inFlow (s : Scanner) : Bool := !s.outerKeys.isEmpty

/-- The scanner with one more token. -/
def emit (s : Scanner) (t : Token) : Scanner := { s with tokens := s.tokens.push t }

/-- The scanner with a token put in before those from a number on. -/
def insert (s : Scanner) (number : Nat) (t : Token) : Scanner :=
  { s with tokens := (s.tokens.take number).push t ++ s.tokens.drop number }

/-- Whether the place of a key can no longer be one: it is on an earlier line or too far back. -/
def isStale (s : Scanner) (k : KeyPlace) : Bool :=
  k.line < s.cursor.line || k.index + 1024 < s.cursor.index

/-- Forgets places of keys that can no longer be ones. -/
def dropStale (s : Scanner) : Except String Scanner :=
  let stale (k : Option KeyPlace) : Bool := k.any s.isStale
  let keep (k : Option KeyPlace) : Option KeyPlace := if stale k then none else k
  if (s.keyPlace :: s.outerKeys).any fun k => stale k && k.any (·.required) then
    s.cursor.fault "could not find expected ':'"
  else .ok { s with keyPlace := keep s.keyPlace, outerKeys := s.outerKeys.map keep }

/-- Forgets the place of a key at the current level. -/
def removeKey (s : Scanner) : Except String Scanner :=
  if s.keyPlace.any (·.required) then s.cursor.fault "could not find expected ':'"
  else .ok { s with keyPlace := none }

/-- Remembers this place if a key may start here. -/
def saveKey (s : Scanner) : Except String Scanner :=
  if !s.keyAllowed then .ok s
  else do
    let s ← s.removeKey
    let c := s.cursor
    let place : KeyPlace := {
      number := s.tokens.size
      required := !s.inFlow && s.indent == c.column
      index := c.index
      line := c.line
      column := c.column }
    .ok { s with keyPlace := some place }

/-- Opens a block at a column unless the current one is as deep; its start token goes in before the
token of a number. -/
def openBlock (s : Scanner) (column : Int) (number : Nat) (start : Token) : Scanner :=
  if s.inFlow || column ≤ s.indent then s
  else { s.insert number start with indent := column, outer := s.indent :: s.outer }

/-- Closes the blocks that are deeper than a column. -/
def closeBlocks (s : Scanner) (column : Int) : Scanner :=
  if s.inFlow then s else go s s.outer
where
  /-- Closes blocks while there are any. -/
  go (s : Scanner) : List Int → Scanner
    | [] => s
    | indent :: outer =>
      if column < s.indent then go { s.emit .blockEnd with indent, outer } outer else s

/-- Past blanks, comments and line ends. A tab is a blank only where no key may start. -/
def skipGaps (s : Scanner) : Nat → Scanner
  | 0 => s
  | fuel + 1 =>
    let tabs := s.inFlow || !s.keyAllowed
    let c := if s.cursor.column == 0 && s.cursor.sees '\uFEFF' then s.cursor.skip else s.cursor
    let c := c.skipWhile fun ch => ch == ' ' || (tabs && ch == '\t')
    let c := if c.sees '#' then c.skipLine else c
    if c.breakAt 0 then
      skipGaps
        { s with cursor := c.readBreak.2, keyAllowed := s.keyAllowed || !s.inFlow } fuel
    else { s with cursor := c }

/-- The scanner outside all blocks, where no key may start. -/
def outermost (s : Scanner) : Except String Scanner := do
  let s ← (s.closeBlocks (-1)).removeKey
  .ok { s with keyAllowed := false }

/-- A directive. -/
def scanDirective (s : Scanner) : Except String Scanner := do
  let s ← s.outermost
  let (name, c) := s.cursor.skip.readWhile isWord
  let (token, c) ←
    if name = "YAML".toList && c.gapAt 0 then do
      let (major, c) ← readVersionNumber (c.skipWhile isBlank)
      if !c.sees '.' then c.fault "did not find expected digit or '.' character"
      else
        let (minor, c) ← readVersionNumber c.skip
        .ok (Token.versionDirective major minor, c)
    else if name = "TAG".toList && c.gapAt 0 then do
      let start := c.skipWhile isBlank
      let (handle, c) := readTagHandle start
      if !start.sees '!' then c.fault "did not find expected '!'"
      else if handle.length > 1 && handle.toList.getLast? != some '!' then
        c.fault "did not find expected '!'"
      else if !c.blankAt 0 then c.fault "did not find expected whitespace"
      else
        let (start, written, c) ← readTagText true (c.skipWhile isBlank)
        if !written then c.fault "did not find expected tag URI"
        else if !c.gapAt 0 then c.fault "did not find expected whitespace or line break"
        else .ok (Token.tagDirective handle start, c)
    else c.fault "found unknown directive name"
  let c := c.skipWhile isBlank
  let c := if c.sees '#' then c.skipLine else c
  if !c.lineEnds then c.fault "did not find expected comment or line break"
  else .ok ({ s with cursor := c.readBreak.2 }.emit token)

/-- A document marker. -/
def scanMarker (s : Scanner) (token : Token) : Except String Scanner := do
  let s ← s.outermost
  .ok ({ s with cursor := s.cursor.skipMany 3 }.emit token)

/-- An opening bracket or brace. -/
def scanOpen (s : Scanner) (token : Token) : Except String Scanner := do
  let s ← s.saveKey
  .ok ({ s with
    outerKeys := s.keyPlace :: s.outerKeys, keyPlace := none, keyAllowed := true,
    cursor := s.cursor.skip }.emit token)

/-- A closing bracket or brace. -/
def scanClose (s : Scanner) (token : Token) : Except String Scanner := do
  let s ← s.removeKey
  let (keyPlace, outerKeys) := match s.outerKeys with
    | k :: ks => (k, ks)
    | [] => (s.keyPlace, [])
  .ok ({ s with keyPlace, outerKeys, keyAllowed := false, cursor := s.cursor.skip }.emit token)

/-- A comma between items in brackets. -/
def scanFlowEntry (s : Scanner) : Except String Scanner := do
  let s ← s.removeKey
  .ok ({ s with keyAllowed := true, cursor := s.cursor.skip }.emit .flowEntry)

/-- The dash of a block item. -/
def scanBlockEntry (s : Scanner) : Except String Scanner := do
  if !s.inFlow && !s.keyAllowed then
    s.cursor.fault "block sequence entries are not allowed in this context"
  else
    let s := s.openBlock s.cursor.column s.tokens.size .blockSequenceStart
    let s ← s.removeKey
    .ok ({ s with keyAllowed := true, cursor := s.cursor.skip }.emit .blockEntry)

/-- The question mark of a key. -/
def scanKey (s : Scanner) : Except String Scanner := do
  if !s.inFlow && !s.keyAllowed then
    s.cursor.fault "mapping keys are not allowed in this context"
  else
    let s := s.openBlock s.cursor.column s.tokens.size .blockMappingStart
    let s ← s.removeKey
    .ok ({ s with keyAllowed := !s.inFlow, cursor := s.cursor.skip }.emit .key)

/-- The colon of a value. -/
def scanValue (s : Scanner) : Except String Scanner :=
  match s.keyPlace with
  | some k =>
    let s := (s.insert k.number .key).openBlock k.column k.number .blockMappingStart
    .ok ({ s with keyPlace := none, keyAllowed := false, cursor := s.cursor.skip }.emit .value)
  | none =>
    if !s.inFlow && !s.keyAllowed then
      s.cursor.fault "mapping values are not allowed in this context"
    else
      let s := s.openBlock s.cursor.column s.tokens.size .blockMappingStart
      .ok ({ s with keyAllowed := !s.inFlow, cursor := s.cursor.skip }.emit .value)

/-- An anchor or an alias. -/
def scanAnchor (s : Scanner) (token : String → Token) : Except String Scanner := do
  let s ← s.saveKey
  let (name, cursor) ← readAnchor s.cursor
  .ok ({ s with keyAllowed := false, cursor }.emit (token name))

/-- A tag. -/
def scanTag (s : Scanner) : Except String Scanner := do
  let s ← s.saveKey
  let ((handle, suffix), cursor) ← readTag s.inFlow s.cursor
  .ok ({ s with keyAllowed := false, cursor }.emit (.tag handle suffix))

/-- A block scalar. -/
def scanBlock (s : Scanner) (literal : Bool) : Except String Scanner := do
  let s ← s.removeKey
  let (text, cursor) ← readBlock literal s.indent s.cursor
  .ok ({ s with keyAllowed := true, cursor }.emit (.scalar (String.ofList text) false))

/-- A quoted scalar. -/
def scanQuoted (s : Scanner) (single : Bool) : Except String Scanner := do
  let s ← s.saveKey
  let (text, cursor) ← readQuoted single s.cursor.skip (s.cursor.rest.length + 1)
  .ok ({ s with keyAllowed := false, cursor }.emit (.scalar (String.ofList text) false))

/-- A plain scalar. -/
def scanPlain (s : Scanner) : Except String Scanner := do
  let s ← s.saveKey
  let (text, cursor, broken) ←
    readPlain s.inFlow (s.indent + 1) {} s.cursor (s.cursor.rest.length + 1)
  .ok ({ s with keyAllowed := broken, cursor }.emit (.scalar (String.ofList text) true))

/-- Whether a plain scalar may start with a character, given what comes after it. -/
def startsPlain (s : Scanner) (ch : Char) : Bool :=
  !(isBlank ch || "-?:,[]\x7b\x7d#&*!|>'\"%@\x60".toList.contains ch) ||
    (ch == '-' && !s.cursor.blankAt 1) ||
    (!s.inFlow && (ch == '?' || ch == ':') && !s.cursor.gapAt 1)

/-- The next token, at a place that is not the end of the text. -/
def scanNext (s : Scanner) (ch : Char) : Except String Scanner :=
  let c := s.cursor
  if c.column == 0 && ch == '%' then s.scanDirective
  else if c.atMarker then s.scanMarker (if ch == '-' then .documentStart else .documentEnd)
  else if ch == '[' then s.scanOpen .flowSequenceStart
  else if ch == '{' then s.scanOpen .flowMappingStart
  else if ch == ']' then s.scanClose .flowSequenceEnd
  else if ch == '}' then s.scanClose .flowMappingEnd
  else if ch == ',' then s.scanFlowEntry
  else if ch == '-' && c.gapAt 1 then s.scanBlockEntry
  else if ch == '?' && (s.inFlow || c.gapAt 1) then s.scanKey
  else if ch == ':' && (s.inFlow || c.gapAt 1) then s.scanValue
  else if ch == '*' then s.scanAnchor .alias
  else if ch == '&' then s.scanAnchor .anchor
  else if ch == '!' then s.scanTag
  else if ch == '|' && !s.inFlow then s.scanBlock true
  else if ch == '>' && !s.inFlow then s.scanBlock false
  else if ch == '\'' then s.scanQuoted true
  else if ch == '"' then s.scanQuoted false
  else if s.startsPlain ch then s.scanPlain
  else c.fault "found character that cannot start any token"

/-- All tokens to the end of the text. -/
def scanAll (s : Scanner) : Nat → Except String (Array Token)
  | 0 => s.cursor.fault "found no end of the stream"
  | fuel + 1 => do
    let s ← (s.skipGaps (s.cursor.rest.length + 1)).dropStale
    let s := s.closeBlocks s.cursor.column
    match s.cursor.peek? with
    | some ch => (← s.scanNext ch).scanAll fuel
    | none => return (← s.outermost).tokens

end Scanner

/-- Whether a character may stand in a YAML text. -/
def isAllowed (c : Char) : Bool :=
  let n := c.toNat
  n == 9 || n == 10 || n == 13 || (0x20 ≤ n && n ≤ 0x7E) || n == 0x85 || (0xA0 ≤ n && n ≤ 0xD7FF)
    || (0xE000 ≤ n && n ≤ 0xFFFD) || 0x10000 ≤ n

/-- The tokens of a text. -/
def Token.scan (text : String) : Except String (Array Token) :=
  let chars := text.toList
  if chars.all isAllowed then { cursor := { rest := chars } : Scanner }.scanAll (chars.length + 1)
  else .error "control characters are not allowed"

end Yaml
end ProcessKit
