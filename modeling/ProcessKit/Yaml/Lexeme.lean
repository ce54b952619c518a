/-
# The lexemes of YAML

Scalars of the five styles, tags, anchors and directives, each read from a cursor at its first
character. A plain or quoted scalar folds a single line end into a space and keeps the others; a
block scalar takes its indentation from its first line unless a digit gives it, and its chomping
from a sign.
-/

import ProcessKit.Yaml.Cursor
import ProcessKit.Text.Utf8

namespace ProcessKit
namespace Yaml

/-- Blanks and line ends between two parts of a scalar. -/
structure Gap where
  /-- Blanks on one line. -/
  blanks : List Char := []
  /-- The first line end. -/
  first : Option (List Char) := none
  /-- The line ends after it. -/
  later : List Char := []

namespace Gap

/-- What a gap adds to the text: its blanks, or for one line end a space, for more those after the
first. -/
def text (g : Gap) : List Char :=
  match g.first with
  | none => g.blanks
  | some ['\n'] => if g.later = [] then [' '] else g.later
  | some first => first ++ g.later

/-- Reads blanks and line ends; a tab before column `indent` on a new line is refused. -/
def read (indent : Int) (g : Gap) (c : Cursor) : Nat → Except String (Gap × Cursor)
  | 0 => .ok (g, c)
  | fuel + 1 =>
    match c.peek? with
    | none => .ok (g, c)
    | some ch =>
      if isBlank ch then
        if g.first.isSome && (c.column : Int) < indent && ch == '\t' then
          c.fault "found a tab character that violates indentation"
        else if g.first.isNone then read indent { g with blanks := g.blanks ++ [ch] } c.skip fuel
        else read indent g c.skip fuel
      else if isBreak ch then
        let (text, c) := c.readBreak
        if g.first.isNone then read indent { blanks := [], first := some text, later := [] } c fuel
        else read indent { g with later := g.later ++ text } c fuel
      else .ok (g, c)

end Gap

/-- The characters that end a plain scalar inside brackets. -/
def isFlowEnd (c : Char) : Bool := c == ',' || c == '[' || c == ']' || c == '{' || c == '}'

/-- One run of a plain scalar, up to a blank or a character that ends it. -/
def readPlainRun (inFlow : Bool) (c : Cursor) : Nat → Except String (List Char × Cursor)
  | 0 => .ok ([], c)
  | fuel + 1 =>
    match c.peek? with
    | none => .ok ([], c)
    | some ch =>
      if isBlank ch || isBreak ch then .ok ([], c)
      else if inFlow && ch == ':' && (c.peekAt? 1).any (fun d => isFlowEnd d || d == '?') then
        c.fault "found unexpected ':'"
      else if (ch == ':' && c.gapAt 1) || (inFlow && isFlowEnd ch) then .ok ([], c)
      else do
        let (more, c) ← readPlainRun inFlow c.skip fuel
        .ok (ch :: more, c)

/-- A plain scalar after the text read so far and the gap behind it. The last part tells whether the
scalar was followed by a line end. -/
def readPlain (inFlow : Bool) (indent : Int) (g : Gap) (c : Cursor) :
    Nat → Except String (List Char × Cursor × Bool)
  | 0 => .ok ([], c, g.first.isSome)
  | fuel + 1 =>
    if c.atMarker || c.sees '#' then .ok ([], c, g.first.isSome)
    else do
      let (run, next) ← readPlainRun inFlow c (c.rest.length + 1)
      let before := if run = [] then [] else g.text
      let pending := if run = [] then g else {}
      if !(next.blankAt 0 || next.breakAt 0) then .ok (before ++ run, next, pending.first.isSome)
      else
        let (g, next) ← Gap.read indent pending next (next.rest.length + 1)
        if !inFlow && (next.column : Int) < indent then
          .ok (before ++ run, next, g.first.isSome)
        else
          let (more, next, broken) ← readPlain inFlow indent g next fuel
          .ok (before ++ run ++ more, next, broken)

/-- The value of hexadecimal digits. -/
def hexNumber? (cs : List Char) : Option Nat :=
  cs.foldl (fun n c => n.bind fun n =>
    if c.isDigit then some (n * 16 + (c.toNat - 48))
    else if 'a' ≤ c ∧ c ≤ 'f' then some (n * 16 + (c.toNat - 87))
    else if 'A' ≤ c ∧ c ≤ 'F' then some (n * 16 + (c.toNat - 55))
    else none) (some 0)

/-- The character of a one-letter escape. -/
def simpleEscape? : Char → Option Char
  | '0' => some '\x00'
  | 'a' => some '\x07'
  | 'b' => some '\x08'
  | 't' => some '\t'
  | '\t' => some '\t'
  | 'n' => some '\n'
  | 'v' => some '\x0b'
  | 'f' => some '\x0c'
  | 'r' => some '\r'
  | 'e' => some '\x1b'
  | ' ' => some ' '
  | '"' => some '"'
  | '/' => some '/'
  | '\\' => some '\\'
  | 'N' => some '\u0085'
  | '_' => some '\u00a0'
  | 'L' => some '\u2028'
  | 'P' => some '\u2029'
  | _ => none

/-- How many digits follow a numeric escape. -/
def escapeDigits? : Char → Option Nat
  | 'x' => some 2
  | 'u' => some 4
  | 'U' => some 8
  | _ => none

/-- An escape other than that of a line end, from its backslash. -/
def readEscape (c : Cursor) : Except String (Char × Cursor) :=
  match c.peekAt? 1 with
  | none => c.fault "found unknown escape character"
  | some ch =>
    match simpleEscape? ch, escapeDigits? ch with
    | some value, _ => .ok (value, c.skipMany 2)
    | none, some n =>
      let digits := (c.skipMany 2).rest.take n
      match hexNumber? digits with
      | some code =>
        if digits.length < n then c.fault "did not find expected hexdecimal number"
        else if (0xD800 ≤ code && code ≤ 0xDFFF) || 0x10FFFF < code then
          c.fault "found invalid Unicode character escape code"
        else .ok (Char.ofNat code, c.skipMany (2 + n))
      | none => c.fault "did not find expected hexdecimal number"
    | none, none => c.fault "found unknown escape character"

/-- One run of a quoted scalar, up to a blank, a line end or the closing quote. The flag tells
whether it ended in an escaped line end. -/
def readQuotedRun (single : Bool) (c : Cursor) : Nat → Except String (List Char × Cursor × Bool)
  | 0 => .ok ([], c, false)
  | fuel + 1 =>
    match c.peek? with
    | none => .ok ([], c, false)
    | some ch =>
      if isBlank ch || isBreak ch then .ok ([], c, false)
      else if single && ch == '\'' && c.peekAt? 1 == some '\'' then do
        let (more, c, joined) ← readQuotedRun single (c.skipMany 2) fuel
        .ok ('\'' :: more, c, joined)
      else if ch == (if single then '\'' else '"') then .ok ([], c, false)
      else if !single && ch == '\\' && c.breakAt 1 then .ok ([], c.skip.readBreak.2, true)
      else if !single && ch == '\\' then do
        let (value, c) ← readEscape c
        let (more, c, joined) ← readQuotedRun single c fuel
        .ok (value :: more, c, joined)
      else do
        let (more, c, joined) ← readQuotedRun single c.skip fuel
        .ok (ch :: more, c, joined)

/-- A quoted scalar, from the character after its opening quote. -/
def readQuoted (single : Bool) (c : Cursor) : Nat → Except String (List Char × Cursor)
  | 0 => c.fault "found unexpected end of stream"
  | fuel + 1 => do
    if c.atMarker then c.fault "found unexpected document indicator"
    else if c.endsAt 0 then c.fault "found unexpected end of stream"
    else
      let (run, c, joined) ← readQuotedRun single c (c.rest.length + 1)
      if c.sees (if single then '\'' else '"') then .ok (run, c.skip)
      else
        let start : Gap := if joined then { first := some [] } else {}
        let (g, c) ← Gap.read (-1) start c (c.rest.length + 1)
        let (more, c) ← readQuoted single c fuel
        .ok (run ++ g.text ++ more, c)

/-- Empty lines of a block scalar, and the indentation when it is not known yet. -/
def readBlockBreaks (parent : Int) (indent : Nat) (widest : Nat) (c : Cursor) :
    Nat → Except String (List Char × Nat × Cursor)
  | 0 => .ok ([], indent, c)
  | fuel + 1 =>
    let spaces := c.rest.takeWhile (· == ' ')
    let n := if indent = 0 then spaces.length else min spaces.length (indent - c.column)
    let c := c.skipMany n
    let widest := max widest c.column
    if (indent = 0 || c.column < indent) && c.sees '\t' then
      c.fault "found a tab character where an indentation space is expected"
    else if c.breakAt 0 then do
      let (text, c) := c.readBreak
      let (more, indent, c) ← readBlockBreaks parent indent widest c fuel
      .ok (text ++ more, indent, c)
    else
      .ok ([], if indent = 0 then max (max widest (parent + 1).toNat) 1 else indent, c)

/-- The lines of a block scalar after a line end `last` and empty lines `breaks`; `blank` tells
whether the line before started with a blank. The last two parts are the last line end and the
empty lines after it. -/
def readBlockLines (literal : Bool) (indent : Nat) (last breaks : List Char) (blank : Bool)
    (c : Cursor) : Nat → Except String (List Char × List Char × List Char × Cursor)
  | 0 => .ok ([], last, breaks, c)
  | fuel + 1 =>
    if c.column != indent || c.endsAt 0 then .ok ([], last, breaks, c)
    else do
      let blankNow := c.blankAt 0
      let before :=
        if !literal && last == ['\n'] && !blank && !blankNow then
          (if breaks = [] then [' '] else []) ++ breaks
        else last ++ breaks
      let (line, c) := c.readWhile fun ch => !isBreak ch
      let (last, c) := c.readBreak
      let (breaks, _, c) ← readBlockBreaks 0 indent 0 c (c.rest.length + 1)
      let (more, last, breaks, c) ← readBlockLines literal indent last breaks blankNow c fuel
      .ok (before ++ line ++ more, last, breaks, c)

/-- The sign and the digit of a block scalar, in either order. -/
def readBlockHeader (c : Cursor) : Except String (Option Char × Nat × Cursor) :=
  let sign (c : Cursor) : Option Char × Cursor :=
    match c.peek? with
    | some '+' => (some '+', c.skip)
    | some '-' => (some '-', c.skip)
    | _ => (none, c)
  let digit (c : Cursor) : Except String (Nat × Cursor) :=
    match c.peek? with
    | some '0' => c.fault "found an indentation indicator equal to 0"
    | some ch => if ch.isDigit then .ok (ch.toNat - 48, c.skip) else .ok (0, c)
    | none => .ok (0, c)
  match sign c with
  | (some s, c) => do
    let (n, c) ← digit c
    .ok (some s, n, c)
  | (none, c) => do
    let (n, c) ← digit c
    if n = 0 then .ok (none, 0, c)
    else
      let (s, c) := sign c
      .ok (s, n, c)

/-- A block scalar inside a block of indentation `parent`, from its indicator. -/
def readBlock (literal : Bool) (parent : Int) (c : Cursor) :
    Except String (List Char × Cursor) := do
  let (sign, step, c) ← readBlockHeader c.skip
  let c := c.skipWhile isBlank
  let c := if c.sees '#' then c.skipLine else c
  if !c.lineEnds then c.fault "did not find expected comment or line break"
  else
    let c := c.readBreak.2
    let indent := if step = 0 then 0 else (if 0 ≤ parent then parent.toNat + step else step)
    let (breaks, indent, c) ← readBlockBreaks parent indent 0 c (c.rest.length + 1)
    let (text, last, breaks, c) ←
      readBlockLines literal indent [] breaks false c (c.rest.length + 1)
    let ending := (if sign = some '-' then [] else last) ++ (if sign = some '+' then breaks else [])
    .ok (text ++ ending, c)

/-- The name after an anchor or alias sign. -/
def readAnchor (c : Cursor) : Except String (String × Cursor) :=
  let (name, next) := c.skip.readWhile isWord
  let ends := next.gapAt 0 ||
    (next.peek?).any fun ch => "?:,]\x7d%@\x60".toList.contains ch
  if name = [] || !ends then c.fault "did not find expected alphabetic or numeric character"
  else .ok (String.ofList name, next)

/-- A character of a tag; brackets and commas only in a verbatim one. -/
def isTagChar (verbatim : Bool) (c : Char) : Bool :=
  isWord c || ";/?:@&=+$.!~*'()%".toList.contains c || (verbatim && ",[]".toList.contains c)

/-- How many bytes a character has that starts with a byte, judged by its highest bits. -/
def octetWidth? (b : UInt8) : Option Nat :=
  if b < 0x80 then some 1
  else if b < 0xC0 then none
  else if b < 0xE0 then some 2
  else if b < 0xF0 then some 3
  else if b < 0xF8 then some 4
  else none

/-- The bytes of a tag with its percent escapes undone, when `owed` more bytes of a character must
be escaped. -/
def unescapeTag (owed : Nat) : List Char → Option Bytes
  | '%' :: a :: b :: rest => do
    let byte := (← hexNumber? [a, b]).toUInt8
    if owed = 0 then return byte :: (← unescapeTag ((← octetWidth? byte) - 1) rest)
    else if 0x80 ≤ byte ∧ byte < 0xC0 then return byte :: (← unescapeTag (owed - 1) rest)
    else none
  | '%' :: _ => none
  | c :: rest =>
    if owed = 0 then do return String.utf8EncodeChar c ++ (← unescapeTag 0 rest) else none
  | [] => if owed = 0 then some [] else none

/-- The bytes of a tag's suffix, which a zero byte ends, and whether anything was written there. -/
def readTagText (verbatim : Bool) (c : Cursor) : Except String (Bytes × Bool × Cursor) :=
  let (text, next) := c.readWhile (isTagChar verbatim)
  match unescapeTag 0 text with
  | some bytes => .ok (bytes.takeWhile (· != 0), !text.isEmpty, next)
  | none => c.fault "did not find URI escaped octet"

/-- The handle at the start of a tag, with both its exclamation marks if it has two. -/
def readTagHandle (c : Cursor) : String × Cursor :=
  let (name, next) := c.skip.readWhile isWord
  if next.sees '!' then (String.ofList ('!' :: name ++ ['!']), next.skip)
  else (String.ofList ('!' :: name), next)

/-- A tag as its handle and suffix, from its exclamation mark. -/
def readTag (inFlow : Bool) (c : Cursor) : Except String ((String × Bytes) × Cursor) := do
  let (tag, next) ←
    if c.peekAt? 1 == some '<' then do
      let (bytes, written, next) ← readTagText true (c.skipMany 2)
      if !written then c.fault "did not find expected tag URI"
      else if !next.sees '>' then c.fault "did not find the expected '>'"
      else .ok (("", bytes), next.skip)
    else
      let (handle, next) := readTagHandle c
      let (bytes, written, next) ← readTagText false next
      if handle.length > 1 && handle.toList.getLast? == some '!' then
        if !written then c.fault "did not find expected tag URI" else .ok ((handle, bytes), next)
      else
        let suffix := Utf8.encode (String.ofList (handle.toList.drop 1)) ++ bytes
        .ok (if suffix = [] then ("", Utf8.encode "!") else ("!", suffix), next)
  if next.gapAt 0 || (inFlow && next.sees ',') then .ok (tag, next)
  else c.fault "did not find expected whitespace or line break"

/-- A number of at most nine digits. -/
def readVersionNumber (c : Cursor) : Except String (Nat × Cursor) :=
  let (digits, next) := c.readWhile Char.isDigit
  if digits = [] || 9 < digits.length then c.fault "did not find expected version number"
  else .ok (digits.foldl (fun n d => n * 10 + (d.toNat - 48)) 0, next)

end Yaml
end ProcessKit
