/-
# A place in a YAML text

A cursor is the text still to be read with its line and column. A line may end in a carriage
return, a line feed, both, a next-line character, or one of the two separators U+2028 and U+2029;
all but the separators read as a line feed.
-/

import ProcessKit.Text.Utf8

namespace ProcessKit
namespace Yaml

/-- The text still to be read, and where it starts: the bytes before it, the line, and the column in
characters, all counted from zero. -/
structure Cursor where
  rest : List Char
  index : Nat := 0
  line : Nat := 0
  column : Nat := 0
  deriving Inhabited

/-- A space or a tab. -/
def isBlank (c : Char) : Bool := c == ' ' || c == '\t'

/-- A character that ends a line. -/
def isBreak (c : Char) : Bool :=
  c == '\n' || c == '\r' || c == '\u0085' || c == '\u2028' || c == '\u2029'

/-- A letter, a digit, `_` or `-`. -/
def isWord (c : Char) : Bool := c.isAlphanum || c == '_' || c == '-'

namespace Cursor

/-- The next character. -/
def peek? (c : Cursor) : Option Char := c.rest.head?

/-- The character `n` places further. -/
def peekAt? (c : Cursor) (n : Nat) : Option Char := c.rest[n]?

/-- Whether the next character is this one. -/
def sees (c : Cursor) (ch : Char) : Bool := c.peek? == some ch

/-- Whether the text has ended `n` places further. -/
def endsAt (c : Cursor) (n : Nat) : Bool := (c.peekAt? n).isNone

/-- Whether there is a blank `n` places further. -/
def blankAt (c : Cursor) (n : Nat) : Bool := (c.peekAt? n).any isBlank

/-- Whether there is a line end `n` places further. -/
def breakAt (c : Cursor) (n : Nat) : Bool := (c.peekAt? n).any isBreak

/-- Whether there is a blank, a line end or the end of the text `n` places further. -/
def gapAt (c : Cursor) (n : Nat) : Bool :=
  match c.peekAt? n with
  | some ch => isBlank ch || isBreak ch
  | none => true

/-- Whether there is a line end or the end of the text here. -/
def lineEnds (c : Cursor) : Bool :=
  match c.peek? with
  | some ch => isBreak ch
  | none => true

/-- Past one character. -/
def skip (c : Cursor) : Cursor :=
  { c with
    rest := c.rest.tail, index := c.index + Utf8.byteCount (c.rest.take 1), column := c.column + 1 }

/-- Past `n` characters. -/
def skipMany (c : Cursor) : Nat → Cursor
  | 0 => c
  | n + 1 => c.skip.skipMany n

/-- Past a line end, with the text it stands for. -/
def readBreak (c : Cursor) : List Char × Cursor :=
  let next (rest : List Char) (n : Nat) : Cursor :=
    { rest, index := c.index + n, line := c.line + 1, column := 0 }
  match c.rest with
  | '\r' :: '\n' :: rest => (['\n'], next rest 2)
  | ch :: rest =>
    if ch == '\u2028' || ch == '\u2029' then ([ch], next rest ch.utf8Size)
    else if isBreak ch then (['\n'], next rest ch.utf8Size)
    else ([], c)
  | [] => ([], c)

/-- Past characters that satisfy a test, with those characters. -/
def readWhile (test : Char → Bool) (c : Cursor) : List Char × Cursor :=
  let read := c.rest.takeWhile test
  let n := read.length
  (read, { c with
    rest := c.rest.drop n, index := c.index + Utf8.byteCount read, column := c.column + n })

/-- Past characters that satisfy a test. -/
def skipWhile (test : Char → Bool) (c : Cursor) : Cursor := (c.readWhile test).2

/-- Past the rest of the line, but not its end. -/
def skipLine (c : Cursor) : Cursor := c.skipWhile fun ch => !isBreak ch

/-- Whether a document marker, three dashes or three dots, starts the line here. -/
def atMarker (c : Cursor) : Bool :=
  c.column == 0 && (c.rest.take 3 == ['-', '-', '-'] || c.rest.take 3 == ['.', '.', '.'])
    && c.gapAt 3

/-- A message with the place of the cursor. -/
def fault {α : Type} (c : Cursor) (message : String) : Except String α :=
  .error (message ++ " at line " ++ toString (c.line + 1) ++ " column " ++ toString (c.column + 1))

end Cursor
end Yaml
end ProcessKit
