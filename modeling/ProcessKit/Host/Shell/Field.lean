/-
# Fields

An expanded word is a list of fragments: texts as they are written, and values, which are split
where they are not quoted. The separators are white space, of which any number counts as one, and
other characters, each of which ends a field.
-/

import ProcessKit.Host.Shell.Pattern

namespace ProcessKit
namespace Shell

/-- A part of an expanded word. -/
inductive Fragment where
  | text (quoted : Bool) (chars : List Char)
  /-- An unquoted value, which separators split. -/
  | value (chars : List Char)
  /-- The end of one argument and the start of the next. -/
  | boundary

namespace Fragment

/-- The characters of fragments, marked. -/
def marked (fs : List Fragment) : Marked :=
  fs.flatMap fun
    | .text quoted chars => Marked.ofList quoted chars
    | .value chars => Marked.ofList false chars
    | .boundary => [(true, ' ')]

/-- The text of fragments. -/
def textOf (fs : List Fragment) : String := (marked fs).text

/-- White space among separators. -/
def isWhite (c : Char) : Bool := c == ' ' || c == '\t' || c == '\n'

/-- Fields in the making: those that are whole, the last one first, the one that was begun, and
whether white space has just ended one. -/
structure Splitting where
  fields : List Marked := []
  begun : Option Marked := none
  afterWhite : Bool := false

namespace Splitting

/-- After more characters of a field. -/
def add (s : Splitting) (cs : Marked) : Splitting :=
  { s with begun := some (s.begun.getD [] ++ cs), afterWhite := false }

/-- After the end of the field that was begun, if one was. -/
def cut (s : Splitting) : Splitting :=
  match s.begun with
  | some field => { fields := field :: s.fields }
  | none => s

/-- After a character of a value. -/
def step (separators : List Char) (s : Splitting) (c : Char) : Splitting :=
  if !separators.contains c then s.add [(false, c)]
  else if isWhite c then if s.begun.isSome then { s.cut with afterWhite := true } else s
  else if s.begun.isNone && !s.afterWhite then { s with fields := [] :: s.fields }
  else { s.cut with afterWhite := false }

end Splitting

/-- The fields of fragments. -/
def fields (separators : List Char) (fs : List Fragment) : List Marked :=
  (fs.foldl (fun (s : Splitting) f =>
    match f with
    | .text quoted chars => s.add (Marked.ofList quoted chars)
    | .value chars => chars.foldl (Splitting.step separators) s
    | .boundary => s.cut) {}).cut.fields.reverse

end Fragment
end Shell
end ProcessKit
