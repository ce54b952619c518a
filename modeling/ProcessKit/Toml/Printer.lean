/-
# TOML text

A string is written in the first of these forms that can hold it without an escape: in double
quotes, in single quotes, in three double quotes, in three single quotes. A text that no form can
hold is written with escapes, in three double quotes if it has several lines. `Printer.array`
writes an array of two or more items with one item a line.
-/

import ProcessKit.Toml.Lexeme

namespace ProcessKit
namespace Toml
namespace Printer

/-- The length of the longest run of a character. -/
def longestRun (c : Char) (cs : List Char) : Nat := go 0 cs
where
  /-- The longest run, where `run` of the characters stand right before. -/
  go (run : Nat) : List Char → Nat
    | [] => run
    | d :: rest => if d = c then go (run + 1) rest else max run (go 0 rest)

/-- A character that only an escape can write: a control character other than tab and line feed. -/
def needsEscape (c : Char) : Bool :=
  (c.toNat < 0x20 && c != '\t' && c != '\n') || c.toNat == 0x7F

/-- The escape of a character, in strings of several lines or of one. -/
def escape? (block : Bool) (c : Char) : Option (List Char) :=
  if c = '\x08' then some ['\\', 'b']
  else if c = '\t' then some ['\\', 't']
  else if c = '\n' ∧ !block then some ['\\', 'n']
  else if c = '\x0c' then some ['\\', 'f']
  else if c = '\r' then some ['\\', 'r']
  else if c = '\\' then some ['\\', '\\']
  else if needsEscape c then
    some ['\\', 'u', '0', '0', Char.ofNat (48 + c.toNat / 16),
      (Nat.digitChar (c.toNat % 16)).toUpper]
  else none

/-- The characters between double quotes. No more than `free` double quotes in a row are left
without an escape, of which `run` stand right before. -/
def escaped (block : Bool) (free : Nat) : Nat → List Char → List Char
  | _, [] => []
  | run, c :: rest =>
    if c = '"' then
      if run < free then c :: escaped block free (run + 1) rest
      else '\\' :: c :: escaped block free 0 rest
    else match escape? block c with
      | some escape => escape ++ escaped block free 0 rest
      | none => c :: escaped block free 0 rest

/-- A text between three quotes, on a line of its own if it has several. -/
def block (mark : QuoteMark) (text inner : List Char) : List Char :=
  let quotes := List.replicate 3 mark.char
  quotes ++ (if text.contains '\n' then ['\n'] else []) ++ inner ++ quotes

/-- The characters of a string. -/
def stringChars (text : List Char) : List Char :=
  let escapes := text.any needsEscape
  let backslash := text.contains '\\'
  let lines := text.contains '\n'
  let doubles := longestRun '"' text
  let singles := longestRun '\'' text
  if !escapes && !backslash && doubles = 0 && !lines then
    '"' :: escaped false 0 0 text ++ ['"']
  else if !escapes && singles = 0 && !lines then '\'' :: text ++ ['\'']
  else if !escapes && !backslash && doubles ≤ 2 then block .basic text (escaped true 2 0 text)
  else if !escapes && singles ≤ 2 then block .literal text text
  else if lines then block .basic text (escaped true 2 0 text)
  else '"' :: escaped false 0 0 text ++ ['"']

/-- A string. -/
def string (text : String) : String := String.ofList (stringChars text.toList)

/-- An array of strings. -/
def array (items : List String) : String :=
  match items with
  | [] => "[]"
  | [item] => "[" ++ string item ++ "]"
  | _ => "[\n" ++ String.join (items.map fun item => "    " ++ string item ++ ",\n") ++ "]"

/-- A named value on a line of its own. -/
def assignment (name value : String) : String := name ++ " = " ++ value ++ "\n"

/-- A table under its header. -/
def table (name : String) (assignments : List String) : String :=
  "[" ++ name ++ "]\n" ++ String.join assignments

end Printer
end Toml
end ProcessKit
