/-
# TOML documents

A document is a list of statements: headers that open a table or add one to an array of tables, and
assignments in the table opened last. `Toml.parse` reads the statements of a text and carries them
out in order. Arrays and inline tables nest up to 79 levels.
-/

import ProcessKit.Toml.Lexeme
import ProcessKit.Toml.Tree

namespace ProcessKit
namespace Toml

/-- A line of a document that says something. -/
inductive Statement where
  | openTable (path : List String)
  | addTable (path : List String)
  | assign (keys : List String) (value : Value)

/-- The greatest number of arrays and inline tables inside one another. -/
def maxDepth : Nat := 79

mutual

/-- One value; `depth` is how many levels it may still nest. -/
def value? (fuel depth : Nat) (cs : List Char) : Option (Value × List Char) :=
  match fuel with
  | 0 => none
  | fuel + 1 =>
    match cs with
    | [] => none
    | c :: rest =>
      if c = '"' ∨ c = '\'' then (string? cs).map fun (s, rest) => (.string s, rest)
      else if c = '[' then
        match depth with
        | 0 => none
        | depth + 1 => (items? fuel depth rest).map fun (vs, rest) => (.array vs, rest)
      else if c = '{' then
        match depth with
        | 0 => none
        | depth + 1 =>
          match skipBlanks rest with
          | '}' :: rest => some (.table [], rest)
          | _ => (members? fuel depth [] rest).map fun (ms, rest) =>
            (.table (Node.membersToValue ms), rest)
      else match cs with
        | 't' :: 'r' :: 'u' :: 'e' :: rest => some (.boolean true, rest)
        | 'f' :: 'a' :: 'l' :: 's' :: 'e' :: rest => some (.boolean false, rest)
        | _ => number? cs

/-- The items of an array up to its closing bracket. -/
def items? (fuel depth : Nat) (cs : List Char) : Option (List Value × List Char) :=
  match fuel with
  | 0 => none
  | fuel + 1 =>
    match skipLines cs.length cs with
    | none => none
    | some (']' :: rest) => some ([], rest)
    | some cs =>
      match value? fuel depth cs with
      | none => none
      | some (v, rest) =>
        match skipLines rest.length rest with
        | some (']' :: rest) => some ([v], rest)
        | some (',' :: rest) => (items? fuel depth rest).map fun (vs, rest) => (v :: vs, rest)
        | _ => none

/-- The members of an inline table up to its closing brace, on top of those before. -/
def members? (fuel depth : Nat) (before : Node.Members) (cs : List Char) :
    Option (Node.Members × List Char) :=
  match fuel with
  | 0 => none
  | fuel + 1 =>
    match dottedKey? cs with
    | some (keys, '=' :: rest) =>
      match value? fuel depth (skipBlanks rest) with
      | none => none
      | some (v, rest) =>
        match Node.assign keys v before with
        | none => none
        | some before =>
          match skipBlanks rest with
          | '}' :: rest => some (before, rest)
          | ',' :: rest => members? fuel depth before rest
          | _ => none
    | _ => none

end

/-- One statement with the rest of its line. -/
def statement? (cs : List Char) : Option (Statement × List Char) :=
  match cs with
  | '[' :: '[' :: rest => do
    let (path, rest) ← dottedKey? rest
    let rest ← after? ']' rest
    let rest ← after? ']' rest
    some (.addTable path, ← endLine? rest)
  | '[' :: rest => do
    let (path, rest) ← dottedKey? rest
    let rest ← after? ']' rest
    some (.openTable path, ← endLine? rest)
  | _ => do
    let (keys, rest) ← dottedKey? cs
    let rest := skipBlanks (← after? '=' rest)
    let (v, rest) ← value? (2 * rest.length + 2) maxDepth rest
    some (.assign keys v, ← endLine? rest)

/-- The statements of a text. -/
def statements? : Nat → List Char → Option (List Statement)
  | 0, _ => none
  | fuel + 1, cs =>
    match skipBlanks cs with
    | [] => some []
    | '#' :: rest => (endLine? ('#' :: rest)).bind (statements? fuel)
    | rest =>
      match lineEnd? rest with
      | some rest => statements? fuel rest
      | none => do
        let (statement, rest) ← statement? rest
        some (statement :: (← statements? fuel rest))

/-- Carries statements out, given the path of the table opened last. -/
def Statement.run : List String → Node.Members → List Statement → Option Node.Members
  | _, root, [] => some root
  | opened, root, statement :: rest =>
    match statement with
    | .openTable path => (Node.openTable path root).bind fun root => run path root rest
    | .addTable path => (Node.addTable path root).bind fun root => run path root rest
    | .assign keys v => (Node.assignIn opened keys v root).bind fun root => run opened root rest

/-- The members of the table of a text, or what is wrong with it. A byte order mark at its start
is passed over. -/
def parse (text : String) : Except String (List (String × Value)) :=
  let cs := match text.toList with
    | '\uFEFF' :: rest => rest
    | cs => cs
  match statements? (cs.length + 1) cs with
  | none => .error "expected a header or an assignment"
  | some statements =>
    match Statement.run [] [] statements with
    | none => .error "duplicate key"
    | some root => .ok (Node.membersToValue root)

end Toml
end ProcessKit
