/-
# The tokens of a shell script

A script is a sequence of words, operators and redirections, each with the number of the line on
which it ends. A redirection from a here-document takes lines out of the script: those after the
line it stands on, up to one that holds nothing but its mark. `Token.scan` gives all tokens, the
last of which tells that the script ends, or why it cannot be read on.
-/

import ProcessKit.Host.Shell.Word

namespace ProcessKit
namespace Shell

/-- Where a redirection leads. -/
inductive RedirectMode where
  | write
  | append
  | read
  /-- The word is the text itself. -/
  | here
  /-- To where another stream leads. -/
  | duplicate
  deriving DecidableEq, Repr

/-- A token of a script, with the number of its line. -/
inductive Token where
  | word (line : Nat) (word : Word)
  /-- An operator, a line end being one too. -/
  | sign (line : Nat) (text : String)
  /-- The redirection of a stream; the word after it tells where to. -/
  | redirect (line stream : Nat) (mode : RedirectMode)
  /-- The end of the script. -/
  | finish (line : Nat)
  /-- Where the script cannot be read, and why. -/
  | fault (line : Nat) (text : String)

namespace Token

/-- The number of the line that a token is on. -/
def line : Token → Nat
  | .word line _ | .sign line _ | .redirect line .. | .finish line | .fault line _ => line

/-- A here-document whose lines are still to come. -/
structure Document where
  /-- Whether tabs at the start of a line are left off. -/
  stripsTabs : Bool
  /-- Whether the lines stand for themselves. -/
  literal : Bool
  mark : List Char

/-- The mark of a here-document, whether a part of it is quoted, and the characters after it. -/
def mark : Nat → List Char → List Char × Bool × List Char
  | 0, cs => ([], false, cs)
  | fuel + 1, cs =>
    let quote (text rest : List Char) : List Char × Bool × List Char :=
      let (more, _, rest) := mark fuel rest
      (text ++ more, true, rest)
    match cs with
    | [] => ([], false, [])
    | '\\' :: c :: rest => quote [c] rest
    | c :: rest =>
      if c = '\'' ∨ c = '"' then
        let text := rest.takeWhile (· != c)
        quote text (rest.drop (text.length + 1))
      else if endsWord c then ([], false, cs)
      else
        let (more, quoted, rest) := mark fuel rest
        (c :: more, quoted, rest)

/-- The lines up to the mark, and the characters after it. -/
def documentLines (document : Document) : Nat → List Char → List Char × List Char
  | 0, cs => ([], cs)
  | fuel + 1, cs =>
    let whole := cs.takeWhile (· != '\n')
    let rest := cs.drop (whole.length + 1)
    let line := if document.stripsTabs then whole.dropWhile (· == '\t') else whole
    if line = document.mark then ([], rest)
    else if whole.length = cs.length then (line, [])
    else
      let (more, rest) := documentLines document fuel rest
      (line ++ '\n' :: more, rest)

/-- The texts of here-documents that follow each other from a line on, and the characters after
them. -/
def documentTexts (line : Nat) :
    List Document → List Char → Except String (List Word × List Char)
  | [], cs => .ok ([], cs)
  | document :: documents, cs => do
    let (text, rest) := documentLines document (cs.length + 1) cs
    let word ← if document.literal then .ok [.text true text]
      else (Word.read .lines line text).map (·.1)
    let (words, rest) ← documentTexts line documents rest
    return (word :: words, rest)

/-- The sign of a redirection at the start of the characters. -/
def redirectMode? : List Char → Option (RedirectMode × List Char)
  | '>' :: '&' :: rest => some (.duplicate, rest)
  | '>' :: '>' :: rest => some (.append, rest)
  | '>' :: '|' :: rest => some (.write, rest)
  | '>' :: rest => some (.write, rest)
  | '<' :: '&' :: rest => some (.duplicate, rest)
  | '<' :: '<' :: rest => some (.here, rest)
  | '<' :: '>' :: rest => some (.append, rest)
  | '<' :: rest => some (.read, rest)
  | _ => none

/-- The stream that a redirection is about: the digit in front of it, or the usual one. -/
def streamOf (digits : List Char) (input : Bool) : Nat :=
  match digits with
  | c :: _ => c.toNat - 48
  | [] => if input then 0 else 1

/-- The operators, of two that start alike the longer one first. -/
def signs : List String := [";;", "&&", "||", ";", "&", "|", "(", ")"]

/-- The tokens from a line on, and the texts of the here-documents that are still to come, the last
one first. -/
def scanFrom : Nat → Nat → List Document → List Char → List Token × List Word
  | 0, line, _, _ => ([.finish line], [])
  | fuel + 1, line, documents, cs =>
    let on (token : Token) (line : Nat) (documents : List Document) (rest : List Char) :
        List Token × List Word :=
      let (tokens, words) := scanFrom fuel line documents rest
      (token :: tokens, words)
    let cs := cs.dropWhile isBlank
    match cs with
    | [] => ([.finish line], [])
    | '\\' :: '\n' :: rest => scanFrom fuel (line + 1) documents rest
    | '#' :: rest => scanFrom fuel line documents (rest.dropWhile (· != '\n'))
    | '\n' :: rest =>
      match documentTexts (line + 1) documents.reverse rest with
      | .error text => ([.fault (line + 1 + rest.count '\n') text], [])
      | .ok (words, after) =>
        let lines := (rest.take (rest.length - after.length)).count '\n'
        let (tokens, _) := scanFrom fuel (line + 1 + lines) [] after
        (.sign (line + 1) "\n" :: tokens, words.reverse)
    | _ =>
      let digits :=
        if (cs.drop 1).head?.any Char.isDigit then [] else (cs.take 1).filter Char.isDigit
      let after := cs.drop digits.length
      let stream := streamOf digits (after.head? == some '<')
      match redirectMode? after with
      | some (.here, rest) =>
        let stripsTabs := rest.head? == some '-'
        let (mark, literal, rest) :=
          mark (rest.length + 1) ((if stripsTabs then rest.tail else rest).dropWhile isBlank)
        let (tokens, words) := scanFrom fuel line ({ stripsTabs, literal, mark } :: documents) rest
        (.redirect line stream .here :: .word line (words.headD []) :: tokens, words.tail)
      | some (mode, rest) => on (.redirect line stream mode) line documents rest
      | none =>
        match signs.find? (·.toList.isPrefixOf cs) with
        | some found => on (.sign line found) line documents (cs.drop found.length)
        | none =>
          match Word.read .script line cs with
          | .error text => ([.fault (line + cs.count '\n') text], [])
          | .ok (found, rest) =>
            let line := line + (cs.take (cs.length - rest.length)).count '\n'
            on (.word line found) line documents rest

/-- The tokens of a script that starts on a line. -/
def scan (line : Nat) (text : List Char) : List Token :=
  (scanFrom (2 * text.length + 2) line [] text).1

end Token
end Shell
end ProcessKit
