/-
# The words of a shell script

A word keeps what is quoted apart from what is not, since only the latter is split and matched
against, and holds the expansions in it as they are written: parameters with their rules,
arithmetic, and commands whose output is put in. `Word.read` reads one from the characters of a
script; it fails where a quote or an expansion is not closed.
-/

namespace ProcessKit
namespace Shell

/-- What becomes of the value of a parameter; `orEmpty` treats an empty value as a missing one. -/
inductive Rule where
  | value
  | length
  /-- The word, where the value is missing. -/
  | default (orEmpty : Bool)
  /-- The word, which also becomes the value, where that is missing. -/
  | assign (orEmpty : Bool)
  /-- The word, where the value is not missing. -/
  | alternative (orEmpty : Bool)
  /-- A failure with the word as its message, where the value is missing. -/
  | require (orEmpty : Bool)
  /-- The value without a start that matches the word. -/
  | cutStart (longest : Bool)
  /-- The value without an end that matches the word. -/
  | cutEnd (longest : Bool)
  deriving DecidableEq, Repr

/-- Whether the word of a rule is a pattern, which quotes around the expansion do not quote. -/
def Rule.takesPattern : Rule → Bool
  | .cutStart _ | .cutEnd _ => true
  | _ => false

/-- A part of a word; quotes keep blanks and pattern signs from having a meaning. -/
inductive Piece where
  | text (quoted : Bool) (chars : List Char)
  | parameter (quoted : Bool) (name : String) (rule : Rule) (word : List Piece)
  | arithmetic (quoted : Bool) (word : List Piece)
  /-- The output of a script that starts on a line. -/
  | output (quoted : Bool) (line : Nat) (script : List Char)
  /-- An expansion that means nothing. -/
  | bad
  deriving Inhabited

/-- A word as it is written. -/
abbrev Word := List Piece

/-- The text of a word without quotes and expansions. -/
def Word.bare? : Word → Option String
  | [] => some ""
  | .text false chars :: rest => (bare? rest).map (String.ofList chars ++ ·)
  | _ => none

/-- A blank between words. -/
def isBlank (c : Char) : Bool := c == ' ' || c == '\t'

/-- A character that ends a word where it is not quoted. -/
def endsWord (c : Char) : Bool := isBlank c || "\n;&|<>()".toList.contains c

/-- A character of a name; a digit does not start one. -/
def isNameChar (c : Char) : Bool := c.isAlphanum || c == '_'

/-- A parameter that the shell itself sets. -/
def isSpecial (c : Char) : Bool := c.isDigit || "@*#?$!-".toList.contains c

/-- What a part of a script is enclosed in. -/
inductive Bracket where
  | parens
  | braces (quoted : Bool)
  | quotes
  | backquotes
  deriving DecidableEq, Repr

/-- Whether single quotes have no meaning inside. -/
def Bracket.isQuoted : Bracket → Bool
  | .quotes => true
  | .braces quoted => quoted
  | .parens | .backquotes => false

/-- The sign that closes a bracket. -/
def Bracket.closing : Bracket → Char
  | .parens => ')'
  | .braces _ => '\x7d'
  | .quotes => '"'
  | .backquotes => '\x60'

/-- Whether a word stands at the start of the characters, and nothing else of its word. -/
def startsWithWord (word : String) (cs : List Char) : Bool :=
  word.toList.isPrefixOf cs && ((cs.drop word.length).head?.map endsWord).getD true

/-- Whether a choice between patterns starts: its subject is one word. -/
def startsChoice (cs : List Char) : Bool :=
  let subject := (cs.drop 4).dropWhile isBlank
  startsWithWord "case" cs &&
    startsWithWord "in" ((subject.dropWhile (!endsWord ·)).dropWhile isBlank)

/-- What is open inside a bracket: a parenthesis, or a choice, in which a parenthesis closes a
pattern. -/
inductive Opened where
  | paren
  | choice
  deriving DecidableEq, Repr

/-- The characters up to the sign that closes a bracket, and those after it, given what is open
inside and whether a word may start. Brackets, quotes and comments inside are passed over. -/
def enclosed? : Nat → Bracket → List Opened → Bool → List Char → Option (List Char × List Char)
  | 0, _, _, _, _ => none
  | fuel + 1, bracket, opened, starts, cs =>
    let keep (kept : List Char) (opened : List Opened) (rest : List Char) :
        Option (List Char × List Char) :=
      let starts := kept.length == 1 && kept.any endsWord
      (enclosed? fuel bracket opened starts rest).map fun (more, rest) => (kept ++ more, rest)
    let nested (opening : List Char) (inner : Bracket) (rest : List Char) :
        Option (List Char × List Char) :=
      (enclosed? fuel inner [] true rest).bind fun (text, rest) =>
        keep (opening ++ text ++ [inner.closing]) opened rest
    let startsWord := starts && bracket == .parens
    match cs with
    | [] => none
    | '\\' :: c :: rest => keep ['\\', c] opened rest
    | c :: rest =>
      if c = bracket.closing then
        match opened with
        | [] => some ([], rest)
        | .paren :: opened => keep [c] opened rest
        | .choice :: _ => keep [c] opened rest
      else if bracket = .backquotes then keep [c] opened rest
      else if startsWord && c == '#' then
        let text := cs.takeWhile (· != '\n')
        keep text opened (cs.drop text.length)
      else if startsWord && startsChoice cs then
        keep "case".toList (.choice :: opened) (cs.drop 4)
      else if startsWord && opened.head? == some .choice && startsWithWord "esac" cs then
        keep "esac".toList opened.tail (cs.drop 4)
      else match c, rest with
        | '$', '(' :: rest => nested ['$', '('] .parens rest
        | '$', '\x7b' :: rest => nested ['$', '\x7b'] (.braces bracket.isQuoted) rest
        | '"', rest => nested ['"'] .quotes rest
        | '\x60', rest => nested ['\x60'] .backquotes rest
        | '\'', rest =>
          if bracket.isQuoted then keep ['\''] opened rest
          else
            let text := rest.takeWhile (· != '\'')
            if text.length = rest.length then none
            else keep ('\'' :: text ++ ['\'']) opened (rest.drop (text.length + 1))
        | '(', rest => keep ['('] (if bracket = .parens then .paren :: opened else opened) rest
        | c, rest => keep [c] opened rest

/-- The rule in front of its word, after the name of a parameter. -/
def rule? : List Char → Option (Rule × List Char)
  | [] => some (.value, [])
  | ':' :: '-' :: rest => some (.default true, rest)
  | '-' :: rest => some (.default false, rest)
  | ':' :: '=' :: rest => some (.assign true, rest)
  | '=' :: rest => some (.assign false, rest)
  | ':' :: '+' :: rest => some (.alternative true, rest)
  | '+' :: rest => some (.alternative false, rest)
  | ':' :: '?' :: rest => some (.require true, rest)
  | '?' :: rest => some (.require false, rest)
  | '#' :: '#' :: rest => some (.cutStart true, rest)
  | '#' :: rest => some (.cutStart false, rest)
  | '%' :: '%' :: rest => some (.cutEnd true, rest)
  | '%' :: rest => some (.cutEnd false, rest)
  | _ => none

/-- The name of a parameter at the start of the characters. -/
def parameterName? : List Char → Option (String × List Char)
  | [] => none
  | c :: rest =>
    if isSpecial c then some (String.ofList [c], rest)
    else if isNameChar c then
      let name := (c :: rest).takeWhile isNameChar
      some (String.ofList name, (c :: rest).drop name.length)
    else none

/-- What pieces stand in. -/
inductive Surrounding where
  /-- A word of the script. -/
  | script
  /-- A pair of double quotes. -/
  | quotes
  /-- The lines that a redirection takes out of the script. -/
  | lines
  /-- The word of a rule, which has an end of its own, and whether that is quoted. -/
  | expansion (quoted : Bool)
  deriving DecidableEq, Repr

namespace Surrounding

/-- Whether pieces count as quoted. -/
def isQuoted : Surrounding → Bool
  | .script => false
  | .quotes | .lines => true
  | .expansion quoted => quoted

/-- The signs that a backslash quotes among characters that are quoted already. -/
def escapable : Surrounding → List Char
  | .lines => ['$', '\x60', '\\']
  | .expansion _ => ['$', '\x60', '\\', '"', '\x7d']
  | _ => ['$', '\x60', '\\', '"']

end Surrounding

/-- The script between backquotes: a backslash quotes the signs of an expansion, and within double
quotes also those. -/
def unquoteScript (quoted : Bool) : List Char → List Char
  | '\\' :: c :: rest =>
    if c = '$' ∨ c = '\x60' ∨ c = '\\' ∨ (quoted && c = '"') then c :: unquoteScript quoted rest
    else '\\' :: c :: unquoteScript quoted rest
  | c :: rest => c :: unquoteScript quoted rest
  | [] => []

/-- The home directory in the place of a tilde that starts a word. -/
def tilde (w : Word) : Word :=
  let home : Piece := .parameter true "HOME" .value []
  match w with
  | [.text false ['~']] => [home]
  | .text false ['~'] :: .text false ['/'] :: rest => home :: .text false ['/'] :: rest
  | w => w

mutual

/-- The pieces up to the end of a word, or to the double quote that closes them. `line` tells on
which line the characters start that are left. -/
def pieces (fuel : Nat) (around : Surrounding) (line : List Char → Nat) (cs : List Char) :
    Except String (Word × List Char) :=
  match fuel with
  | 0 => .ok ([], cs)
  | fuel + 1 =>
    let quoted := around.isQuoted
    let more (piece : Piece) (rest : List Char) : Except String (Word × List Char) :=
      (pieces fuel around line rest).map fun (word, rest) => (piece :: word, rest)
    match cs with
    | [] => if around = .quotes then .error "Unterminated quoted string" else .ok ([], [])
    | '\\' :: '\n' :: rest => pieces fuel around line rest
    | '\\' :: c :: rest =>
      if quoted && !around.escapable.contains c then more (.text true ['\\', c]) rest
      else more (.text true [c]) rest
    | '"' :: rest =>
      match around with
      | .quotes => .ok ([.text true []], rest)
      | .lines => more (.text true ['"']) rest
      | .expansion true => pieces fuel around line rest
      | _ => do
        let (word, rest) ← pieces fuel .quotes line rest
        let (words, rest) ← pieces fuel around line rest
        return (.text true [] :: word ++ words, rest)
    | '\'' :: rest =>
      if quoted then more (.text true ['\'']) rest
      else
        let text := rest.takeWhile (· != '\'')
        if text.length = rest.length then .error "Unterminated quoted string"
        else more (.text true text) (rest.drop (text.length + 1))
    | '\x60' :: rest =>
      match enclosed? (rest.length + 1) .backquotes [] true rest with
      | some (text, rest) => more (.output quoted 1 (unquoteScript quoted text)) rest
      | none => .error "EOF in backquote substitution"
    | '$' :: rest => do
      match ← expansion? fuel quoted (line rest) rest with
      | some (piece, rest) => more piece rest
      | none => more (.text quoted ['$']) rest
    | c :: rest =>
      if around = .script && endsWord c then .ok ([], cs) else more (.text quoted [c]) rest

/-- An expansion, from the character after the dollar. -/
def expansion? (fuel : Nat) (quoted : Bool) (line : Nat) (cs : List Char) :
    Except String (Option (Piece × List Char)) :=
  match fuel with
  | 0 => .ok none
  | fuel + 1 =>
    match cs with
    | '(' :: '(' :: rest =>
      match enclosed? (rest.length + 1) .parens [] true rest with
      | some (text, ')' :: rest) => do
        let (word, _) ← pieces fuel (.expansion true) (fun _ => line) text
        return some (.arithmetic quoted word, rest)
      | _ => .error "Missing '))'"
    | '(' :: rest =>
      match enclosed? (rest.length + 1) .parens [] true rest with
      | some (text, rest) => .ok (some (.output quoted line text, rest))
      | none => .error "end of file unexpected (expecting \")\")"
    | '\x7b' :: rest =>
      match enclosed? (rest.length + 1) (.braces quoted) [] true rest with
      | some (text, rest) => do
        let piece ← parameter fuel quoted line text
        return some (piece, rest)
      | none => .error "Missing '\x7d'"
    | _ =>
      .ok <| (parameterName? cs).map fun (name, rest) => (.parameter quoted name .value [], rest)

/-- An expansion of a parameter, from the text in its braces; a number may have many digits
there. -/
def parameter (fuel : Nat) (quoted : Bool) (line : Nat) (cs : List Char) : Except String Piece :=
  match fuel with
  | 0 => .ok .bad
  | fuel + 1 =>
    let length? : Option Piece :=
      match cs with
      | '#' :: c :: rest =>
        match parameterName? (c :: rest) with
        | some (name, []) => some (.parameter quoted name .length [])
        | _ => none
      | _ => none
    let digits := cs.takeWhile Char.isDigit
    let name? := if digits.isEmpty then parameterName? cs
      else some (String.ofList digits, cs.drop digits.length)
    match length?, name? with
    | some piece, _ => .ok piece
    | none, none => .ok .bad
    | none, some (name, text) =>
      match rule? text with
      | none => .ok .bad
      | some (rule, text) => do
        let around := Surrounding.expansion (quoted && !rule.takesPattern)
        let (word, _) ← pieces fuel around (fun _ => line) text
        return .parameter quoted name rule (if quoted then word else tilde word)

end

/-- A word at the start of the characters, and the characters after it; `start` is the number of the
line. -/
def Word.read (around : Surrounding) (start : Nat) (cs : List Char) :
    Except String (Word × List Char) :=
  let line (rest : List Char) : Nat := start + (cs.take (cs.length - rest.length)).count '\n'
  (pieces (2 * cs.length + 2) around line cs).map fun (word, rest) =>
    (if around = .script then tilde word else word, rest)

end Shell
end ProcessKit
