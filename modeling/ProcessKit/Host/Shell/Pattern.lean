/-
# Patterns

A pattern is a list of signs, each for one character or for any number of them; what is quoted
stands for itself. A pattern matches a text as a whole, cuts a start or an end off a text, and
matches names on a disk, step by step of a path.
-/

import ProcessKit.Disk.Walk

namespace ProcessKit
namespace Shell

/-- Characters, each with whether it is quoted. -/
abbrev Marked := List (Bool × Char)

/-- The text of marked characters. -/
def Marked.text (cs : Marked) : String := String.ofList (cs.map (·.2))

/-- Characters that are all quoted, or all not. -/
def Marked.ofList (quoted : Bool) (cs : List Char) : Marked := cs.map (quoted, ·)

/-- A sign of a pattern. -/
inductive Sign where
  | many
  | one
  | char (c : Char)
  | oneOf (negated : Bool) (members : List (Char → Bool))

namespace Pattern

/-- The kinds of characters that a bracket may name. -/
def kinds : List (String × (Char → Bool)) :=
  let isPrinted (c : Char) : Bool := '!' ≤ c && c ≤ '~'
  [("alnum", Char.isAlphanum), ("alpha", Char.isAlpha), ("blank", fun c => c == ' ' || c == '\t'),
    ("digit", Char.isDigit), ("graph", isPrinted), ("lower", Char.isLower),
    ("print", fun c => c == ' ' || isPrinted c),
    ("punct", fun c => isPrinted c && !c.isAlphanum),
    ("space", fun c => c == ' ' || ('\t' ≤ c && c ≤ '\r')), ("upper", Char.isUpper),
    ("xdigit", fun c => c.isDigit || "abcdefABCDEF".toList.contains c)]

/-- The members of a bracket up to its end, which the first of them is not. -/
def members : Nat → Marked → Option (List (Char → Bool) × Marked)
  | 0, _ => none
  | _ + 1, [] => none
  | fuel + 1, (quoted, c) :: rest =>
    let next (member : Char → Bool) (rest : Marked) : Option (List (Char → Bool) × Marked) :=
      match rest with
      | (false, ']') :: rest => some ([member], rest)
      | rest => (members fuel rest).map fun (more, rest) => (member :: more, rest)
    let kind? : Option ((Char → Bool) × Marked) :=
      match quoted, c, rest with
      | false, '[', (_, ':') :: rest =>
        let name := rest.takeWhile (·.2 != ':')
        match rest.drop name.length with
        | (_, ':') :: (_, ']') :: rest => (kinds.lookup (Marked.text name)).map (·, rest)
        | _ => none
      | _, _, _ => none
    match kind?, rest with
    | some (member, rest), _ => next member rest
    | none, (false, '-') :: (quoted, d) :: rest =>
      if d = ']' && !quoted then next (· == c) ((false, '-') :: (quoted, d) :: rest)
      else next (fun x => c ≤ x && x ≤ d) rest
    | none, rest => next (· == c) rest

/-- The signs of marked characters. -/
def signs : Nat → Marked → List Sign
  | 0, _ => []
  | _ + 1, [] => []
  | fuel + 1, (true, c) :: rest => .char c :: signs fuel rest
  | fuel + 1, (false, c) :: rest =>
    if c = '*' then .many :: signs fuel rest
    else if c = '?' then .one :: signs fuel rest
    else if c = '[' then
      let negated := rest.head? == some (false, '!') || rest.head? == some (false, '^')
      match members (rest.length + 1) (if negated then rest.tail else rest) with
      | some (found, rest) => .oneOf negated found :: signs fuel rest
      | none => .char c :: signs fuel rest
    else .char c :: signs fuel rest

/-- The pattern of marked characters. -/
def ofMarked (cs : Marked) : List Sign := signs (cs.length + 1) cs

/-- Whether a character fits a sign for one character. -/
def fits (sign : Sign) (c : Char) : Bool :=
  match sign with
  | .many => false
  | .one => true
  | .char d => c == d
  | .oneOf negated found => negated != found.any (· c)

/-- Whether a pattern matches characters. -/
def isMatch : List Sign → List Char → Bool
  | [], cs => cs.isEmpty
  | .many :: rest, [] => isMatch rest []
  | .many :: rest, c :: cs => isMatch rest (c :: cs) || isMatch (.many :: rest) cs
  | _ :: _, [] => false
  | sign :: rest, c :: cs => fits sign c && isMatch rest cs

/-- The characters without a start that matches; the shortest or the longest one. -/
def cutStart (pattern : List Sign) (longest : Bool) (cs : List Char) : List Char :=
  let lengths := List.range (cs.length + 1)
  let found := (if longest then lengths.reverse else lengths).find? fun n =>
    isMatch pattern (cs.take n)
  cs.drop (found.getD 0)

/-- The characters without an end that matches; the shortest or the longest one. -/
def cutEnd (pattern : List Sign) (longest : Bool) (cs : List Char) : List Char :=
  let lengths := List.range (cs.length + 1)
  let found := (if longest then lengths else lengths.reverse).find? fun n =>
    isMatch pattern (cs.drop n)
  cs.take (found.getD cs.length)

/-- Whether characters hold a sign that stands for others. -/
def isNeeded (cs : Marked) : Bool :=
  cs.any fun (quoted, c) => !quoted && (c == '*' || c == '?' || c == '[')

/-- The parts of marked characters between slashes. -/
def splitSlash : Marked → List Marked
  | [] => [[]]
  | (quoted, c) :: rest =>
    if c = '/' then [] :: splitSlash rest
    else match splitSlash rest with
      | [] => [[(quoted, c)]]
      | part :: parts => ((quoted, c) :: part) :: parts

/-- The paths on a disk that match the parts of a pattern after a path, in the order of their texts.
A name that starts with a dot is matched only by a dot. -/
def paths (disk : Disk) (before : String) : List Marked → List String
  | [] => [before]
  | part :: parts =>
    if isNeeded part then
      match disk.find true ⟨if before = "" then "." else before⟩ with
      | .entry place (.dir _) =>
        let pattern := ofMarked part
        let names := (disk.children place).filter fun name =>
          isMatch pattern name.toList &&
            (name.toList.head? != some '.' || (part.head?.map (·.2)) == some '.')
        (names.mergeSort (fun a b => a ≤ b)).flatMap fun name =>
          if parts.isEmpty then [before ++ name] else paths disk (before ++ name ++ "/") parts
      | _ => []
    else
      let path := before ++ part.text
      if parts.isEmpty then
        match disk.find false ⟨path⟩ with
        | .entry .. => [path]
        | _ => []
      else paths disk (path ++ "/") parts

/-- A field that may be a pattern as the paths that it matches, or else as it is. -/
def expanded (disk : Disk) (cs : Marked) : List String :=
  if isNeeded cs then
    match paths disk "" (splitSlash cs) with
    | [] => [cs.text]
    | found => found
  else [cs.text]

end Pattern
end Shell
end ProcessKit
