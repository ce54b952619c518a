/-
# Paths

A path is a text: joining and printing keep it exactly as it was built. `Path.components` is the
view that compares paths: repeated and trailing slashes and inner `.` steps vanish from it. A step
is pushed with one slash in front unless the text is empty or already ends in one, and an absolute
path takes the place of what it is joined to.
-/

namespace ProcessKit

/-- A path, as text. -/
structure Path where
  text : String
  deriving DecidableEq, Repr, Inhabited, Hashable

namespace Path

/-- The characters of the path. -/
def chars (p : Path) : List Char := p.text.toList

/-- The pieces of a text between slashes; there is always at least one. -/
def splitSlash : List Char → List (List Char)
  | [] => [[]]
  | c :: rest =>
    if c = '/' then [] :: splitSlash rest
    else match splitSlash rest with
      | [] => [[c]]
      | piece :: pieces => (c :: piece) :: pieces

/-- The pieces of a text between slashes. -/
def pieces (text : String) : List String := (splitSlash text.toList).map String.ofList

/-- Whether the path starts at the root directory. -/
def isAbsolute (p : Path) : Bool := p.chars.head? == some '/'

/-- The path followed by another one. -/
def join (p q : Path) : Path :=
  if q.isAbsolute then q
  else if p.text.isEmpty || p.chars.getLast? == some '/' then ⟨p.text ++ q.text⟩
  else ⟨p.text ++ "/" ++ q.text⟩

/-- The path followed by steps, one after the other. -/
def extend (p : Path) (steps : List String) : Path := steps.foldl (fun p s => p.join ⟨s⟩) p

/-- One step of a path. -/
inductive Component where
  | root
  | here
  | up
  | name (text : String)
  deriving DecidableEq, Repr

/-- The steps of a path: `.` counts only at the start of a relative path. -/
def components (p : Path) : List Component :=
  let steps := (pieces p.text).filterMap fun piece =>
    if piece = "" ∨ piece = "." then none
    else if piece = ".." then some .up
    else some (.name piece)
  if p.isAbsolute then .root :: steps
  else if (pieces p.text).head? = some "." then .here :: steps
  else steps

/-- Whether two paths take the same steps. -/
def same (p q : Path) : Bool := p.components == q.components

/-- The last step of the path, when it is a name. -/
def fileName? (p : Path) : Option String :=
  match p.components.getLast? with
  | some (.name n) => some n
  | _ => none

/-- What follows the last dot of the last step, unless that dot starts the step. -/
def suffix? (p : Path) : Option String :=
  p.fileName?.bind fun name =>
    let reversed := name.toList.reverse
    let after := reversed.takeWhile (· != '.')
    match reversed.drop after.length with
    | [] => none
    | [_] => none
    | _ => some (String.ofList after.reverse)

/-- The path without slashes at its end, save the one that is the root directory. -/
def withoutFinalSlashes (p : Path) : Path :=
  match (p.chars.reverse.dropWhile (· == '/')).reverse with
  | [] => if p.text = "" then p else ⟨"/"⟩
  | cs => ⟨String.ofList cs⟩

/-- The text with trailing slashes and inner trailing `.` steps taken off, in reverse. -/
def trimEnd : Nat → List Char → List Char
  | 0, cs => cs
  | fuel + 1, cs =>
    match cs with
    | ['/'] => cs
    | '/' :: rest => trimEnd fuel rest
    | '.' :: '/' :: rest => trimEnd fuel ('/' :: rest)
    | _ => cs

/-- The path without its last step, unless it has none. -/
def parent? (p : Path) : Option Path :=
  match p.components with
  | [] | [.root] => none
  | _ =>
    let cs := trimEnd p.chars.length p.chars.reverse
    let rest := cs.dropWhile (· != '/')
    some ⟨String.ofList (trimEnd rest.length rest).reverse⟩

instance : ToString Path := ⟨Path.text⟩

end Path
end ProcessKit
