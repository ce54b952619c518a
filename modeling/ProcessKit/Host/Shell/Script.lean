/-
# Shell scripts

A script is a list of commands, each carried out always or only after the success or the failure of
the one before it. A command is simple, or puts scripts together: groups, choices between patterns,
branches, loops and pipelines. A shell reads a script command by command, so `Script.next?` reads
only up to a line end that ends a command; where a token stands that cannot, it tells which.
-/

import ProcessKit.Host.Shell.Token

namespace ProcessKit
namespace Shell

/-- When a command is carried out, after the one before it. -/
inductive Join where
  | always
  | onSuccess
  | onFailure
  deriving DecidableEq, Repr

/-- A redirection with the word that tells where to. -/
structure Redirect where
  line : Nat
  stream : Nat
  mode : RedirectMode
  target : Word

/-- A command. -/
inductive Command where
  /-- Words, with assignments in front of them and redirections among them. -/
  | simple (line : Nat) (assignments : List (String × Word)) (words : List Word)
      (redirects : List Redirect)
  /-- A script of its own, whose changes of the shell do not last if it is isolated. -/
  | group (isolated : Bool) (body : List (Join × Command))
  | choice (subject : Word) (arms : List (List Word × List (Join × Command)))
  /-- The first script whose condition succeeds, or else another one. -/
  | branch (arms : List (List (Join × Command) × List (Join × Command)))
      (otherwise : List (Join × Command))
  /-- A script repeated as long as its condition succeeds, or as long as it fails. -/
  | loop (onSuccess : Bool) (condition body : List (Join × Command))
  /-- A script repeated for every field, or for every argument. -/
  | each (name : String) (words : Option (List Word)) (body : List (Join × Command))
  /-- Commands of which each reads what the one before it writes. -/
  | pipeline (commands : List Command)
  | negated (command : Command)
  | redirected (command : Command) (redirects : List Redirect)
  | define (name : String) (body : Command)
  /-- A script that is not waited for. -/
  | background (body : List (Join × Command))
  deriving Inhabited

/-- A script. -/
abbrev Script := List (Join × Command)

/-- Why a script cannot be read, and the number of the line. -/
structure Fault where
  line : Nat
  text : String
  deriving Repr

namespace Script

/-- The words that are part of a command when they stand where one may start. -/
def keywords : List String :=
  ["!", "case", "do", "done", "elif", "else", "esac", "fi", "for", "if", "in", "then", "until",
    "while", "\x7b", "\x7d"]

/-- The words and operators that end a list of commands. -/
def closers : List String :=
  ["do", "done", "elif", "else", "esac", "fi", "then", "\x7d", ")", ";;"]

/-- The commands that no function may be named like. -/
def reserved : List String :=
  [".", ":", "break", "continue", "eval", "exec", "exit", "export", "readonly", "return", "set",
    "shift", "times", "trap", "unset"]

/-- The word or operator of a token that has no quotes or expansions in it. -/
def bare? : Token → Option String
  | .word _ word => word.bare?
  | .sign _ text => some text
  | _ => none

/-- The name of a token in a complaint; `asKeyword` where a keyword could have stood. -/
def shown (asKeyword : Bool) (token : Token) : String :=
  match token with
  | .word _ word =>
    match word.bare? with
    | some text => if asKeyword && keywords.contains text then "\"" ++ text ++ "\"" else "word"
    | none => "word"
  | .sign _ "\n" => "newline"
  | .sign _ text => "\"" ++ text ++ "\""
  | .redirect .. => "redirection"
  | .finish _ | .fault .. => "end of file"

/-- The complaint about the first token, which cannot stand there; `wanted` could have. -/
def unexpected (asKeyword : Bool) (wanted : Option String) (tokens : List Token) : Fault :=
  match tokens with
  | .fault line text :: _ => { line, text }
  | token :: _ =>
    let ending := match wanted with
      | some text => " (expecting \"" ++ text ++ "\")"
      | none => ""
    { line := token.line, text := shown asKeyword token ++ " unexpected" ++ ending }
  | [] => { line := 0, text := "end of file unexpected" }

/-- Whether the first token is a word or an operator. -/
def startsWith (text : String) (tokens : List Token) : Bool :=
  (tokens.head?.bind bare?) == some text

/-- The tokens after a word or operator that must stand there. -/
def expect (text : String) (tokens : List Token) : Except Fault (List Token) :=
  if startsWith text tokens then .ok tokens.tail
  else .error (unexpected true (some text) tokens)

/-- The tokens after line ends. -/
def skipLines : List Token → List Token
  | .sign _ "\n" :: rest => skipLines rest
  | tokens => tokens

/-- The name and the value of an assignment. -/
def assignment? (w : Word) : Option (String × Word) :=
  go [] w
where
  /-- The name so far is reversed. -/
  go (name : List Char) : Word → Option (String × Word)
    | .text false ['='] :: value =>
      if name = [] then none else some (String.ofList name.reverse, tilde value)
    | .text false [c] :: rest =>
      if isNameChar c && !(name.isEmpty && c.isDigit) then go (c :: name) rest else none
    | _ => none

/-- Whether a text is the name of a variable. -/
def isName (text : String) : Bool :=
  text.toList.all isNameChar && !(text.toList.headD '0').isDigit

/-- The word after a redirection. -/
def target (line stream : Nat) (mode : RedirectMode) (tokens : List Token) :
    Except Fault (Redirect × List Token) :=
  match tokens with
  | .word _ word :: rest => .ok ({ line, stream, mode, target := word }, rest)
  | tokens => .error (unexpected false none tokens)

/-- The redirections at the start of the tokens. -/
def redirects : Nat → List Token → Except Fault (List Redirect × List Token)
  | fuel + 1, .redirect line stream mode :: rest => do
    let (found, rest) ← target line stream mode rest
    let (more, rest) ← redirects fuel rest
    return (found :: more, rest)
  | _, tokens => .ok ([], tokens)

/-- The words and redirections of a simple command. -/
def simpleParts : Nat → List Token → Except Fault (List Word × List Redirect × List Token)
  | fuel + 1, .word _ word :: rest => do
    let (words, found, rest) ← simpleParts fuel rest
    return (word :: words, found, rest)
  | fuel + 1, .redirect line stream mode :: rest => do
    let (first, rest) ← target line stream mode rest
    let (words, found, rest) ← simpleParts fuel rest
    return (words, first :: found, rest)
  | _, tokens => .ok ([], [], tokens)

/-- The assignments in front of words. -/
def splitAssignments : List Word → List (String × Word) × List Word
  | [] => ([], [])
  | w :: ws =>
    match assignment? w with
    | some a =>
      let (as, ws) := splitAssignments ws
      (a :: as, ws)
    | none => ([], w :: ws)

/-- A simple command. -/
def simple (tokens : List Token) : Except Fault (Command × List Token) := do
  let (words, found, rest) ← simpleParts (tokens.length + 1) tokens
  let (assignments, words) := splitAssignments words
  return (.simple ((tokens.head?.map Token.line).getD 0) assignments words found, rest)

/-- The words of a list up to its end. -/
def listWords : List Token → List Word × List Token
  | .word _ word :: rest =>
    let (words, rest) := listWords rest
    (word :: words, rest)
  | tokens => ([], tokens)

/-- The patterns of an arm, up to the closing parenthesis. -/
def patterns : Nat → List Token → Except Fault (List Word × List Token)
  | 0, tokens => .error (unexpected false none tokens)
  | fuel + 1, tokens =>
    let word : Word := match tokens with
      | .word _ word :: _ => word
      | _ => []
    match tokens with
    | .fault .. :: _ | .finish _ :: _ => .error (unexpected false (some ")") tokens)
    | _ =>
      if startsWith "|" tokens.tail then do
        let (words, rest) ← patterns fuel (tokens.drop 2)
        return (word :: words, rest)
      else if startsWith ")" tokens.tail then .ok ([word], tokens.drop 2)
      else .error (unexpected false (some ")") tokens.tail)

/-- What a list of commands is part of. -/
inductive Part where
  /-- A script, of which one line is read. -/
  | line
  /-- A command, in which it must not be empty. -/
  | body
  /-- A command, in which it may be empty. -/
  | arm
  deriving DecidableEq

mutual

/-- The commands up to a token that ends them; `begun` tells that there are some already. -/
def commands (fuel : Nat) (part : Part) (begun : Bool) (tokens : List Token) :
    Except Fault (Script × List Token) :=
  match fuel with
  | 0 => .error (unexpected true none tokens)
  | fuel + 1 => do
    let tokens := if part = .line then tokens else skipLines tokens
    match tokens with
    | .sign _ "\n" :: rest => return ([], rest)
    | .finish _ :: _ => return ([], tokens)
    | _ =>
      let closed := part != .line && (begun || part = .arm) &&
        (tokens.head?.bind bare?).any closers.contains
      if closed then return ([], tokens)
      let (first, rest) ← joined fuel .always tokens
      let first := if startsWith "&" rest then [(.always, .background first)] else first
      match rest with
      | .finish _ :: _ => return (first, rest)
      | _ =>
        if startsWith "&" rest || startsWith ";" rest then
          let (more, rest) ← commands fuel part true rest.tail
          return (first ++ more, rest)
        else if startsWith "\n" rest then
          let (more, rest) ← commands fuel part true rest
          return (first ++ more, rest)
        else if part = .line then .error (unexpected true none rest)
        else return (first, rest)

/-- Commands of which each depends on the one before it. -/
def joined (fuel : Nat) (join : Join) (tokens : List Token) : Except Fault (Script × List Token) :=
  match fuel with
  | 0 => .error (unexpected true none tokens)
  | fuel + 1 => do
    let (first, rest) ← pipeline fuel tokens
    if startsWith "&&" rest then
      let (more, rest) ← joined fuel .onSuccess (skipLines rest.tail)
      return ((join, first) :: more, rest)
    else if startsWith "||" rest then
      let (more, rest) ← joined fuel .onFailure (skipLines rest.tail)
      return ((join, first) :: more, rest)
    else return ([(join, first)], rest)

/-- A command with those that read what it writes. -/
def pipeline (fuel : Nat) (tokens : List Token) : Except Fault (Command × List Token) :=
  match fuel with
  | 0 => .error (unexpected true none tokens)
  | fuel + 1 => do
    let negated := startsWith "!" tokens
    let (commands, rest) ← piped fuel (if negated then tokens.tail else tokens)
    let command := match commands with
      | [command] => command
      | commands => .pipeline commands
    return (if negated then .negated command else command, rest)

/-- Commands with pipes between them. -/
def piped (fuel : Nat) (tokens : List Token) : Except Fault (List Command × List Token) :=
  match fuel with
  | 0 => .error (unexpected true none tokens)
  | fuel + 1 => do
    let (first, rest) ← command fuel tokens
    if startsWith "|" rest then
      let (more, rest) ← piped fuel (skipLines rest.tail)
      return (first :: more, rest)
    else return ([first], rest)

/-- One command with its redirections. -/
def command (fuel : Nat) (tokens : List Token) : Except Fault (Command × List Token) :=
  match fuel with
  | 0 => .error (unexpected true none tokens)
  | fuel + 1 => do
    let closed (closer : String) (read : Except Fault (Command × List Token)) :
        Except Fault (Command × List Token) := do
      let (found, rest) ← read
      let rest ← expect closer rest
      let (found', rest) ← redirects (rest.length + 1) rest
      return (if found'.isEmpty then found else .redirected found found', rest)
    let group (isolated : Bool) : Except Fault (Command × List Token) := do
      let (body, rest) ← commands fuel .body false tokens.tail
      return (.group isolated body, rest)
    match tokens.head?.bind bare? with
    | some "(" => closed ")" (group true)
    | some "\x7b" => closed "\x7d" (group false)
    | some "if" => closed "fi" (branches fuel tokens.tail)
    | some "while" => closed "done" (loop fuel true tokens.tail)
    | some "until" => closed "done" (loop fuel false tokens.tail)
    | some "for" => closed "done" (each fuel tokens.tail)
    | some "case" => closed "esac" (choice fuel tokens.tail)
    | head? =>
      match tokens with
      | .redirect .. :: _ => simple tokens
      | .word _ word :: rest =>
        if head?.any keywords.contains then .error (unexpected true none tokens)
        else if startsWith "(" rest && (assignment? word).isNone then
          let rest ← match rest.tail with
            | .sign _ ")" :: rest => .ok rest
            | tokens => .error (unexpected false (some ")") tokens)
          match head? with
          | some name =>
            if isName name && !reserved.contains name then
              let (body, rest) ← command fuel (skipLines rest)
              return (.define name body, rest)
            else .error { line := (unexpected false none tokens).line, text := "Bad function name" }
          | none =>
            .error { line := (unexpected false none tokens).line, text := "Bad function name" }
        else simple tokens
      | tokens => .error (unexpected true none tokens)

/-- The arms of a branch, from its first condition on. -/
def branches (fuel : Nat) (tokens : List Token) : Except Fault (Command × List Token) :=
  match fuel with
  | 0 => .error (unexpected true none tokens)
  | fuel + 1 => do
    let (condition, rest) ← commands fuel .body false tokens
    let rest ← expect "then" rest
    let (body, rest) ← commands fuel .body false rest
    if startsWith "elif" rest then
      match ← branches fuel rest.tail with
      | (.branch arms otherwise, rest) =>
        return (.branch ((condition, body) :: arms) otherwise, rest)
      | (_, rest) => .error (unexpected true none rest)
    else if startsWith "else" rest then
      let (otherwise, rest) ← commands fuel .body false rest.tail
      return (.branch [(condition, body)] otherwise, rest)
    else return (.branch [(condition, body)] [], rest)

/-- A loop with a condition. -/
def loop (fuel : Nat) (onSuccess : Bool) (tokens : List Token) :
    Except Fault (Command × List Token) :=
  match fuel with
  | 0 => .error (unexpected true none tokens)
  | fuel + 1 => do
    let (condition, rest) ← commands fuel .body false tokens
    let rest ← expect "do" rest
    let (body, rest) ← commands fuel .body false rest
    return (.loop onSuccess condition body, rest)

/-- A loop over fields. -/
def each (fuel : Nat) (tokens : List Token) : Except Fault (Command × List Token) :=
  match fuel with
  | 0 => .error (unexpected true none tokens)
  | fuel + 1 => do
    let name ← match tokens with
      | .word line word :: _ =>
        match word.bare? with
        | some name =>
          if isName name then .ok name else .error { line, text := "Bad for loop variable" }
        | none => .error { line, text := "Bad for loop variable" }
      | .fault .. :: _ => .error (unexpected false none tokens)
      | tokens =>
        .error { line := (unexpected false none tokens).line, text := "Bad for loop variable" }
    let rest := skipLines tokens.tail
    let (words, rest) ←
      if startsWith "in" rest then
        let (words, rest) := listWords rest.tail
        if startsWith ";" rest || startsWith "\n" rest then .ok (some words, rest.tail)
        else .error (unexpected false none rest)
      else .ok (none, if startsWith ";" rest then rest.tail else rest)
    let rest ← expect "do" (skipLines rest)
    let (body, rest) ← commands fuel .body false rest
    return (.each name words body, rest)

/-- A choice, from the word that it is about. -/
def choice (fuel : Nat) (tokens : List Token) : Except Fault (Command × List Token) :=
  match fuel with
  | 0 => .error (unexpected true none tokens)
  | fuel + 1 => do
    match tokens with
    | .word _ subject :: rest =>
      let rest ← expect "in" (skipLines rest)
      let (arms, rest) ← arms fuel rest
      return (.choice subject arms, rest)
    | tokens => .error { unexpected false none tokens with
        text := shown false (tokens.headD (.finish 0)) ++ " unexpected (expecting word)" }

/-- The arms of a choice, up to its end. -/
def arms (fuel : Nat) (tokens : List Token) :
    Except Fault (List (List Word × Script) × List Token) :=
  match fuel with
  | 0 => .error (unexpected true none tokens)
  | fuel + 1 => do
    let tokens := skipLines tokens
    if startsWith "esac" tokens then return ([], tokens)
    let start := if startsWith "(" tokens then tokens.tail else tokens
    let (words, rest) ← patterns (start.length + 1) start
    let (body, rest) ← commands fuel .arm false rest
    let rest := skipLines rest
    if startsWith "esac" rest then return ([(words, body)], rest)
    let rest ← expect ";;" rest
    let (more, rest) ← arms fuel rest
    return ((words, body) :: more, rest)

end

/-- The commands of the next line, and the tokens after it; none at the end of the script. -/
def next? (tokens : List Token) : Except Fault (Option (Script × List Token)) :=
  match tokens with
  | [] | [.finish _] => .ok none
  | tokens => (commands (8 * tokens.length + 8) .line false tokens).map some

/-- All commands of the tokens, in order. -/
def all : Nat → List Token → Except Fault Script
  | 0, _ => .ok []
  | fuel + 1, tokens => do
    match ← next? tokens with
    | none => return []
    | some (first, rest) => return first ++ (← all fuel rest)

/-- The script of a text that starts on a line. -/
def parse (line : Nat) (text : List Char) : Except Fault Script :=
  let tokens := Token.scan line text
  all (tokens.length + 1) tokens

end Script
end Shell
end ProcessKit
