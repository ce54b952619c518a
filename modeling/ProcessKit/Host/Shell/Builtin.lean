/-
# The commands of a shell

Commands that the shell itself carries out, without a program: writing, reading a line, conditions,
variables, signals, jumps and the end of the script. `State.builtin?` carries one out by its name
and its arguments, and has nothing for another name.
-/

import ProcessKit.Host.Shell.Condition
import ProcessKit.Host.Shell.Field
import ProcessKit.Host.Shell.Printed
import ProcessKit.Host.Shell.Signal

namespace ProcessKit
namespace Shell
namespace State

/-- What is said about a text where a number must stand. -/
def illegal (text : String) : String := "Illegal number: " ++ text

/-- After a condition. -/
def test (s : State) (arguments : List String) : State :=
  match Condition.eval s.disk (arguments.length + 1) arguments with
  | .ok result => { s with status := if result then 0 else 1 }
  | .error text => s.complain 2 text

/-- The characters of a line, marked where a backslash quotes them, the number of its bytes, and
whether a line end ends it. A backslash before the line end is left off with it. -/
def readLine (raw : Bool) : Nat → List Char → Marked × List Char × Bool
  | 0, cs => ([], cs, false)
  | fuel + 1, cs =>
    let keep (kept : Marked) (rest : List Char) : Marked × List Char × Bool :=
      let (more, rest, ended) := readLine raw fuel rest
      (kept ++ more, rest, ended)
    match cs with
    | [] => ([], [], false)
    | '\n' :: rest => ([], rest, true)
    | '\\' :: c :: rest =>
      if raw then keep [(false, '\\')] (c :: rest)
      else if c = '\n' then keep [] rest
      else keep [(true, c)] rest
    | c :: rest => keep [(false, c)] rest

/-- The values of so many variables that a line is read into: each but the last takes one field. -/
def lineFields (separators : List Char) : Nat → Marked → List String
  | 0, _ => []
  | count + 1, cs =>
    let isSeparator (x : Bool × Char) : Bool := !x.1 && separators.contains x.2
    let isWhite (x : Bool × Char) : Bool := isSeparator x && Fragment.isWhite x.2
    let cs := cs.dropWhile isWhite
    if count = 0 then [Marked.text ((cs.reverse.dropWhile isWhite).reverse)]
    else
      let field := cs.takeWhile (!isSeparator ·)
      let rest := (cs.drop field.length).dropWhile isWhite
      let rest := if rest.head?.any isSeparator then rest.tail else rest
      Marked.text field :: lineFields separators count rest

/-- Reads a line into variables, the last of which takes all that is left. -/
def read (s : State) (arguments : List String) : State :=
  let options := arguments.takeWhile fun a => a.startsWith "-" && a.length > 1
  let names := arguments.drop options.length
  let raw := options.any (·.toList.contains 'r')
  match names.find? (!Script.isName ·) with
  | some name => s.complain 2 (name ++ ": bad variable name")
  | none =>
    if names.isEmpty then s.complain 2 "arg count"
    else
      let cs := (Utf8.decodeLossy s.input).toList
      let (line, rest, ended) := readLine raw (cs.length + 1) cs
      let values := lineFields s.separators names.length line
      let s := (names.zip values).foldl (fun s (name, value) => s.assign name value) s
      { s with input := Utf8.encode (String.ofList rest), status := if ended then 0 else 1 }

/-- After the end of the script by a command. -/
def finish (s : State) (arguments : List String) : State :=
  match arguments with
  | [] => { s with ended := some (.exited (s.interrupted.getD s.status)) }
  | text :: _ =>
    match Signal.number? text with
    | some status => { s with ended := some (.exited (status % 256)), status := status % 256 }
    | none => s.abort (illegal text)

/-- After the end of a function, or of the script. -/
def leave (s : State) (arguments : List String) : State :=
  match arguments with
  | [] => { s with jump := some (.function false) }
  | text :: _ =>
    match Signal.number? text with
    | some status => { s with jump := some (.function true), status := status % 256 }
    | none => s.abort (illegal text)

/-- After a jump out of loops. -/
def leaveLoops (s : State) (again : Bool) (arguments : List String) : State :=
  let text := arguments.headD "1"
  match Signal.number? text with
  | some (n + 1) =>
    let s := { s with status := 0 }
    if s.loops = 0 then s else { s with jump := some (.loops (min (n + 1) s.loops) again) }
  | _ => s.abort (illegal text)

/-- After a shift of the arguments. -/
def shift (s : State) (arguments : List String) : State :=
  let text := arguments.headD "1"
  match Signal.number? text with
  | none => s.abort (illegal text)
  | some n =>
    if s.arguments.length < n then s.abort "can't shift that many"
    else { s with arguments := s.arguments.drop n, status := 0 }

/-- The long names of options. -/
def optionNames : List (String × Char) :=
  [("errexit", 'e'), ("noglob", 'f'), ("ignoreeof", 'I'), ("interactive", 'i'), ("monitor", 'm'),
    ("noexec", 'n'), ("stdin", 's'), ("xtrace", 'x'), ("verbose", 'v'), ("vi", 'V'),
    ("emacs", 'E'), ("noclobber", 'C'), ("allexport", 'a'), ("notify", 'b'), ("nounset", 'u')]

/-- After an option was turned on or off. -/
def setOption (s : State) (on : Bool) (letter : Char) : State :=
  let others := s.options.filter (· != letter)
  { s with options := if on then letter :: others else others }

/-- After a change of the arguments or of how the shell works. -/
def setOptions (s : State) : List String → State
  | [] => s
  | "--" :: rest => { s with arguments := rest }
  | "-o" :: long :: rest | "+o" :: long :: rest =>
    match optionNames.lookup long with
    | some letter => setOptions (s.setOption true letter) rest
    | none => s.abort ("Illegal option -o " ++ long)
  | text :: rest =>
    let change (on : Bool) (letters : List Char) : State :=
      match letters.find? fun c => !(optionNames.any (·.2 == c)) with
      | some c =>
        s.abort ("Illegal option " ++ (if on then "-" else "+") ++ String.ofList [c])
      | none => setOptions (letters.foldl (setOption · on) s) rest
    match text.toList with
    | ['-'] => { s with options := s.options.filter fun c => c != 'x' && c != 'v' }
    | '-' :: letters => change true letters
    | '+' :: letters => change false letters
    | _ => { s with arguments := text :: rest }

/-- After a change of the directory. -/
def changeDir (s : State) (arguments : List String) : State :=
  let arguments := arguments.filter fun a => a != "-P" && a != "-L" && a != "--"
  let target := match arguments with
    | [] => (s.value? "HOME").getD ""
    | "-" :: _ => (s.value? "OLDPWD").getD ""
    | target :: _ => target
  let before := "/" ++ "/".intercalate s.disk.current
  if target = "" then { s with status := 0 }
  else match s.disk.find true ⟨target⟩ with
    | .entry place (.dir _) =>
      let s := { s with disk := { s.disk with current := place }, status := 0 }
      let s := s.assign "OLDPWD" before
      if arguments.head? = some "-" then s.write 1 (Utf8.encode (target ++ "\n")) else s
    | _ => s.complain 2 ("can't cd to " ++ target)

/-- The name and the value in an argument with an equals sign. -/
def splitAssignment (text : String) : String × Option String :=
  let name := text.toList.takeWhile (· != '=')
  (String.ofList name,
    if name.length < text.length then
      some (String.ofList (text.toList.drop (name.length + 1)))
    else none)

/-- Sets each variable of an argument with an equals sign in it, and marks all of them. -/
def declare (s : State) (command : String) (arguments : List String) : State :=
  arguments.foldl (fun s text =>
    let (name, value) := splitAssignment text
    if s.stopped || text.startsWith "-" then s
    else if !Script.isName name then s.abort (text ++ ": bad variable name")
    else
      let s := match s.kept with
        | some kept =>
          if command = "local" && (kept.lookup name).isNone then
            { s with kept := some ((name, s.value? name) :: kept) }
          else s
        | none => s
      let s := match value with
        | some value => s.assign name value
        | none => s
      if command = "export" then { s with exported := name :: s.exported }
      else if command = "readonly" then { s with fixed := name :: s.fixed }
      else s) { s with status := 0 }

/-- Removes variables, or functions. -/
def unset (s : State) (arguments : List String) : State :=
  let s := { s with status := 0 }
  match arguments with
  | "-f" :: names =>
    { s with functions := s.functions.filter fun (name, _) => !names.contains name }
  | "-v" :: names | names => names.foldl (fun s name => if s.stopped then s else s.remove name) s

/-- Reads the next option out of arguments into a variable: status one where there is none left.
The variable `OPTIND` counts the arguments that have been begun. -/
def nextOption (s : State) (letters name : String) (arguments : List String) : State :=
  let begun := (((s.value? "OPTIND").bind String.toNat?).getD 1) - 1
  let read := s.lettersRead
  let index := if read = 0 then begun else begun - 1
  let toward (s : State) (status read begun : Nat) (value : String) : State :=
    let s := s.assign "OPTIND" (toString (begun + 1))
    { s with lettersRead := read, status }.assign name value
  let text := (arguments[index]?).getD ""
  let cs := text.toList
  if read = 0 && (cs.head? != some '-' || cs.length < 2) then toward s 1 0 index "?"
  else if text = "--" then toward s 1 0 (index + 1) "?"
  else
    let c := (cs[read + 1]?).getD '-'
    let letter := String.ofList [c]
    let rest := cs.drop (read + 2)
    let known := letters.toList.dropWhile (· == ':')
    let after := (known.dropWhile (· != c)).drop 1
    let quiet := letters.startsWith ":"
    let say (s : State) (text : String) : State :=
      if quiet then s.assign "OPTARG" letter
      else (s.write 2 (Utf8.encode (text ++ "\n"))).remove "OPTARG"
    let step (s : State) (value : String) : State :=
      toward s 0 (if rest.isEmpty then 0 else read + 1) (index + 1) value
    if c = ':' || !known.contains c then step (say s ("Illegal option -" ++ letter)) "?"
    else if after.head? != some ':' then step (s.remove "OPTARG") letter
    else if !rest.isEmpty then
      toward (s.assign "OPTARG" (String.ofList rest)) 0 0 (index + 1) letter
    else match arguments[index + 1]? with
      | some value => toward (s.assign "OPTARG" value) 0 0 (index + 2) letter
      | none =>
        toward (say s ("No arg for -" ++ letter ++ " option")) 0 0 (index + 1)
          (if quiet then ":" else "?")

/-- After a text was written by a command of the shell, which fails where the stream is closed. -/
def put (s : State) (name : String) (bytes : Bytes) : State :=
  if (s.sink? 1).isSome then { s.write 1 bytes with status := 0 }
  else s.complain 1 (name ++ ": I/O error")

/-- After texts were written as a format asks. -/
def print (s : State) (format : String) (texts : List String) : State :=
  let found := printed format (texts.length + 1) texts
  let status := if found.broken then 2 else 1
  let s := found.complaints.foldl (fun (s : State) text => s.complain status text)
    { s with status := 0 }
  let after : State := s.put "printf" found.bytes
  if after.status = 0 then { after with status := s.status } else after

/-- After a wait for a process. -/
def await (s : State) (arguments : List String) : State :=
  match arguments with
  | [] => { s with status := 0 }
  | process :: _ =>
    { s with status := if process = backgroundSign then s.backgroundStatus.getD 127 else 127 }

/-- The state after a command of the shell, under its name. -/
def carryOut? (s : State) (name : String) (arguments : List String) : Option State :=
  let done (s : State) : Option State := some { s with status := 0 }
  match name with
  | "wait" => some (s.await arguments)
  | "true" | ":" | "hash" | "times" | "ulimit" | "alias" | "unalias" | "jobs" => done s
  | "false" => some { s with status := 1 }
  | "umask" => some (if arguments.isEmpty then s.put name (Utf8.encode "0022\n")
    else { s with status := 0 })
  | "echo" => some (s.put name (echoed arguments))
  | "printf" =>
    match arguments with
    | "--" :: format :: rest => some (s.print format rest)
    | [] | ["--"] => some (s.complain 2 "usage: printf format [arg ...]")
    | format :: rest =>
      match format.toList with
      | '-' :: c :: _ => some (s.complain 2 ("Illegal option -" ++ String.ofList [c]))
      | _ => some (s.print format rest)
  | "read" => some (s.read arguments)
  | "test" => some (s.test arguments)
  | "[" =>
    if arguments.getLast? = some "]" then some (s.test arguments.dropLast)
    else some (s.complain 2 "missing ]")
  | "kill" => some (s.kill arguments)
  | "trap" => some (s.trap (if arguments.head? = some "--" then arguments.tail else arguments))
  | "exit" => some (s.finish arguments)
  | "return" => some (s.leave arguments)
  | "break" => some (s.leaveLoops false arguments)
  | "continue" => some (s.leaveLoops true arguments)
  | "shift" => some (s.shift arguments)
  | "set" =>
    let s := s.setOptions arguments
    some (if s.stopped then s else { s with status := 0 })
  | "unset" => some (s.unset arguments)
  | "export" | "readonly" => some (s.declare name arguments)
  | "local" =>
    if s.kept.isSome then some (s.declare name arguments)
    else some (s.abort "not in a function")
  | "cd" => some (s.changeDir arguments)
  | "pwd" => some (s.put name (Utf8.encode ("/" ++ "/".intercalate s.disk.current ++ "\n")))
  | "getopts" =>
    match arguments with
    | letters :: name :: rest =>
      some (s.nextOption letters name (if rest.isEmpty then s.arguments else rest))
    | _ => some (s.complain 2 "Usage: getopts optstring var [arg]")
  | _ => none

/-- The state after a command of the shell. -/
def builtin? (s : State) (name : String) (arguments : List String) : Option State :=
  (carryOut? { s with lead := name ++ ": " } name arguments).map fun after =>
    { after with lead := s.lead }

/-- The commands whose assignments last, and whose failing redirections end the script. -/
def isSpecial (name : String) : Bool :=
  [".", ":", "break", "continue", "eval", "exec", "exit", "export", "local", "readonly", "return",
    "set", "shift", "times", "trap", "unset"].contains name

/-- The commands whose arguments may be assignments, which are not split. -/
def takesAssignments (name : String) : Bool := ["export", "readonly", "local"].contains name

end State
end Shell
end ProcessKit
