/-
# Running shell scripts

`Shell.run` carries out a script and gives how it ended, what it wrote and the disk after it. A word
is expanded into fragments, which are split into fields where they are not quoted. What is no
command of the shell and no function is a program of the machine; which programs there are is given
from outside. Every step uses up fuel, so that a script that does not end by itself is ended.
-/

import ProcessKit.Host.Shell.Builtin

namespace ProcessKit
namespace Shell

/-- What a program did. -/
structure Ending where
  outcome : Outcome
  output : Bytes := []
  errors : Bytes := []
  /-- What is left of its input. -/
  left : Bytes := []

/-- What became of a program that was to be started. -/
inductive Attempt where
  | ran (ending : Ending) (disk : Disk)
  /-- There is nothing that can be started. -/
  | missing
  /-- What is there must not be started. -/
  | refused
  /-- What is there is not the text of a program. -/
  | unknown

/-- What the programs of a machine do at a start: with a path, arguments, variables and input, on a
disk. -/
abbrev Starter := Path → List String → List (String × String) → Bytes → Disk → Attempt

/-- The shell that runs what is not the text of a program. -/
def shellPath : Path := ⟨"/bin/sh"⟩

/-- The directories of a search path, where it is not told. -/
def usualPath : String := "/usr/local/sbin:/usr/local/bin:/usr/sbin:/usr/bin:/sbin:/bin"

/-- The paths that a name of a program may stand for. -/
def State.pathsOf (s : State) (name : String) : List Path :=
  if name.toList.contains '/' then [⟨name⟩]
  else (((s.value? "PATH").getD usualPath).splitOn ":").map fun dir => (Path.mk dir).join ⟨name⟩

/-- What is said about a program of this shell that a signal ended. -/
def killedText (signal : Nat) : String :=
  ([(1, "Hangup\n"), (3, "Quit\n"), (6, "Aborted\n"), (9, "Killed\n"),
    (10, "User defined signal 1\n"), (12, "User defined signal 2\n"), (14, "Alarm clock\n"),
    (15, "Terminated\n")].lookup signal).getD ""

/-- The state after a program. -/
def State.program (programs : Starter) (s : State) (name : String) (arguments : List String) :
    State :=
  let start (path : Path) : Attempt :=
    match programs path arguments s.environment s.input s.disk with
    | .unknown => programs shellPath (path.text :: arguments) s.environment s.input s.disk
    | attempt => attempt
  go (s.pathsOf name) start false
where
  /-- Starts the first program that can be started. -/
  go (paths : List Path) (start : Path → Attempt) (isRefused : Bool) : State :=
    match paths with
    | path :: paths =>
      match start path with
      | .ran ending disk =>
        let s := { s with disk, input := ending.left, status := ending.outcome.status }
        let s := (s.write 1 ending.output).write 2 ending.errors
        match ending.outcome with
        | .killed signal => s.write 2 (Utf8.encode (killedText signal))
        | .exited _ => s
      | .missing => go paths start isRefused
      | .refused | .unknown => go paths start true
    | [] =>
      if isRefused then
        s.complain (if name.toList.contains '/' then 126 else 127) (name ++ ": Permission denied")
      else s.complain 127 (name ++ ": not found")

/-- The state after the end of an isolated part: what it changed in the shell itself is undone, and
the signals come that were sent meanwhile. -/
def State.restore (before after : State) : State :=
  let restored := { before with
    disk := { after.disk with current := before.disk.current }
    errors := after.errors
    captured := after.captured
    input := after.input
    status := (after.ended.map Outcome.status).getD after.status }
  after.signals.foldl State.receive restored

/-- A shell for an isolated part: signals are ignored as before, but nothing else is done at
them. -/
def State.isolate (s : State) : State :=
  { s with traps := s.traps.filter (·.2 == ""), signals := [], isIsolated := true }

/-- The state after a round of a loop, and whether another round may follow. -/
def State.afterRound (s : State) : State × Bool :=
  match s.jump with
  | some (.loops 0 again) | some (.loops 1 again) =>
    ({ s with jump := none }, again && s.ended.isNone)
  | some (.loops (n + 1) again) => ({ s with jump := some (.loops n again) }, false)
  | some (.function _) => (s, false)
  | none => (s, s.ended.isNone)

/-- The state after a redirection that cannot be opened. -/
def State.refused (s : State) (special : Bool) (text : String) : State :=
  if text.startsWith "Syntax error" then { s with line := s.lastLine }.abort text
  else if special then s.abort text
  else s.complain 2 text

/-- The state with streams and input as before a command with redirections. -/
def State.close (before : State) (redirects : List Redirect) (after : State) : State :=
  { after with
    streams := before.streams
    input := if redirects.any (·.stream == 0) then before.input else after.input }

/-- The state in which a failure ends the script, if it must not fail. -/
def State.checked (s : State) (tested : Bool) : State :=
  if s.stopsOnFailure && !tested && s.status != 0 && !s.stopped then
    { s with ended := some (.exited s.status) }
  else s

mutual

/-- The fragments of a word. -/
def expand (programs : Starter) (fuel : Nat) (s : State) (w : Word) : State × List Fragment :=
  match fuel with
  | 0 => (s, [])
  | fuel + 1 =>
    match w with
    | [] => (s, [])
    | piece :: rest =>
      let (s, fs) := expandPiece programs fuel s piece
      if s.ended.isSome then (s, fs)
      else
        let (s, more) := expand programs fuel s rest
        (s, fs ++ more)

/-- The fragments of a piece. -/
def expandPiece (programs : Starter) (fuel : Nat) (s : State) (piece : Piece) :
    State × List Fragment :=
  match fuel with
  | 0 => (s, [])
  | fuel + 1 =>
    let fragment (quoted : Bool) (text : String) : Fragment :=
      if quoted then .text true text.toList else .value text.toList
    match piece with
    | .bad => (s.abort "Bad substitution", [])
    | .text quoted chars => (s, [.text quoted chars])
    | .arithmetic quoted w =>
      let (s, fs) := expand programs fuel s w
      let text := Fragment.textOf fs
      match Arithmetic.value (fun name => (s.parameter? name).getD "") text with
      | .ok (n, changes) =>
        let s := changes.reverse.foldl (fun s (name, n) => s.assign name (toString n)) s
        (s, [fragment quoted (toString n)])
      | .error problem => (s.abort (problem.message text), [])
    | .output quoted line text =>
      let (s, output) := capture programs fuel s line text
      (s, [fragment quoted output])
    | .parameter quoted name rule w =>
      let value := s.parameter? name
      let missing (orEmpty : Bool) : Bool := value.isNone || (orEmpty && value == some "")
      let whole (value : String) : List Fragment :=
        if name = "@" || (name = "*" && !quoted) then
          ((s.arguments.map fun a => [fragment quoted a]).intersperse [.boundary]).flatten
        else [fragment quoted value]
      let split (fs : List Fragment) : List Fragment :=
        fs.map fun
          | .text false chars => .value chars
          | f => f
      let word (s : State) : State × List Fragment :=
        let (s, fs) := expand programs fuel s w
        (s, if quoted then fs else split fs)
      match rule with
      | .value =>
        if value.isNone && s.stopsOnMissing && name != "@" && name != "*" then
          (s.abort (name ++ ": parameter not set"), [])
        else (s, whole (value.getD ""))
      | .length => (s, [fragment quoted (toString (value.getD "").utf8ByteSize)])
      | .default orEmpty =>
        if missing orEmpty then word s else (s, whole (value.getD ""))
      | .alternative orEmpty => if missing orEmpty then (s, []) else word s
      | .assign orEmpty =>
        if missing orEmpty then
          let (s, fs) := expand programs fuel s w
          if Script.isName name then
            let text := Fragment.textOf fs
            (s.assign name text, [fragment quoted text])
          else (s.abort "Bad substitution", [])
        else (s, whole (value.getD ""))
      | .require orEmpty =>
        if missing orEmpty then
          let (s, fs) := expand programs fuel s w
          let text := Fragment.textOf fs
          let reason := if text != "" then text
            else if orEmpty then "parameter not set or null" else "parameter not set"
          (s.abort (name ++ ": " ++ reason), [])
        else (s, whole (value.getD ""))
      | .cutStart longest =>
        let (s, fs) := expand programs fuel s w
        let pattern := Pattern.ofMarked (Fragment.marked fs)
        let cs := (value.getD "").toList
        (s, [fragment quoted (String.ofList (Pattern.cutStart pattern longest cs))])
      | .cutEnd longest =>
        let (s, fs) := expand programs fuel s w
        let pattern := Pattern.ofMarked (Fragment.marked fs)
        let cs := (value.getD "").toList
        (s, [fragment quoted (String.ofList (Pattern.cutEnd pattern longest cs))])

/-- The output of a text as a script, without line ends at its end. -/
def capture (programs : Starter) (fuel : Nat) (s : State) (line : Nat) (text : List Char) :
    State × String :=
  match fuel with
  | 0 => (s, "")
  | fuel + 1 =>
    match Script.parse line text with
    | .error fault =>
      ({ ({ s with line := fault.line }.abort ("Syntax error: " ++ fault.text)) with
          line := s.line }, "")
    | .ok script =>
      let streams := (1, Sink.captured) :: s.streams.filter (·.1 != 1)
      let after := isolated programs fuel false { s with captured := [], streams } script
      let bytes := (after.captured.reverse.dropWhile (· == 10)).reverse
      let restored := s.restore after
      ({ restored with
        captured := s.captured, status := s.status, outputStatus := restored.status },
        Utf8.decodeLossy bytes)

/-- Carries out a script in a shell of its own, which what is to be done at the end ends. -/
def isolated (programs : Starter) (fuel : Nat) (tested : Bool) (s : State) (script : Script) :
    State :=
  match fuel with
  | 0 => s.abort "out of fuel"
  | fuel + 1 => atEnd programs fuel (runAll programs fuel tested s.isolate script)

/-- Carries out what is to be done at the end of a shell, which a signal does not let happen. -/
def atEnd (programs : Starter) (fuel : Nat) (s : State) : State :=
  match fuel with
  | 0 => s.abort "out of fuel"
  | fuel + 1 =>
    let outcome := s.ended.getD (.exited s.status)
    match outcome, s.traps.lookup 0 with
    | .exited status, some action =>
      let traps := s.traps.filter (·.1 != 0)
      let after := runText programs fuel false
        { s with ended := none, jump := none, traps, status, interrupted := some status } action
      { after with ended := some (after.ended.getD outcome), jump := none }
    | _, _ => s

/-- Carries out what is to be done at signals that have come, and goes on with the status. -/
def dealWithSignals (programs : Starter) (fuel : Nat) (s : State) : State :=
  match fuel with
  | 0 => s.abort "out of fuel"
  | fuel + 1 =>
    match s.signals with
    | [] => s
    | signal :: signals =>
      if s.ended.isSome || s.isIsolated then s
      else
        let action := (s.traps.lookup signal).getD ""
        let after := runText programs fuel false
          { s with signals, interrupted := some s.status } action
        let status := match after.jump with
          | some (.function true) => after.status
          | _ => s.status
        dealWithSignals programs fuel
          { after with status, line := s.line, interrupted := s.interrupted }

/-- Carries out a text as a script, command by command. -/
def runText (programs : Starter) (fuel : Nat) (tested : Bool) (s : State) (text : String) : State :=
  match fuel with
  | 0 => s.abort "out of fuel"
  | fuel + 1 =>
    let after := runTokens programs fuel tested s (Token.scan 1 text.toList)
    { after with lastLine := s.lastLine }

/-- Carries out the commands of tokens, line by line, each being read when the one before it has
been carried out. -/
def runTokens (programs : Starter) (fuel : Nat) (tested : Bool) (s : State)
    (tokens : List Token) : State :=
  match fuel with
  | 0 => s.abort "out of fuel"
  | fuel + 1 =>
    if s.stopped then s
    else match Script.next? tokens with
      | .error fault => { s with line := fault.line }.abort ("Syntax error: " ++ fault.text)
      | .ok none => s
      | .ok (some (script, rest)) =>
        let read := (tokens.take (tokens.length - rest.length)).getLast?
        let s := { s with lastLine := (read.map Token.line).getD s.lastLine }
        runTokens programs fuel tested (runAll programs fuel tested s script) rest

/-- The fields of words; where assignments are taken, these are not split. -/
def fields (programs : Starter) (fuel : Nat) (s : State) (assigns : Bool) (ws : List Word) :
    State × List String :=
  match fuel with
  | 0 => (s, [])
  | fuel + 1 =>
    match ws with
    | [] => (s, [])
    | w :: rest =>
      let (s, found) :=
        match w with
        | [.text true [], .parameter true "@" .value [], .text true []] => (s, s.arguments)
        | w =>
          let (s, fs) := expand programs fuel s w
          if assigns && (Script.assignment? w).isSome then (s, [Fragment.textOf fs])
          else
            let split := Fragment.fields s.separators fs
            (s, if s.options.contains 'f' then split.map Marked.text
              else split.flatMap (Pattern.expanded s.disk))
      if s.ended.isSome then (s, found)
      else
        let assigns := assigns || found.head?.any State.takesAssignments
        let (s, more) := fields programs fuel s assigns rest
        (s, found ++ more)

/-- Opens redirections in order, up to the first that fails. -/
def redirect (programs : Starter) (fuel : Nat) (s : State) (rs : List Redirect) :
    State × Option String :=
  match fuel with
  | 0 => (s, none)
  | fuel + 1 =>
    match rs with
    | [] => (s, none)
    | r :: rest =>
      let (s, fs) := expand programs fuel s r.target
      if s.ended.isSome then (s, none)
      else match s.open? r (Fragment.textOf fs) with
        | .ok s => redirect programs fuel s rest
        | .error text => (s, some text)

/-- Carries out assignments. -/
def assignAll (programs : Starter) (fuel : Nat) (s : State) (as : List (String × Word)) :
    State × List (String × String) :=
  match fuel with
  | 0 => (s, [])
  | fuel + 1 =>
    match as with
    | [] => (s, [])
    | (name, w) :: rest =>
      let (s, fs) := expand programs fuel s w
      if s.ended.isSome then (s, [])
      else
        let text := Fragment.textOf fs
        let (s, more) := assignAll programs fuel (s.assign name text) rest
        (s, (name, text) :: more)

/-- Carries out a command by its name and its arguments. -/
def call (programs : Starter) (fuel : Nat) (tested : Bool) (s : State) (name : String)
    (arguments : List String) : State :=
  match fuel with
  | 0 => s.abort "out of fuel"
  | fuel + 1 =>
    let after (name : String) (s : State) (run : State → State) : State :=
      { run { s with lead := name ++ ": " } with lead := s.lead }
    match s.functions.lookup name with
    | some body =>
      let after := runOne programs fuel tested
        { s with arguments, loops := 0, kept := some [] } body
      let values := after.kept.getD []
      let after := values.foldl (fun s (name, value) =>
        match value with
        | some value => s.assign name value
        | none => s.remove name) after
      let jump := match after.jump with
        | some (.function _) => none
        | jump => jump
      { after with arguments := s.arguments, loops := s.loops, kept := s.kept, jump }
    | none =>
      if name = "eval" then
        after name s fun s =>
          runText programs fuel tested { s with status := 0 } (" ".intercalate arguments)
      else if name = "." then
        match arguments with
        | [] => s
        | file :: _ =>
          let paths := if file.toList.contains '/' then [Path.mk file] else s.pathsOf file
          match paths.findSome? fun path => s.disk.readFile? path with
          | some bytes =>
            let ended := after name s fun s =>
              runText programs fuel false { s with status := 0 } (Utf8.decodeLossy bytes)
            match ended.jump with
            | some (.function _) => { ended with jump := none }
            | _ => ended
          | none => after name s fun s => s.abort ("cannot open " ++ file ++ ": No such file")
      else if name = "exec" then
        match arguments with
        | [] => { s with status := 0 }
        | program :: arguments =>
          let s := after name s fun s => s.program programs program arguments
          { s with ended := some (.exited s.status), traps := [] }
      else if name = "command" then
        match arguments with
        | [] => { s with status := 0 }
        | option :: name :: _ =>
          if option = "-v" ∨ option = "-V" then
            let found : Option String :=
              if (s.functions.lookup name).isSome || (s.builtin? name []).isSome then some name
              else ((s.pathsOf name).find? fun path => s.disk.kind? path = some .file).map Path.text
            match found with
            | some text => { s.write 1 (Utf8.encode (text ++ "\n")) with status := 0 }
            | none => { s with status := 127 }
          else
            match s.builtin? option (name :: arguments.drop 2) with
            | some s => s
            | none => s.program programs option (name :: arguments.drop 2)
        | [name] =>
          match s.builtin? name [] with
          | some s => s
          | none => s.program programs name []
      else match s.builtin? name arguments with
        | some s => s
        | none => s.program programs name arguments

/-- Carries out one command; a failure of one that is `tested` never ends the script. -/
def runOne (programs : Starter) (fuel : Nat) (tested : Bool) (s : State) (c : Command) : State :=
  match fuel with
  | 0 => s.abort "out of fuel"
  | fuel + 1 =>
    match c with
    | .simple line assignments words redirects =>
      let (expanded, arguments) :=
        fields programs fuel { s with line, outputStatus := 0 } false words
      if expanded.stopped then expanded
      else
        let special := arguments.head?.any State.isSpecial
        let (opened, failure) := redirect programs fuel expanded redirects
        let (assigned, values) := match failure with
          | some _ => (opened, [])
          | none => assignAll programs fuel opened assignments
        let shown (s : State) : State :=
          if s.options.contains 'x' then
            let texts := values.map (fun (name, value) => name ++ "=" ++ value) ++ arguments
            let text := (s.parameter? "PS4").getD "+ " ++ " ".intercalate texts ++ "\n"
            { (s.writeTo ((expanded.sink? 2).getD .nowhere) (Utf8.encode text)) with
              status := s.status }
          else s
        let after := match failure, arguments with
          | some text, _ => expanded.close redirects (opened.refused special text)
          | none, [] =>
            let status := if assigned.stopped then assigned.status else assigned.outputStatus
            expanded.close redirects { shown assigned with status }
          | none, name :: rest =>
            if assigned.stopped then expanded.close redirects assigned
            else
              let names := values.map (·.1)
              let started := shown
                { assigned with exported := names ++ assigned.exported }
              let after := call programs fuel tested started name rest
              let after := { after with
                exported := after.exported.filter fun name =>
                  !names.contains name || opened.exported.contains name }
              if name = "exec" then after
              else
                let after := expanded.close redirects after
                if special then after
                else names.foldl (fun s name =>
                  match opened.value? name with
                  | some value => s.assign name value
                  | none => s.remove name) after
        (dealWithSignals programs fuel after).checked tested
    | .group false body => runAll programs fuel tested s body
    | .group true body =>
      let after := s.restore (isolated programs fuel tested s body)
      (dealWithSignals programs fuel after).checked tested
    | .background body =>
      let after := isolated programs fuel false { s with input := [] } body
      let restored := s.restore after
      { restored with
        status := 0, input := s.input, ended := s.ended, backgroundStatus := some restored.status }
    | .choice subject arms =>
      let (s, fs) := expand programs fuel s subject
      if s.stopped then s
      else choose programs fuel tested { s with status := 0 } (Fragment.textOf fs).toList arms
    | .branch arms otherwise =>
      match arms with
      | [] => runAll programs fuel tested { s with status := 0 } otherwise
      | (condition, body) :: rest =>
        let s := runAll programs fuel true s condition
        if s.stopped then s
        else if s.status = 0 then runAll programs fuel tested s body
        else runOne programs fuel tested s (.branch rest otherwise)
    | .loop onSuccess condition body =>
      let after := repeatLoop programs fuel tested { s with loops := s.loops + 1 } onSuccess
        condition body 0
      { after with loops := s.loops }
    | .each name words body =>
      let (s, values) := match words with
        | none => (s, s.arguments)
        | some ws => fields programs fuel s false ws
      if s.stopped then s
      else
        let after := repeatEach programs fuel tested
          { s with status := 0, loops := s.loops + 1 } name values body
        { after with loops := s.loops }
    | .negated c =>
      let s := runOne programs fuel true s c
      if s.stopped then s else { s with status := if s.status = 0 then 1 else 0 }
    | .pipeline cs =>
      let after := pipe programs fuel tested s s.input cs
      (dealWithSignals programs fuel after).checked tested
    | .redirected c redirects =>
      let (opened, failure) := redirect programs fuel s redirects
      match failure with
      | some text => s.close redirects (opened.refused false text)
      | none =>
        if opened.stopped then s.close redirects opened
        else s.close redirects (runOne programs fuel tested opened c)
    | .define name body =>
      { s with functions := (name, body) :: s.functions, status := 0 }

/-- Carries out the first arm with a pattern that matches. -/
def choose (programs : Starter) (fuel : Nat) (tested : Bool) (s : State) (subject : List Char)
    (arms : List (List Word × Script)) : State :=
  match fuel with
  | 0 => s.abort "out of fuel"
  | fuel + 1 =>
    match arms with
    | [] => s
    | ([], _) :: rest => choose programs fuel tested s subject rest
    | (w :: ws, body) :: rest =>
      let (s, fs) := expand programs fuel s w
      if s.stopped then s
      else if Pattern.isMatch (Pattern.ofMarked (Fragment.marked fs)) subject then
        runAll programs fuel tested s body
      else choose programs fuel tested s subject ((ws, body) :: rest)

/-- Carries out the rounds of a loop with a condition, given the status of the last round. -/
def repeatLoop (programs : Starter) (fuel : Nat) (tested : Bool) (s : State) (onSuccess : Bool)
    (condition body : Script) (status : Nat) : State :=
  match fuel with
  | 0 => s.abort "out of fuel"
  | fuel + 1 =>
    let s := runAll programs fuel true s condition
    if s.stopped then
      let (s, again) := s.afterRound
      if again then repeatLoop programs fuel tested s onSuccess condition body status else s
    else if (s.status == 0) != onSuccess then { s with status }
    else
      let (s, again) := (runAll programs fuel tested s body).afterRound
      if again then repeatLoop programs fuel tested s onSuccess condition body s.status else s

/-- Carries out the rounds of a loop over values. -/
def repeatEach (programs : Starter) (fuel : Nat) (tested : Bool) (s : State) (name : String)
    (values : List String) (body : Script) : State :=
  match fuel with
  | 0 => s.abort "out of fuel"
  | fuel + 1 =>
    match values with
    | [] => s
    | value :: rest =>
      let (s, again) := (runAll programs fuel tested (s.assign name value) body).afterRound
      if again then repeatEach programs fuel tested s name rest body else s

/-- Carries out commands of which each reads what the one before it wrote. -/
def pipe (programs : Starter) (fuel : Nat) (tested : Bool) (s : State) (input : Bytes)
    (cs : List Command) : State :=
  match fuel with
  | 0 => s.abort "out of fuel"
  | fuel + 1 =>
    match cs with
    | [] => s
    | [c] =>
      let after := isolated programs fuel tested { s with input } [(.always, c)]
      { s.restore after with input := s.input }
    | c :: rest =>
      let streams := (1, Sink.captured) :: s.streams.filter (·.1 != 1)
      let after := isolated programs fuel tested { s with input, captured := [], streams }
        [(.always, c)]
      let restored := { s.restore after with captured := s.captured, input := s.input }
      pipe programs fuel tested restored after.captured rest

/-- Carries out commands one after the other, until the script ends. -/
def runAll (programs : Starter) (fuel : Nat) (tested : Bool) (s : State) (script : Script) :
    State :=
  match fuel with
  | 0 => s.abort "out of fuel"
  | fuel + 1 =>
    match script with
    | [] => s
    | (join, c) :: rest =>
      let goesOn := match join with
        | .always => true
        | .onSuccess => s.status == 0
        | .onFailure => s.status != 0
      if s.stopped then s
      else if goesOn then
        let followed := match rest with
          | (.always, _) :: _ | [] => false
          | _ => true
        runAll programs fuel tested (runOne programs fuel (tested || followed) s c) rest
      else runAll programs fuel tested s rest

end

/-- How much fuel a script gets. -/
def allowance : Nat := 1000000

/-- Carries out the text of a script under a name, with options of the shell, arguments, variables
and input, on a disk: how it ended with what it wrote, and the disk after it. -/
def run (programs : Starter) (options : List String) (text name : String)
    (arguments : List String) (bindings : List (String × String)) (input : Bytes) (disk : Disk) :
    Ending × Disk :=
  let s : State := { disk, name, arguments := [], bindings, exported := bindings.map (·.1), input }
  let s := s.setOptions options
  let s := runText programs allowance false { s with arguments, status := 0 } text
  let s := atEnd programs allowance s
  ({ outcome := s.ended.getD (.exited s.status), output := s.captured, errors := s.errors,
     left := s.input }, { s.disk with current := disk.current })

end Shell
end ProcessKit
