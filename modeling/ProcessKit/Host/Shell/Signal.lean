/-
# Signals

A signal has a number and a name. A process that gets one ends, unless it is one of the few that do
nothing by themselves, or the script has said what to do at it.
-/

import ProcessKit.Host.Shell.State

namespace ProcessKit
namespace Shell
namespace Signal

/-- The names of the signals in the order of their numbers; what has the number zero is the end of
the script. -/
def names : List String :=
  ["EXIT", "HUP", "INT", "QUIT", "ILL", "TRAP", "ABRT", "BUS", "FPE", "KILL", "USR1", "SEGV",
    "USR2", "PIPE", "ALRM", "TERM", "STKFLT", "CHLD", "CONT", "STOP", "TSTP", "TTIN", "TTOU", "URG",
    "XCPU", "XFSZ", "VTALRM", "PROF", "WINCH", "IO", "PWR", "SYS"]

/-- How many signals there are. -/
def count : Nat := 65

/-- The signal that a process gets when none is named. -/
def usual : Nat := 15

/-- The signals that nothing can be done about. -/
def inevitable : List Nat := [9, 19]

/-- The signals that do nothing by themselves. -/
def harmless : List Nat := [17, 18, 19, 20, 21, 22, 23, 28]

/-- The number that a text is. -/
def number? (text : String) : Option Nat :=
  if text.toList.all Char.isDigit then text.toNat? else none

/-- The signal of a name or a number; a name may be in small letters. -/
def ofText? (text : String) : Option Nat :=
  match number? text with
  | some n => if n < count then some n else none
  | none => names.idxOf? (text.map Char.toUpper)

end Signal

namespace State

/-- After a signal. -/
def receive (s : State) (signal : Nat) : State :=
  let ended : State := if Signal.harmless.contains signal then s
    else { s with ended := some (.killed signal) }
  if signal = 0 then s
  else if s.isIsolated then { s with signals := s.signals ++ [signal] }
  else if Signal.inevitable.contains signal then ended
  else match s.traps.lookup signal with
    | some "" => s
    | some _ => { s with signals := s.signals ++ [signal] }
    | none => ended

/-- What is said about a wrong use of `kill`. -/
def killUsage : String :=
  "Usage: kill [-s sigspec | -signum | -sigspec] [pid | job]... or\nkill -l [exitstatus]"

/-- After a signal to processes. -/
def kill (s : State) (arguments : List String) : State :=
  let send (signal : Nat) (processes : List String) : State :=
    if processes.isEmpty then s.complain 2 killUsage
    else processes.foldl (fun s process =>
      if s.stopped then s
      else if process = processSign then s.receive signal
      else if process = backgroundSign then s
      else if (Signal.number? process).isSome then
        { s.complain 1 "No such process\n" with status := 1 }
      else s.complain 2 ("Illegal number: " ++ process)) { s with status := 0 }
  match arguments with
  | [] => s.complain 2 killUsage
  | first :: rest =>
    match first.toList with
    | '-' :: letters =>
      match Signal.ofText? (String.ofList letters), letters, rest with
      | some signal, _ :: _, _ => send signal rest
      | _, ['-'], _ => send Signal.usual rest
      | _, ['s'], name :: rest =>
        match Signal.ofText? name with
        | some signal => send signal rest
        | none => s.complain 2 ("invalid signal number or name: " ++ name)
      | _, ['s'], [] => s.complain 2 "No arg for -s option"
      | _, 'l' :: _, _ => { s with status := 0 }
      | _, c :: _, _ => s.complain 2 ("Illegal option -" ++ String.ofList [c])
      | _, [], _ => s.complain 2 ("Illegal number: " ++ first)
    | _ => send Signal.usual arguments

/-- After a change of what is done at signals: the first argument tells what, unless it is a number
or stands alone; a dash there takes back what was said before. -/
def trap (s : State) (arguments : List String) : State :=
  match arguments with
  | [] => { s with status := 0 }
  | first :: rest =>
    let resets := rest.isEmpty || (Signal.number? first).isSome
    let action := if resets || first = "-" then none else some first
    go { s with status := 0 } action (if resets then arguments else rest)
where
  /-- Says what to do at each signal, up to the first that does not exist. -/
  go (s : State) (action : Option String) : List String → State
    | [] => s
    | text :: rest =>
      match Signal.ofText? text with
      | none =>
        { s.write 2 (Utf8.encode ("trap: " ++ text ++ ": bad trap\n")) with status := 1 }
      | some signal =>
        let others := s.traps.filter (·.1 != signal)
        let traps := match action with
          | some action => (signal, action) :: others
          | none => others
        go { s with traps } action rest

end State
end Shell
end ProcessKit
