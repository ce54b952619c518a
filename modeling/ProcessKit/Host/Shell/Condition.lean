/-
# Conditions

The arguments of `test` are a condition about texts, numbers and what is on a disk. What an argument
is depends on what follows it: a sign that nothing follows, or that an operator of two operands
follows, is a text.
-/

import ProcessKit.Host.Shell.Arithmetic
import ProcessKit.Disk.Operations

namespace ProcessKit
namespace Shell
namespace Condition

/-- The operators of one operand. -/
def unary : List String :=
  ["-r", "-w", "-x", "-e", "-f", "-d", "-c", "-b", "-p", "-u", "-g", "-k", "-s", "-t", "-z", "-n",
    "-h", "-O", "-G", "-L", "-S"]

/-- The operators of two operands. -/
def binary : List String :=
  ["=", "!=", "<", ">", "-eq", "-ne", "-ge", "-gt", "-le", "-lt", "-nt", "-ot", "-ef"]

/-- What the first argument is. -/
inductive Role where
  | finish
  | operand
  | sign (text : String)
  deriving DecidableEq

/-- The role of the first argument. -/
def role (arguments : List String) : Role :=
  match arguments with
  | [] => .finish
  | a :: rest =>
    let isOperand := match rest with
      | [] => true
      | [_] => false
      | b :: _ => binary.contains b
    if unary.contains a then if isOperand then .operand else .sign a
    else if a = "(" && rest.isEmpty then .operand
    else if ["!", "-a", "-o", "(", ")"].contains a || binary.contains a then .sign a
    else .operand

/-- Whether an operator holds of an operand. -/
def holds (disk : Disk) (sign operand : String) : Bool :=
  let path : Path := ⟨operand⟩
  match sign with
  | "-n" => operand != ""
  | "-z" => operand == ""
  | "-e" | "-r" | "-w" | "-O" | "-G" => (disk.kind? path).isSome
  | "-d" => disk.kind? path == some .dir
  | "-f" => disk.kind? path == some .file
  | "-c" => disk.kind? path == some .other
  | "-s" =>
    match disk.kind? path with
    | some .dir => true
    | _ => (disk.readFile? path).any fun bytes => !bytes.isEmpty
  | "-x" =>
    match disk.find true path with
    | .entry _ (.file _ mode) => mode &&& 0o111 != 0
    | .entry .. => true
    | _ => false
  | "-h" | "-L" =>
    match disk.find false path with
    | .entry _ (.link _) => true
    | _ => false
  | _ => false

/-- Whether an operator holds of two operands; a text where a number must stand is an error. -/
def compare (disk : Disk) (sign a b : String) : Except String Bool :=
  let number (text : String) : Except String Int :=
    match Arithmetic.decimal? text with
    | some n => .ok n
    | none => .error ("Illegal number: " ++ text)
  let numbers (f : Int → Int → Bool) : Except String Bool := do
    return f (← number a) (← number b)
  match sign with
  | "=" => .ok (a == b)
  | "!=" => .ok (a != b)
  | "<" => .ok (a < b)
  | ">" => .ok (b < a)
  | "-eq" => numbers (· == ·)
  | "-ne" => numbers (· != ·)
  | "-lt" => numbers (· < ·)
  | "-le" => numbers (· ≤ ·)
  | "-gt" => numbers (· > ·)
  | "-ge" => numbers (· ≥ ·)
  | "-ef" =>
    match disk.find true ⟨a⟩, disk.find true ⟨b⟩ with
    | .entry p _, .entry q _ => .ok (p == q)
    | _, _ => .ok false
  | _ => .ok false

mutual

/-- Conditions of which one must hold, and the arguments from the last one used on. -/
def either (disk : Disk) (fuel : Nat) (arguments : List String) :
    Except String (Bool × List String) :=
  match fuel with
  | 0 => .error "too many arguments"
  | fuel + 1 => do
    let (a, rest) ← both disk fuel arguments
    if role rest.tail = .sign "-o" then
      let (b, rest) ← either disk fuel (rest.drop 2)
      return (a || b, rest)
    else return (a, rest)

/-- Conditions that must all hold. -/
def both (disk : Disk) (fuel : Nat) (arguments : List String) :
    Except String (Bool × List String) :=
  match fuel with
  | 0 => .error "too many arguments"
  | fuel + 1 => do
    let (a, rest) ← negated disk fuel arguments
    if role rest.tail = .sign "-a" then
      let (b, rest) ← both disk fuel (rest.drop 2)
      return (a && b, rest)
    else return (a, rest)

/-- A condition, or one that must not hold. -/
def negated (disk : Disk) (fuel : Nat) (arguments : List String) :
    Except String (Bool × List String) :=
  match fuel with
  | 0 => .error "too many arguments"
  | fuel + 1 => do
    if role arguments = .sign "!" then
      let (a, rest) ← negated disk fuel arguments.tail
      return (!a, if arguments.tail.isEmpty then arguments else rest)
    else primary disk fuel arguments

/-- A condition without operators between conditions. -/
def primary (disk : Disk) (fuel : Nat) (arguments : List String) :
    Except String (Bool × List String) :=
  match fuel with
  | 0 => .error "too many arguments"
  | fuel + 1 => do
    match role arguments, arguments with
    | .finish, _ | _, [] => return (false, arguments)
    | .sign "(", _ :: rest =>
      if role rest = .sign ")" then return (false, rest)
      let (a, rest) ← either disk fuel rest
      if role rest.tail = .sign ")" then return (a, rest.tail)
      else .error "closing paren expected"
    | found, a :: rest =>
      let isUnary := match found with
        | .sign sign => unary.contains sign
        | _ => false
      if isUnary then
        match rest with
        | [] => .error (a ++ ": argument expected")
        | b :: _ => return (holds disk a b, rest)
      else
        match rest with
        | sign :: rest =>
          if binary.contains sign then
            match rest with
            | [] => .error (sign ++ ": argument expected")
            | b :: _ => return (← compare disk sign a b, rest)
          else return (a != "", arguments)
        | [] => return (a != "", arguments)

end

/-- Whether a condition holds. -/
def eval (disk : Disk) : Nat → List String → Except String Bool
  | 0, _ => .error "too many arguments"
  | fuel + 1, arguments =>
    let read (arguments : List String) : Except String Bool := do
      let (a, rest) ← either disk (4 * arguments.length + 8) arguments
      match rest with
      | sign :: _ :: _ => .error (sign ++ ": unexpected operator")
      | _ => return a
    match arguments with
    | [] => .ok false
    | [a, sign, b] =>
      if binary.contains sign then compare disk sign a b
      else if a = "(" && b = ")" then read [sign]
      else if a = "!" then (eval disk fuel [sign, b]).map (!·)
      else read arguments
    | [a, b, c, d] =>
      if a = "(" && d = ")" then read [b, c]
      else if a = "!" then (eval disk fuel [b, c, d]).map (!·)
      else read arguments
    | arguments => read arguments

end Condition
end Shell
end ProcessKit
