/-
# Arithmetic in shell scripts

An expression is made of numbers, names of variables and the operators of integers of 64 bits, which
bind as in most languages. Division goes toward zero; a truth value is one or zero, and an operand
that does not matter is not evaluated. `Arithmetic.value` gives the value of a text and the
variables that it sets.
-/

namespace ProcessKit
namespace Shell
namespace Arithmetic

/-- Why a text has no value. -/
inductive Problem where
  /-- The text is no expression. -/
  | expecting (what : String)
  | divisionByZero
  /-- A variable does not hold a number. -/
  | illegalNumber (text : String)
  deriving DecidableEq, Repr

/-- An operator of two operands that are both evaluated. -/
inductive Operator where
  | times | divide | remainder | plus | minus | shiftLeft | shiftRight
  | less | greater | lessEqual | greaterEqual | equal | notEqual
  | bitAnd | bitXor | bitOr
  deriving DecidableEq, Repr

/-- An operator of one operand. -/
inductive Unary where
  | minus | plus | not | complement
  deriving DecidableEq, Repr

/-- An expression. -/
inductive Expression where
  | number (n : Int)
  | named (name : String)
  | change (sign : Unary) (a : Expression)
  | combine (operator : Operator) (a b : Expression)
  | both (a b : Expression)
  | either (a b : Expression)
  | choose (condition a b : Expression)
  /-- A variable is set, after the operator if there is one. -/
  | assign (name : String) (operator : Option Operator) (a : Expression)
  deriving Repr

/-- A token of an expression. -/
inductive Symbol where
  | number (n : Int)
  | name (text : String)
  | sign (text : String)
  deriving DecidableEq, Repr

/-- The operators, a longer one before those that it starts with. -/
def signs : List String :=
  ["<<=", ">>=", "<<", ">>", "<=", ">=", "==", "!=", "&&", "||", "*=", "/=", "%=", "+=", "-=", "&=",
    "^=", "|=", "<", ">", "=", "!", "&", "|", "^", "~", "+", "-", "*", "/", "%", "(", ")", "?", ":"]

/-- A character that numbers and names are made of. -/
def isWordChar (c : Char) : Bool := c.isAlphanum || c == '_'

/-- The value of a digit, be it a letter. -/
def digit (c : Char) : Nat := if c.isDigit then c.toNat - 48 else c.toLower.toNat - 87

/-- The number at the start of the characters: octal after a zero, hexadecimal after `0x`. -/
def number (cs : List Char) : Int × List Char :=
  let read (base : Nat) (isDigit : Char → Bool) (cs : List Char) : Int × List Char :=
    let ds := cs.takeWhile isDigit
    ((ds.foldl (fun n c => n * base + digit c) 0 : Nat), cs.drop ds.length)
  let isHex (c : Char) : Bool := c.isDigit || ('a' ≤ c.toLower && c.toLower ≤ 'f')
  match cs with
  | '0' :: x :: d :: rest =>
    if (x = 'x' ∨ x = 'X') ∧ isHex d then read 16 isHex (d :: rest)
    else read 8 (fun c => '0' ≤ c && c ≤ '7') cs
  | '0' :: rest => read 8 (fun c => '0' ≤ c && c ≤ '7') rest
  | cs => read 10 Char.isDigit cs

/-- The number that a whole text is, with a sign and white space around it; zero where the text is
empty. -/
def ofText? (text : String) : Option Int :=
  match text.toList.dropWhile Char.isWhitespace with
  | [] => some 0
  | c :: rest =>
    let digits := if c = '-' ∨ c = '+' then rest else c :: rest
    let (n, rest) := number digits
    if !(digits.head?.any Char.isDigit) || !rest.all Char.isWhitespace then none
    else some (if c = '-' then -n else n)

/-- The decimal number that a whole text is, with a sign and white space around it. -/
def decimal? (text : String) : Option Int :=
  let cs := text.toList.dropWhile Char.isWhitespace
  let digits := if cs.head? = some '-' ∨ cs.head? = some '+' then cs.tail else cs
  let read := digits.takeWhile Char.isDigit
  let n : Int := (read.foldl (fun n c => n * 10 + digit c) 0 : Nat)
  if read.isEmpty || !(digits.drop read.length).all Char.isWhitespace then none
  else some (if cs.head? = some '-' then -n else n)

/-- The tokens of an expression, up to a character that starts none. -/
def symbols : Nat → List Char → Except Problem (List Symbol)
  | 0, _ => .ok []
  | fuel + 1, cs =>
    match cs.dropWhile Char.isWhitespace with
    | [] => .ok []
    | c :: rest =>
      if c.isDigit then
        let (n, rest) := number (c :: rest)
        (symbols fuel rest).map (.number n :: ·)
      else if isWordChar c then
        let name := (c :: rest).takeWhile isWordChar
        (symbols fuel ((c :: rest).drop name.length)).map (.name (String.ofList name) :: ·)
      else
        match signs.find? (·.toList.isPrefixOf (c :: rest)) with
        | some found =>
          (symbols fuel ((c :: rest).drop found.length)).map (.sign found :: ·)
        | none => .ok [.sign (String.ofList [c])]

/-- The operators of two operands by how tightly they bind, the loosest first. -/
def levels : List (List (String × Operator)) :=
  [[("|", .bitOr)], [("^", .bitXor)], [("&", .bitAnd)], [("==", .equal), ("!=", .notEqual)],
    [("<", .less), (">", .greater), ("<=", .lessEqual), (">=", .greaterEqual)],
    [("<<", .shiftLeft), (">>", .shiftRight)], [("+", .plus), ("-", .minus)],
    [("*", .times), ("/", .divide), ("%", .remainder)]]

/-- The operators that set a variable. -/
def assignments : List (String × Option Operator) :=
  [("=", none), ("*=", some .times), ("/=", some .divide), ("%=", some .remainder),
    ("+=", some .plus), ("-=", some .minus), ("<<=", some .shiftLeft), (">>=", some .shiftRight),
    ("&=", some .bitAnd), ("^=", some .bitXor), ("|=", some .bitOr)]

mutual

/-- An assignment, or an expression with a condition. -/
def whole (fuel : Nat) (ss : List Symbol) : Except Problem (Expression × List Symbol) :=
  match fuel with
  | 0 => .error (.expecting "expecting primary")
  | fuel + 1 => do
    let conditional : Except Problem (Expression × List Symbol) := do
      let (condition, rest) ← alternatives fuel ss
      match rest with
      | .sign "?" :: rest =>
        match ← whole fuel rest with
        | (a, .sign ":" :: rest) =>
          let (b, rest) ← whole fuel rest
          return (.choose condition a b, rest)
        | _ => .error (.expecting "expecting ':'")
      | rest => return (condition, rest)
    match ss with
    | .name name :: .sign text :: rest =>
      match assignments.lookup text with
      | some operator =>
        let (a, rest) ← whole fuel rest
        return (.assign name operator a, rest)
      | none => conditional
    | _ => conditional

/-- Expressions of which one must be true. -/
def alternatives (fuel : Nat) (ss : List Symbol) : Except Problem (Expression × List Symbol) :=
  match fuel with
  | 0 => .error (.expecting "expecting primary")
  | fuel + 1 => do
    match ← conjunction fuel ss with
    | (a, .sign "||" :: rest) =>
      let (b, rest) ← alternatives fuel rest
      return (.either a b, rest)
    | found => return found

/-- Expressions that must all be true. -/
def conjunction (fuel : Nat) (ss : List Symbol) : Except Problem (Expression × List Symbol) :=
  match fuel with
  | 0 => .error (.expecting "expecting primary")
  | fuel + 1 => do
    match ← level fuel levels ss with
    | (a, .sign "&&" :: rest) =>
      let (b, rest) ← conjunction fuel rest
      return (.both a b, rest)
    | found => return found

/-- An expression of the operators of some levels. -/
def level (fuel : Nat) (levels : List (List (String × Operator))) (ss : List Symbol) :
    Except Problem (Expression × List Symbol) :=
  match fuel with
  | 0 => .error (.expecting "expecting primary")
  | fuel + 1 =>
    match levels with
    | [] => operand fuel ss
    | operators :: tighter => do
      let (a, rest) ← level fuel tighter ss
      chain fuel operators tighter a rest

/-- The operators of one level, and their operands, after an expression. -/
def chain (fuel : Nat) (operators : List (String × Operator))
    (tighter : List (List (String × Operator))) (a : Expression) (ss : List Symbol) :
    Except Problem (Expression × List Symbol) :=
  match fuel with
  | 0 => .error (.expecting "expecting primary")
  | fuel + 1 =>
    match ss with
    | .sign text :: rest =>
      match operators.lookup text with
      | some operator => do
        let (b, rest) ← level fuel tighter rest
        chain fuel operators tighter (.combine operator a b) rest
      | none => .ok (a, ss)
    | _ => .ok (a, ss)

/-- A number, a variable, an expression in parentheses, or one of these after a sign. -/
def operand (fuel : Nat) (ss : List Symbol) : Except Problem (Expression × List Symbol) :=
  match fuel with
  | 0 => .error (.expecting "expecting primary")
  | fuel + 1 =>
    let after (sign : Unary) (rest : List Symbol) : Except Problem (Expression × List Symbol) :=
      (operand fuel rest).map fun (a, rest) => (.change sign a, rest)
    match ss with
    | .number n :: rest => .ok (.number n, rest)
    | .name name :: rest => .ok (.named name, rest)
    | .sign "-" :: rest => after .minus rest
    | .sign "+" :: rest => after .plus rest
    | .sign "!" :: rest => after .not rest
    | .sign "~" :: rest => after .complement rest
    | .sign "(" :: rest => do
      match ← whole fuel rest with
      | (a, .sign ")" :: rest) => return (a, rest)
      | _ => .error (.expecting "expecting ')'")
    | _ => .error (.expecting "expecting primary")

end

/-- The expression that a text is. -/
def parse (text : String) : Except Problem Expression := do
  let ss ← symbols (text.length + 1) text.toList
  if ss.isEmpty then return .number 0
  match ← whole (16 * ss.length + 16) ss with
  | (a, []) => return a
  | _ => .error (.expecting "expecting EOF")

/-- A whole number as an integer of 64 bits. -/
def wrap (n : Int) : Int := n.bmod 0x10000000000000000

/-- The bits of an integer as a natural number. -/
def bits (n : Int) : Nat := (n % 0x10000000000000000).toNat

/-- A truth value as a number. -/
def truth (b : Bool) : Int := if b then 1 else 0

/-- The value of an operator. -/
def Operator.apply (operator : Operator) (a b : Int) : Except Problem Int :=
  match operator with
  | .times => .ok (wrap (a * b))
  | .divide => if b = 0 then .error .divisionByZero else .ok (wrap (a.tdiv b))
  | .remainder => if b = 0 then .error .divisionByZero else .ok (a.tmod b)
  | .plus => .ok (wrap (a + b))
  | .minus => .ok (wrap (a - b))
  | .shiftLeft => .ok (wrap (Int.ofNat (bits a <<< (bits b % 64))))
  | .shiftRight => .ok (a >>> (bits b % 64))
  | .less => .ok (truth (a < b))
  | .greater => .ok (truth (b < a))
  | .lessEqual => .ok (truth (a ≤ b))
  | .greaterEqual => .ok (truth (b ≤ a))
  | .equal => .ok (truth (a == b))
  | .notEqual => .ok (truth (a != b))
  | .bitAnd => .ok (wrap (Int.ofNat (bits a &&& bits b)))
  | .bitXor => .ok (wrap (Int.ofNat (bits a ^^^ bits b)))
  | .bitOr => .ok (wrap (Int.ofNat (bits a ||| bits b)))

/-- The value of a sign before an operand. -/
def Unary.apply (sign : Unary) (a : Int) : Int :=
  match sign with
  | .minus => wrap (-a)
  | .plus => a
  | .not => truth (a == 0)
  | .complement => wrap (-a - 1)

/-- Variables that an expression has set, the last one first. -/
abbrev Changes := List (String × Int)

/-- The value of a variable. -/
def variableValue (value : String → String) (changes : Changes) (name : String) :
    Except Problem Int :=
  match changes.lookup name with
  | some n => .ok n
  | none =>
    match ofText? (value name) with
    | some n => .ok (wrap n)
    | none => .error (.illegalNumber (value name))

/-- The value of an expression, given the texts of variables. -/
def Expression.eval (value : String → String) :
    Expression → Changes → Except Problem (Int × Changes)
  | .number n, changes => .ok (wrap n, changes)
  | .named name, changes => do return (← variableValue value changes name, changes)
  | .change sign a, changes => do
    let (a, changes) ← a.eval value changes
    return (sign.apply a, changes)
  | .combine operator a b, changes => do
    let (a, changes) ← a.eval value changes
    let (b, changes) ← b.eval value changes
    return (← operator.apply a b, changes)
  | .both a b, changes => do
    let (a, changes) ← a.eval value changes
    if a = 0 then return (0, changes)
    let (b, changes) ← b.eval value changes
    return (truth (b != 0), changes)
  | .either a b, changes => do
    let (a, changes) ← a.eval value changes
    if a ≠ 0 then return (1, changes)
    let (b, changes) ← b.eval value changes
    return (truth (b != 0), changes)
  | .choose condition a b, changes => do
    let (condition, changes) ← condition.eval value changes
    if condition ≠ 0 then a.eval value changes else b.eval value changes
  | .assign name operator a, changes => do
    let (a, changes) ← a.eval value changes
    let n ← match operator with
      | none => .ok a
      | some operator => do operator.apply (← variableValue value changes name) a
    return (n, (name, n) :: changes)

/-- The value of a text, and the variables that it sets, the last one first. -/
def value (textOf : String → String) (text : String) : Except Problem (Int × Changes) := do
  (← parse text).eval textOf []

/-- What is said about a text without a value. -/
def Problem.message (problem : Problem) (text : String) : String :=
  match problem with
  | .expecting what => "arithmetic expression: " ++ what ++ ": \"" ++ text ++ "\""
  | .divisionByZero => "arithmetic expression: division by zero: \"" ++ text ++ "\""
  | .illegalNumber number => "Illegal number: " ++ number

end Arithmetic
end Shell
end ProcessKit
