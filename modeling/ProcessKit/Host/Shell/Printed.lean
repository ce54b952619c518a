/-
# What a shell prints

`echo` prints its arguments with escapes in them; `printf` prints them as a format asks, each number
and text laid out in a field.
-/

import ProcessKit.Host.Shell.Arithmetic
import ProcessKit.Text.Utf8

namespace ProcessKit
namespace Shell

/-- At most so many octal digits at the start of the characters. -/
def octal : Nat → Nat → List Char → Nat × List Char
  | 0, n, cs => (n, cs)
  | width + 1, n, c :: cs =>
    if '0' ≤ c ∧ c ≤ '7' then octal width (n * 8 + (c.toNat - 48)) cs else (n, c :: cs)
  | _ + 1, n, [] => (n, [])

/-- The byte of an escape, from the character after the backslash. -/
def escape? : List Char → Option (UInt8 × List Char)
  | 'a' :: rest => some (7, rest)
  | 'b' :: rest => some (8, rest)
  | 't' :: rest => some (9, rest)
  | 'n' :: rest => some (10, rest)
  | 'v' :: rest => some (11, rest)
  | 'f' :: rest => some (12, rest)
  | 'r' :: rest => some (13, rest)
  | '\\' :: rest => some (92, rest)
  | 'e' :: rest => some (27, rest)
  | c :: rest =>
    if '0' ≤ c ∧ c ≤ '7' then
      let (n, rest) := octal 3 0 (c :: rest)
      some (n.toUInt8, rest)
    else none
  | [] => none

/-- The bytes of a text with escapes, and whether it goes on: `\c` ends all output. Octal digits
come after a zero here. -/
def unescape : Nat → List Char → Bytes × Bool
  | 0, _ => ([], true)
  | _ + 1, [] => ([], true)
  | fuel + 1, c :: rest =>
    let keep (bytes : Bytes) (rest : List Char) : Bytes × Bool :=
      let (more, goesOn) := unescape fuel rest
      (bytes ++ more, goesOn)
    if c ≠ '\\' then keep (String.utf8EncodeChar c) rest
    else match rest with
      | 'c' :: _ => ([], false)
      | '0' :: rest =>
        let (n, rest) := octal 3 0 rest
        keep [n.toUInt8] rest
      | _ =>
        match escape? rest with
        | some (byte, rest) => keep [byte] rest
        | none => keep [92] rest

/-- What `echo` writes. -/
def echoed (arguments : List String) : Bytes :=
  let (newline, arguments) := match arguments with
    | "-n" :: rest => (false, rest)
    | all => (true, all)
  let text := (" ".intercalate arguments).toList
  let (bytes, goesOn) := unescape (text.length + 1) text
  if newline && goesOn then bytes ++ [10] else bytes

/-- How a value is laid out by `printf`. -/
structure Layout where
  left : Bool := false
  zeros : Bool := false
  /-- What stands before a number that is not negative. -/
  sign : List Char := []
  /-- Whether the base of a number is shown. -/
  showsBase : Bool := false
  width : Nat := 0
  precision : Option Nat := none

namespace Layout

/-- The layout at the start of the characters, and the arguments that it leaves. -/
def read (layout : Layout) (arguments : List String) :
    List Char → Layout × List String × List Char
  | '-' :: rest => read { layout with left := true } arguments rest
  | '0' :: rest => read { layout with zeros := true } arguments rest
  | '+' :: rest => read { layout with sign := ['+'] } arguments rest
  | ' ' :: rest =>
    read { layout with sign := if layout.sign = [] then [' '] else layout.sign } arguments rest
  | '#' :: rest => read { layout with showsBase := true } arguments rest
  | cs =>
    let number (arguments : List String) (cs : List Char) : Nat × List String × List Char :=
      match cs with
      | '*' :: rest => (((arguments.headD "").toNat?).getD 0, arguments.tail, rest)
      | cs =>
        let digits := cs.takeWhile Char.isDigit
        ((String.ofList digits).toNat?.getD 0, arguments, cs.drop digits.length)
    let (width, arguments, cs) := number arguments cs
    match cs with
    | '.' :: rest =>
      let (precision, arguments, rest) := number arguments rest
      ({ layout with width, precision := some precision }, arguments, rest)
    | _ => ({ layout with width }, arguments, cs)

/-- Bytes laid out. -/
def fill (layout : Layout) (bytes : Bytes) : Bytes :=
  let blanks := List.replicate (layout.width - bytes.length) 32
  if layout.left then bytes ++ blanks else blanks ++ bytes

/-- A number laid out, given what shows its sign or its base. -/
def fillNumber (layout : Layout) (lead digits : List Char) : Bytes :=
  let least := match layout.precision with
    | some precision => precision
    | none => if layout.zeros && !layout.left then layout.width - lead.length else 0
  let zeros := List.replicate (least - digits.length) '0'
  layout.fill (Utf8.encode (String.ofList (lead ++ zeros ++ digits)))

end Layout

/-- What a format writes, the arguments that it leaves, what is wrong with them, and whether the
format itself is wrong. -/
structure Formatted where
  bytes : Bytes := []
  arguments : List String
  complaints : List String := []
  broken : Bool := false

/-- The number that an argument is, and what is wrong with it. After a quote stands a character. -/
def argumentNumber (text : String) : Int × List String :=
  match text.toList with
  | [] => (0, [])
  | '\'' :: rest | '"' :: rest =>
    ((Utf8.encode (String.ofList rest)).head?.map (fun b => (b.toNat : Int)) |>.getD 0, [])
  | cs =>
    let cs := cs.dropWhile Char.isWhitespace
    let negative := cs.head? == some '-'
    let digits := if negative || cs.head? == some '+' then cs.tail else cs
    let (n, rest) := Arithmetic.number digits
    if !(digits.head?.any Char.isDigit) then (0, [text ++ ": expected numeric value"])
    else (if negative then -n else n,
      if rest.isEmpty then [] else [text ++ ": not completely converted"])

/-- A number in the style that a letter asks for. -/
def numberText (layout : Layout) (kind : Char) (n : Int) : Bytes :=
  if kind = 'd' ∨ kind = 'i' then
    layout.fillNumber (if n < 0 then ['-'] else layout.sign) (Nat.toDigits 10 n.natAbs)
  else
    let n := (n % 0x10000000000000000).toNat
    let base := if kind = 'o' then 8 else if kind = 'u' then 10 else 16
    let digits := Nat.toDigits base n
    let lead := if !layout.showsBase || n = 0 then []
      else if kind = 'o' then ['0'] else if kind = 'u' then [] else ['0', kind]
    layout.fillNumber lead (if kind = 'X' then digits.map Char.toUpper else digits)

/-- What a format writes. -/
def formatted : Nat → List String → List Char → Formatted
  | 0, arguments, _ => { arguments }
  | _ + 1, arguments, [] => { arguments }
  | fuel + 1, arguments, c :: rest =>
    let keep (bytes : Bytes) (arguments : List String) (rest : List Char) : Formatted :=
      let more := formatted fuel arguments rest
      { more with bytes := bytes ++ more.bytes }
    if c = '\\' then
      match escape? rest with
      | some (byte, rest) => keep [byte] arguments rest
      | none => keep [92] arguments rest
    else if c ≠ '%' then keep (String.utf8EncodeChar c) arguments rest
    else if rest.head? = some '%' then keep [37] arguments rest.tail
    else
      let (layout, arguments, after) := ({} : Layout).read arguments rest
      let text := arguments.headD ""
      match after with
      | [] => { arguments := [], complaints := ["missing format character"], broken := true }
      | kind :: after =>
        if kind = 's' then
          let bytes := Utf8.encode text
          let shown := layout.fill (bytes.take (layout.precision.getD bytes.length))
          keep shown arguments.tail after
        else if kind = 'b' then
          let (bytes, goesOn) := unescape (text.length + 1) text.toList
          if goesOn then keep (layout.fill bytes) arguments.tail after
          else { bytes := layout.fill bytes, arguments := [] }
        else if kind = 'c' then
          keep (layout.fill ((Utf8.encode text).take 1)) arguments.tail after
        else if "diouxX".toList.contains kind then
          let (n, complaints) := argumentNumber text
          let found := keep (numberText layout kind n) arguments.tail after
          { found with complaints := complaints ++ found.complaints }
        else
          let shown := rest.take (rest.length - after.length)
          { arguments := [], broken := true,
            complaints := ["%" ++ String.ofList shown ++ ": invalid directive"] }

/-- What `printf` writes: the format is used again as long as it uses up arguments. -/
def printed (format : String) : Nat → List String → Formatted
  | 0, arguments => { arguments }
  | fuel + 1, arguments =>
    let first := formatted (format.length + 1) arguments format.toList
    if first.arguments.isEmpty || first.arguments.length = arguments.length then first
    else
      let more := printed format fuel first.arguments
      { more with
        bytes := first.bytes ++ more.bytes
        complaints := first.complaints ++ more.complaints }

end Shell
end ProcessKit
