/-
# The words of a TOML document

Every reader takes the characters still to be read and gives what stands at their start with the
characters after it, or nothing when no such word stands there: keys, the four kinds of string,
numbers, dates and times, and the blanks and comments between them.
-/

import ProcessKit.Toml.Value

namespace ProcessKit
namespace Toml

/-- A space or a tab. -/
def isBlank (c : Char) : Bool := c == ' ' || c == '\t'

/-- A character that may stand in a comment or a literal string: anything but a control character,
except the tab. -/
def isPlain (c : Char) : Bool := c == '\t' || (0x20 ≤ c.toNat && c.toNat != 0x7F)

/-- The characters after the blanks. -/
def skipBlanks (cs : List Char) : List Char := cs.dropWhile isBlank

/-- The characters after a line end, if there is one. -/
def lineEnd? : List Char → Option (List Char)
  | '\n' :: rest => some rest
  | '\r' :: '\n' :: rest => some rest
  | _ => none

/-- The characters after a comment, or the same characters where none starts. -/
def skipComment : List Char → List Char
  | '#' :: rest => rest.dropWhile isPlain
  | cs => cs

/-- The characters after blanks, a comment and a line end; the end of the text is as good as a line
end. -/
def endLine? (cs : List Char) : Option (List Char) :=
  match skipComment (skipBlanks cs) with
  | [] => some []
  | rest => lineEnd? rest

/-- The characters after blanks, comments and line ends; every comment must end in a line end. -/
def skipLines : Nat → List Char → Option (List Char)
  | 0, cs => some cs
  | fuel + 1, cs =>
    match skipBlanks cs with
    | '#' :: rest => (lineEnd? (rest.dropWhile isPlain)).bind (skipLines fuel)
    | rest =>
      match lineEnd? rest with
      | some rest => skipLines fuel rest
      | none => some rest

/-- The value of a digit in a base up to 16. -/
def digitIn? (base : Nat) (c : Char) : Option Nat :=
  let n :=
    if '0' ≤ c ∧ c ≤ '9' then c.toNat - 48
    else if 'a' ≤ c ∧ c ≤ 'f' then c.toNat - 87
    else if 'A' ≤ c ∧ c ≤ 'F' then c.toNat - 55
    else 16
  if n < base then some n else none

/-- The number that digits stand for in a base. -/
def ofDigits (base : Nat) (digits : List Nat) : Nat := digits.foldl (fun n d => n * base + d) 0

/-- The character of a code point of so many hexadecimal digits. -/
def codePoint? (width : Nat) (cs : List Char) : Option (Char × List Char) := do
  let digits ← (cs.take width).mapM (digitIn? 16)
  let n := ofDigits 16 digits
  if digits.length = width ∧ (n < 0xD800 ∨ (0xDFFF < n ∧ n < 0x110000)) then
    some (Char.ofNat n, cs.drop width)
  else none

/-- The character of an escape, from the character after the backslash. -/
def escape? : List Char → Option (Char × List Char)
  | [] => none
  | c :: rest =>
    if c = 'b' then some ('\x08', rest)
    else if c = 't' then some ('\t', rest)
    else if c = 'n' then some ('\n', rest)
    else if c = 'f' then some ('\x0c', rest)
    else if c = 'r' then some ('\r', rest)
    else if c = '"' ∨ c = '\\' then some (c, rest)
    else if c = 'u' then codePoint? 4 rest
    else if c = 'U' then codePoint? 8 rest
    else none

/-- The two quotes. -/
inductive QuoteMark where
  /-- The double quote, between which a backslash starts an escape. -/
  | basic
  /-- The single quote, between which every character stands for itself. -/
  | literal
  deriving DecidableEq

/-- The character of a quote. -/
def QuoteMark.char : QuoteMark → Char
  | .basic => '"'
  | .literal => '\''

/-- The characters of a string on one line, up to the closing quote. -/
def lineString? (mark : QuoteMark) : Nat → List Char → Option (List Char × List Char)
  | 0, _ => none
  | _ + 1, [] => none
  | fuel + 1, c :: rest =>
    if c = mark.char then some ([], rest)
    else if c = '\\' ∧ mark = .basic then do
      let (c, rest) ← escape? rest
      let (cs, rest) ← lineString? mark fuel rest
      some (c :: cs, rest)
    else if isPlain c then do
      let (cs, rest) ← lineString? mark fuel rest
      some (c :: cs, rest)
    else none

/-- The characters after a line continuation, from the character after the backslash: blanks, a
line end, and all blanks and line ends that follow. -/
def continuation? (cs : List Char) : Option (List Char) :=
  (lineEnd? (skipBlanks cs)).map fun rest => go rest.length rest
where
  /-- At most as many line ends as `fuel` follow. -/
  go : Nat → List Char → List Char
    | 0, cs => cs
    | fuel + 1, cs =>
      match lineEnd? (skipBlanks cs) with
      | some rest => go fuel rest
      | none => skipBlanks cs

/-- The characters of a string over several lines, up to the closing quotes. A run of one or two
quotes is text; a longer one closes the string, after one or two more if it has four or five. -/
def blockString? (mark : QuoteMark) : Nat → List Char → Option (List Char × List Char)
  | 0, _ => none
  | _ + 1, [] => none
  | fuel + 1, c :: rest =>
    if c = mark.char then
      let run := ((c :: rest).takeWhile (· == c)).length
      if 3 ≤ run then
        some (List.replicate (min (run - 3) 2) c, (c :: rest).drop (min run 5))
      else do
        let (cs, rest) ← blockString? mark fuel rest
        some (c :: cs, rest)
    else if c = '\\' ∧ mark = .basic then
      match continuation? rest with
      | some rest => blockString? mark fuel rest
      | none => do
        let (c, rest) ← escape? rest
        let (cs, rest) ← blockString? mark fuel rest
        some (c :: cs, rest)
    else match lineEnd? (c :: rest) with
      | some rest => do
        let (cs, rest) ← blockString? mark fuel rest
        some ('\n' :: cs, rest)
      | none =>
        if isPlain c then do
          let (cs, rest) ← blockString? mark fuel rest
          some (c :: cs, rest)
        else none

/-- A string of any kind. A line end right after three opening quotes is no part of the text. -/
def string? (cs : List Char) : Option (String × List Char) := do
  let (cs, rest) ← match cs with
    | '"' :: '"' :: '"' :: rest => block .basic rest
    | '\'' :: '\'' :: '\'' :: rest => block .literal rest
    | '"' :: rest => lineString? .basic (rest.length + 1) rest
    | '\'' :: rest => lineString? .literal (rest.length + 1) rest
    | _ => none
  some (String.ofList cs, rest)
where
  /-- The rest of a string over several lines. -/
  block (mark : QuoteMark) (cs : List Char) : Option (List Char × List Char) :=
    blockString? mark (cs.length + 1) ((lineEnd? cs).getD cs)

/-- A character of a key without quotes. -/
def isBare (c : Char) : Bool := c.isAlphanum || c == '_' || c == '-'

/-- One key. -/
def simpleKey? (cs : List Char) : Option (String × List Char) :=
  match cs with
  | '"' :: rest => (lineString? .basic (rest.length + 1) rest).map fun (cs, rest) =>
    (String.ofList cs, rest)
  | '\'' :: rest => (lineString? .literal (rest.length + 1) rest).map fun (cs, rest) =>
    (String.ofList cs, rest)
  | _ =>
    let word := cs.takeWhile isBare
    if word.isEmpty then none else some (String.ofList word, cs.drop word.length)

/-- Keys with points between them and blanks around each. -/
def keys? : Nat → List Char → Option (List String × List Char)
  | 0, _ => none
  | fuel + 1, cs => do
    let (key, rest) ← simpleKey? (skipBlanks cs)
    match skipBlanks rest with
    | '.' :: rest => do
      let (keys, rest) ← keys? fuel rest
      some (key :: keys, rest)
    | rest => some ([key], rest)

/-- The greatest number of keys with points between them. -/
def maxKeys : Nat := 79

/-- A dotted key. -/
def dottedKey? (cs : List Char) : Option (List String × List Char) := keys? maxKeys cs

/-- Digits in a base, single underscores allowed between them. -/
def digits? (base : Nat) : List Char → Option (List Nat × List Char)
  | [] => none
  | c :: rest => (digitIn? base c).bind fun d => (more rest).map fun (ds, rest) => (d :: ds, rest)
where
  /-- The digits after the first one; an underscore wants a digit after it. -/
  more : List Char → Option (List Nat × List Char)
    | [] => some ([], [])
    | c :: rest =>
      match digitIn? base c with
      | some d => (more rest).map fun (ds, rest) => (d :: ds, rest)
      | none =>
        if c = '_' then
          match rest with
          | d :: _ => if (digitIn? base d).isSome then more rest else none
          | [] => none
        else some ([], c :: rest)

/-- A sign, `true` for minus. -/
def sign : List Char → Bool × List Char
  | '-' :: rest => (true, rest)
  | '+' :: rest => (false, rest)
  | cs => (false, cs)

/-- A decimal integer without a sign: a zero alone, or digits that do not start with one. -/
def decimal? (cs : List Char) : Option (List Nat × List Char) :=
  match cs with
  | '0' :: rest => some ([0], rest)
  | _ => digits? 10 cs

/-- An integer of 64 bits. -/
def int64? (n : Int) : Option Int :=
  if -0x8000000000000000 ≤ n ∧ n < 0x8000000000000000 then some n else none

/-- An integer: decimal with a sign or not, or in another base after its mark. -/
def integer? (cs : List Char) : Option (Int × List Char) :=
  match cs with
  | '0' :: 'x' :: rest => inBase 16 rest
  | '0' :: 'o' :: rest => inBase 8 rest
  | '0' :: 'b' :: rest => inBase 2 rest
  | _ => do
    let (negative, rest) := sign cs
    let (digits, rest) ← decimal? rest
    let n : Int := ofDigits 10 digits
    (int64? (if negative then -n else n)).map (·, rest)
where
  /-- The digits after the mark of a base. -/
  inBase (base : Nat) (cs : List Char) : Option (Int × List Char) := do
    let (digits, rest) ← digits? base cs
    (int64? (ofDigits base digits)).map (·, rest)

/-- An exponent, from the character after the `e`. -/
def exponent? (cs : List Char) : Option (Int × List Char) := do
  let (negative, rest) := sign cs
  let (digits, rest) ← digits? 10 rest
  let n : Int := ofDigits 10 digits
  some (if negative then -n else n, rest)

/-- The float of a sign, digits and a power of ten. One too large is refused, unless it is
negative and so an infinity. -/
def floatOf (negative : Bool) (digits : List Nat) (exponent : Int) (rest : List Char) :
    Option (Option Double × List Char) :=
  match Double.ofDecimal negative (ofDigits 10 digits) exponent with
  | some d => some (some d, rest)
  | none => if negative then some (none, rest) else none

/-- A float: an integer with a fraction, an exponent or both. -/
def float? (cs : List Char) : Option (Option Double × List Char) := do
  let (negative, rest) := sign cs
  match rest with
  | 'i' :: 'n' :: 'f' :: rest => some (none, rest)
  | 'n' :: 'a' :: 'n' :: rest => some (none, rest)
  | _ =>
    let (whole, rest) ← decimal? rest
    match rest with
    | '.' :: rest =>
      let (fraction, rest) ← digits? 10 rest
      let places : Int := fraction.length
      match rest with
      | 'e' :: rest | 'E' :: rest =>
        let (exponent, rest) ← exponent? rest
        floatOf negative (whole ++ fraction) (exponent - places) rest
      | _ => floatOf negative (whole ++ fraction) (-places) rest
    | 'e' :: rest | 'E' :: rest =>
      let (exponent, rest) ← exponent? rest
      floatOf negative whole exponent rest
    | _ => none

/-- A number of exactly so many decimal digits. -/
def fixed? (width : Nat) (cs : List Char) : Option (Nat × List Char) := do
  let digits ← (cs.take width).mapM (digitIn? 10)
  if digits.length = width then some (ofDigits 10 digits, cs.drop width) else none

/-- The characters after a given one. -/
def after? (c : Char) : List Char → Option (List Char)
  | d :: rest => if c = d then some rest else none
  | [] => none

/-- A date. -/
def date? (cs : List Char) : Option (Date × List Char) := do
  let (year, rest) ← fixed? 4 cs
  let (month, rest) ← fixed? 2 (← after? '-' rest)
  let (day, rest) ← fixed? 2 (← after? '-' rest)
  let date : Date := { year, month, day }
  if date.valid then some (date, rest) else none

/-- A time of day; digits of the fraction beyond the ninth are dropped. -/
def time? (cs : List Char) : Option (Time × List Char) := do
  let (hour, rest) ← fixed? 2 cs
  let (minute, rest) ← fixed? 2 (← after? ':' rest)
  let (second, rest) ← fixed? 2 (← after? ':' rest)
  let (nanosecond, rest) ← match rest with
    | '.' :: rest =>
      let digits := rest.takeWhile fun c => (digitIn? 10 c).isSome
      let value := ofDigits 10 ((digits ++ List.replicate 9 '0').take 9 |>.filterMap (digitIn? 10))
      if digits.isEmpty then none else some (value, rest.drop digits.length)
    | _ => some (0, rest)
  let time : Time := { hour, minute, second, nanosecond }
  if time.valid then some (time, rest) else none

/-- An offset, if there is one; `none` for one that no clock has. -/
def offset? (cs : List Char) : Option (Option Offset × List Char) :=
  match cs with
  | 'Z' :: rest | 'z' :: rest => some (some .utc, rest)
  | c :: rest =>
    if c = '+' ∨ c = '-' then do
      let (hour, rest) ← fixed? 2 rest
      let (minute, rest) ← fixed? 2 (← after? ':' rest)
      let ahead : Int := hour * 60 + minute
      if hour ≤ 23 ∧ minute ≤ 59 then some (some (.ahead (if c = '-' then -ahead else ahead)), rest)
      else none
    else some (none, cs)
  | [] => some (none, [])

/-- A date-time: a date, a time, or both with an offset or without one. -/
def dateTime? (cs : List Char) : Option (DateTime × List Char) :=
  match date? cs with
  | none => (time? cs).map fun (time, rest) => ({ time := some time }, rest)
  | some (date, rest) =>
    match timePart? rest with
    | some (time, offset, rest) => some ({ date := some date, time := some time, offset }, rest)
    | none => some ({ date := some date }, rest)
where
  /-- What may follow a date. -/
  timePart? (cs : List Char) : Option (Time × Option Offset × List Char) := do
    let rest ← match cs with
      | 'T' :: rest | 't' :: rest | ' ' :: rest => some rest
      | _ => none
    let (time, rest) ← time? rest
    let (offset, rest) ← offset? rest
    some (time, offset, rest)

/-- A date-time or a number, whichever takes the characters first in this order: a date-time, a
float, an integer. -/
def number? (cs : List Char) : Option (Value × List Char) :=
  match dateTime? cs with
  | some (t, rest) => some (.dateTime t, rest)
  | none =>
    match float? cs with
    | some (f, rest) => some (.float f, rest)
    | none => (integer? cs).map fun (i, rest) => (.integer i, rest)

end Toml
end ProcessKit
