/-
# Reading JSON text

`Json.parse` reads one value with white space around it. A reader takes the characters still to be
read and gives a value with the characters after it, or a `Fault`: the reason, and the place as the
characters left there with a count of bytes beyond, from which `Fault.position` counts line and
column in bytes. Nesting is limited to 127 levels.

A number that is not an integer of 64 bits is read as at most 64 bits of digits times a power of
ten, rounded once for the digits and once for each multiplication or division by a power of ten up
to `1e308`.
-/

import ProcessKit.Json.Value
import ProcessKit.Text.Utf8

namespace ProcessKit

namespace Double

/-- `± significand * 10 ^ exponent`, the significand rounded first and then scaled by the rounded
power of ten, in two steps where the power is below `1e-308`; `none` when it would be infinite. -/
def scaleByTen (negative : Bool) (significand : Nat) (exponent : Int) : Option Double :=
  (ofNat? negative significand).bind fun f => go 3 f exponent
where
  /-- At most three divisions by `1e308` leave any significand at zero. -/
  go : Nat → Double → Int → Option Double
    | 0, f, _ => some f
    | fuel + 1, f, exponent =>
      if exponent.natAbs ≤ 308 then
        (ofDecimal false 1 exponent.natAbs).bind fun power =>
          if 0 ≤ exponent then mul? f power else div? f power
      else if f.isZero then some f
      else if 0 ≤ exponent then none
      else (ofDecimal false 1 308).bind fun power =>
        (div? f power).bind fun f => go fuel f (exponent + 308)

end Double

namespace Json

/-- Why a text is not JSON, or not the JSON that was wanted. -/
inductive Reason where
  | endInList
  | endInObject
  | endInString
  | endInValue
  | expectedColon
  | expectedListEnd
  | expectedObjectEnd
  | expectedLiteral
  | expectedValue
  | invalidEscape
  | invalidNumber
  | numberOutOfRange
  | controlCharacter
  | keyNotString
  | loneSurrogate
  | trailingComma
  | trailingCharacters
  | endInEscape
  | tooDeep
  /-- The text is JSON, but not of the kind that was wanted. -/
  | unwanted (message : String)
  deriving DecidableEq, Repr

/-- The wording of a reason. -/
def Reason.message : Reason → String
  | .endInList => "EOF while parsing a list"
  | .endInObject => "EOF while parsing an object"
  | .endInString => "EOF while parsing a string"
  | .endInValue => "EOF while parsing a value"
  | .expectedColon => "expected \x60:\x60"
  | .expectedListEnd => "expected \x60,\x60 or \x60]\x60"
  | .expectedObjectEnd => "expected \x60,\x60 or \x60\x7d\x60"
  | .expectedLiteral => "expected ident"
  | .expectedValue => "expected value"
  | .invalidEscape => "invalid escape"
  | .invalidNumber => "invalid number"
  | .numberOutOfRange => "number out of range"
  | .controlCharacter => "control character (\\u0000-\\u001F) found while parsing a string"
  | .keyNotString => "key must be a string"
  | .loneSurrogate => "lone leading surrogate in hex escape"
  | .trailingComma => "trailing comma"
  | .trailingCharacters => "trailing characters"
  | .endInEscape => "unexpected end of hex escape"
  | .tooDeep => "recursion limit exceeded"
  | .unwanted message => message

/-- A reason and its place: `beyond` bytes into the characters that are left. -/
structure Fault where
  reason : Reason
  left : List Char
  beyond : Nat := 0

/-- A fault at the next character, which is counted into the place. -/
def faultAt (reason : Reason) (left : List Char) : Fault :=
  { reason, left, beyond := min 1 left.length }

/-- The characters after white space. -/
def skipBlanks : List Char → List Char
  | c :: rest => if c = ' ' ∨ c = '\n' ∨ c = '\t' ∨ c = '\r' then skipBlanks rest else c :: rest
  | [] => []

/-- The rest of a literal whose first character was read. -/
def readLiteral (value : Json) : List Char → List Char → Except Fault (Json × List Char)
  | [], rest => .ok (value, rest)
  | _ :: _, [] => .error { reason := .endInValue, left := [] }
  | e :: expected, c :: rest =>
    if e = c then readLiteral value expected rest else .error (faultAt .expectedLiteral (c :: rest))

/-- The value of a hexadecimal digit. -/
def hexValue? (c : Char) : Option Nat :=
  if '0' ≤ c ∧ c ≤ '9' then some (c.toNat - 48)
  else if 'a' ≤ c ∧ c ≤ 'f' then some (c.toNat - 87)
  else if 'A' ≤ c ∧ c ≤ 'F' then some (c.toNat - 55)
  else none

/-- The four digits of an escape. Four bytes are taken before they are looked at. -/
def readHex (cs : List Char) : Except Fault (Nat × List Char) :=
  match cs with
  | a :: b :: c :: d :: rest =>
    match hexValue? a, hexValue? b, hexValue? c, hexValue? d with
    | some a, some b, some c, some d => .ok (((a * 16 + b) * 16 + c) * 16 + d, rest)
    | _, _, _, _ => .error { reason := .invalidEscape, left := cs, beyond := 4 }
  | _ =>
    if 4 ≤ Utf8.byteCount cs then .error { reason := .invalidEscape, left := cs, beyond := 4 }
    else .error { reason := .endInString, left := [] }

/-- The character of a `u` escape, which may need a second escape for its other half. -/
def readUnicodeEscape (cs : List Char) : Except Fault (Char × List Char) := do
  let (n, rest) ← readHex cs
  if 0xDC00 ≤ n ∧ n ≤ 0xDFFF then .error { reason := .loneSurrogate, left := rest }
  else if n < 0xD800 ∨ 0xDBFF < n then .ok (Char.ofNat n, rest)
  else match rest with
    | [] => .error { reason := .endInString, left := [] }
    | '\\' :: [] => .error { reason := .endInString, left := [] }
    | '\\' :: 'u' :: rest =>
      let (n', rest) ← readHex rest
      if n' < 0xDC00 ∨ 0xDFFF < n' then .error { reason := .loneSurrogate, left := rest }
      else .ok (Char.ofNat (0x10000 + (n - 0xD800) * 0x400 + (n' - 0xDC00)), rest)
    | '\\' :: rest => .error (faultAt .endInEscape rest)
    | rest => .error (faultAt .endInEscape rest)

/-- One escape, from the character after the backslash. -/
def readEscape : List Char → Except Fault (Char × List Char)
  | [] => .error { reason := .endInString, left := [] }
  | c :: rest =>
    if c = '"' ∨ c = '\\' ∨ c = '/' then .ok (c, rest)
    else if c = 'b' then .ok ('\x08', rest)
    else if c = 'f' then .ok ('\x0c', rest)
    else if c = 'n' then .ok ('\n', rest)
    else if c = 'r' then .ok ('\r', rest)
    else if c = 't' then .ok ('\t', rest)
    else if c = 'u' then readUnicodeEscape rest
    else .error (faultAt .invalidEscape (c :: rest))

/-- The characters of a string up to its closing quote. -/
def readChars : Nat → List Char → Except Fault (List Char × List Char)
  | 0, cs => .error { reason := .endInString, left := cs }
  | _ + 1, [] => .error { reason := .endInString, left := [] }
  | fuel + 1, c :: rest =>
    if c = '"' then .ok ([], rest)
    else if c = '\\' then do
      let (c, rest) ← readEscape rest
      let (cs, rest) ← readChars fuel rest
      .ok (c :: cs, rest)
    else if c.toNat < 0x20 then .error (faultAt .controlCharacter (c :: rest))
    else do
      let (cs, rest) ← readChars fuel rest
      .ok (c :: cs, rest)

/-- A string, from the character after its opening quote. -/
def readString (cs : List Char) : Except Fault (String × List Char) := do
  let (chars, rest) ← readChars (cs.length + 1) cs
  .ok (String.ofList chars, rest)

/-- The value of a decimal digit. -/
def digit? (c : Char) : Option Nat := if '0' ≤ c ∧ c ≤ '9' then some (c.toNat - 48) else none

/-- Digits added to a significand as long as it stays below `2 ^ 64`, with their number. -/
def readDigits (significand : Nat) : List Char → Nat × Nat × List Char
  | [] => (significand, 0, [])
  | c :: rest =>
    match digit? c with
    | none => (significand, 0, c :: rest)
    | some d =>
      if 0x10000000000000000 ≤ significand * 10 + d then (significand, 0, c :: rest)
      else
        let (value, count, left) := readDigits (significand * 10 + d) rest
        (value, count + 1, left)

/-- Digits passed over, with their number. -/
def skipDigits : List Char → Nat × List Char
  | [] => (0, [])
  | c :: rest =>
    match digit? c with
    | none => (0, c :: rest)
    | some _ => let (count, left) := skipDigits rest; (count + 1, left)

/-- The double of a significand and a power of ten. -/
def double (negative : Bool) (significand : Nat) (exponent : Int) (left : List Char) :
    Except Fault (JsonNumber × List Char) :=
  match Double.scaleByTen negative significand exponent with
  | some d => .ok (.double d, left)
  | none => .error { reason := .numberOutOfRange, left }

/-- The digits of an exponent, up to the first that brings it to `2 ^ 31`. -/
def readExponentDigits (exponent : Nat) : List Char → Except (List Char) (Nat × List Char)
  | [] => .ok (exponent, [])
  | c :: rest =>
    match digit? c with
    | none => .ok (exponent, c :: rest)
    | some d =>
      if 0x80000000 ≤ exponent * 10 + d then .error rest
      else readExponentDigits (exponent * 10 + d) rest

/-- An exponent, from the character after the `e`. -/
def readExponent (negative : Bool) (significand : Nat) (exponent : Int) (cs : List Char) :
    Except Fault (JsonNumber × List Char) :=
  let (down, cs) := match cs with
    | '+' :: rest => (false, rest)
    | '-' :: rest => (true, rest)
    | _ => (false, cs)
  match cs with
  | [] => .error { reason := .endInValue, left := [] }
  | c :: rest =>
    match digit? c with
    | none => .error (faultAt .invalidNumber (c :: rest))
    | some d =>
      match readExponentDigits d rest with
      | .ok (e, left) =>
        double negative significand (if down then exponent - e else exponent + e) left
      | .error left =>
        if significand ≠ 0 ∧ ¬ down then .error { reason := .numberOutOfRange, left }
        else .ok (.double (.zero negative), (skipDigits left).2)

/-- What may follow the digits of a number that is a double. -/
def readDoubleEnd (negative : Bool) (significand : Nat) (exponent : Int) (cs : List Char) :
    Except Fault (JsonNumber × List Char) :=
  match cs with
  | 'e' :: rest | 'E' :: rest => readExponent negative significand exponent rest
  | _ => double negative significand exponent cs

/-- A fraction, from the character after the point. -/
def readFraction (negative : Bool) (significand : Nat) (exponent : Int) (cs : List Char) :
    Except Fault (JsonNumber × List Char) :=
  let (value, count, left) := readDigits significand cs
  let (beyond, left') := skipDigits left
  if count = 0 ∧ beyond = 0 then
    .error (faultAt (if left.isEmpty then .endInValue else .invalidNumber) left)
  else readDoubleEnd negative value (exponent - count) left'

/-- What may follow the digits of an integer. -/
def readNumberEnd (negative : Bool) (significand : Nat) (cs : List Char) :
    Except Fault (JsonNumber × List Char) :=
  match cs with
  | '.' :: rest => readFraction negative significand 0 rest
  | 'e' :: rest | 'E' :: rest => readExponent negative significand 0 rest
  | _ =>
    if ¬ negative then .ok (.integer significand, cs)
    else if 0 < significand ∧ significand ≤ 0x8000000000000000 then
      .ok (.integer (-significand), cs)
    else double true significand 0 cs

/-- A number, from the character after its sign. -/
def readNumber (negative : Bool) (cs : List Char) : Except Fault (JsonNumber × List Char) :=
  match cs with
  | [] => .error { reason := .endInValue, left := [] }
  | c :: rest =>
    match digit? c with
    | none => .error (faultAt .invalidNumber cs)
    | some 0 =>
      match rest with
      | d :: _ =>
        if (digit? d).isSome then .error (faultAt .invalidNumber rest)
        else readNumberEnd negative 0 rest
      | [] => readNumberEnd negative 0 rest
    | some d =>
      let (value, _, left) := readDigits d rest
      let (beyond, left') := skipDigits left
      if beyond = 0 then readNumberEnd negative value left
      else match left' with
        | '.' :: rest => readFraction negative value beyond rest
        | _ => readDoubleEnd negative value beyond left'

/-- A value that is no array or object, from its first character. -/
def readScalar (c : Char) (rest : List Char) : Except Fault (Json × List Char) :=
  if c = 'n' then readLiteral .null "ull".toList rest
  else if c = 't' then readLiteral (.bool true) "rue".toList rest
  else if c = 'f' then readLiteral (.bool false) "alse".toList rest
  else if c = '-' then (readNumber true rest).map fun (n, rest) => (.number n, rest)
  else if (digit? c).isSome then
    (readNumber false (c :: rest)).map fun (n, rest) => (.number n, rest)
  else if c = '"' then (readString rest).map fun (s, rest) => (.string s, rest)
  else .error (faultAt .expectedValue (c :: rest))

mutual

/-- One value; `depth` is one more than the levels it may still nest. -/
def readValue (fuel depth : Nat) (cs : List Char) : Except Fault (Json × List Char) :=
  match fuel with
  | 0 => .error { reason := .tooDeep, left := cs }
  | fuel + 1 =>
    match skipBlanks cs with
    | [] => .error { reason := .endInValue, left := [] }
    | c :: rest =>
      if c = '[' then
        if depth ≤ 1 then .error (faultAt .tooDeep (c :: rest))
        else
          match skipBlanks rest with
          | ']' :: rest => .ok (.array [], rest)
          | [] => .error { reason := .endInList, left := [] }
          | rest => (readItems fuel (depth - 1) rest).map fun (items, rest) => (.array items, rest)
      else if c = '{' then
        if depth ≤ 1 then .error (faultAt .tooDeep (c :: rest))
        else
          match skipBlanks rest with
          | '}' :: rest => .ok (.object [], rest)
          | [] => .error { reason := .endInObject, left := [] }
          | rest =>
            (readMembers fuel (depth - 1) [] rest).map fun (members, rest) =>
              (.object members, rest)
      else readScalar c rest

/-- The items of an array, from the first one to the closing bracket. -/
def readItems (fuel depth : Nat) (cs : List Char) : Except Fault (List Json × List Char) :=
  match fuel with
  | 0 => .error { reason := .tooDeep, left := cs }
  | fuel + 1 => do
    let (v, rest) ← readValue fuel depth cs
    match skipBlanks rest with
    | [] => .error { reason := .endInList, left := [] }
    | ']' :: rest => .ok ([v], rest)
    | ',' :: rest =>
      match skipBlanks rest with
      | [] => .error { reason := .endInValue, left := [] }
      | ']' :: rest => .error (faultAt .trailingComma (']' :: rest))
      | rest =>
        let (items, rest) ← readItems fuel depth rest
        .ok (v :: items, rest)
    | rest => .error (faultAt .expectedListEnd rest)

/-- The members of an object, from the first name to the closing brace, on top of those before. -/
def readMembers (fuel depth : Nat) (before : Members) (cs : List Char) :
    Except Fault (Members × List Char) :=
  match fuel with
  | 0 => .error { reason := .tooDeep, left := cs }
  | fuel + 1 =>
    match cs with
    | '"' :: rest => do
      let (name, rest) ← readString rest
      match skipBlanks rest with
      | [] => .error { reason := .endInObject, left := [] }
      | ':' :: rest =>
        let (v, rest) ← readValue fuel depth rest
        let members := before.insert name v
        match skipBlanks rest with
        | [] => .error { reason := .endInObject, left := [] }
        | '}' :: rest => .ok (members, rest)
        | ',' :: rest =>
          match skipBlanks rest with
          | [] => .error { reason := .endInValue, left := [] }
          | '}' :: rest => .error (faultAt .trailingComma ('}' :: rest))
          | rest => readMembers fuel depth members rest
        | rest => .error (faultAt .expectedObjectEnd rest)
      | rest => .error (faultAt .expectedColon rest)
    | _ => .error (faultAt .keyNotString cs)

end

/-- What a reader makes of a whole text, which may end in white space. -/
def readWhole {α : Type} (read : List Char → Except Fault (α × List Char)) (cs : List Char) :
    Except Fault α := do
  let (v, rest) ← read cs
  match skipBlanks rest with
  | [] => .ok v
  | rest => .error (faultAt .trailingCharacters rest)

/-- The value of a text, with white space around it. -/
def parseChars (cs : List Char) : Except Fault Json :=
  readWhole (readValue (2 * cs.length + 2) 128) cs

/-- The line and column of a fault in its text, both counted from the bytes before it. -/
def Fault.position (fault : Fault) (text : List Char) : Nat × Nat :=
  let before := Utf8.byteCount text - Utf8.byteCount fault.left + fault.beyond
  let bytes := (text.flatMap String.utf8EncodeChar).take before
  let line := bytes.count 10 + 1
  (line, (bytes.reverse.takeWhile (· != 10)).length)

/-- The wording of a fault in its text. -/
def Fault.message (fault : Fault) (text : List Char) : String :=
  let (line, column) := fault.position text
  fault.reason.message ++ " at line " ++ toString line ++ " column " ++ toString column

/-- The value of a text, or what is wrong with it and where. -/
def parse (text : String) : Except String Json :=
  (parseChars text.toList).mapError (·.message text.toList)

end Json
end ProcessKit
