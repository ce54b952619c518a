/-
# What a plain scalar stands for

A plain scalar is null, a truth value, an integer, a floating point number or else a string.
Integers are decimal, or hexadecimal, octal or binary after `0x`, `0o`, `0b`, with a sign in front;
digits after a leading zero make a string.
-/

import ProcessKit.Text.Utf8
import ProcessKit.Yaml.Value

namespace ProcessKit
namespace Yaml
namespace Scalar

/-- The value of a digit in a base of at most sixteen. -/
def digit? (base : Nat) (c : Char) : Option Nat :=
  let value :=
    if '0' ≤ c ∧ c ≤ '9' then some (c.toNat - 48)
    else if 'a' ≤ c ∧ c ≤ 'f' then some (c.toNat - 87)
    else if 'A' ≤ c ∧ c ≤ 'F' then some (c.toNat - 55)
    else none
  value.filter (· < base)

/-- The value of one or more digits. -/
def natural? (base : Nat) (cs : List Char) : Option Nat :=
  if cs = [] then none
  else cs.foldlM (fun n c => (digit? base c).map (n * base + ·)) 0

/-- The bases that a sign of their own announces. -/
def bases : List (List Char × Nat) := [(['0', 'x'], 16), (['0', 'o'], 8), (['0', 'b'], 2)]

/-- The number after one of the signs of a base. -/
def based? (cs : List Char) : Option Nat :=
  bases.findSome? fun (sign, base) =>
    if sign.isPrefixOf cs then natural? base (cs.drop 2) else none

/-- Whether the text is digits after a leading zero. -/
def isPadded (cs : List Char) : Bool :=
  let body := match cs with
    | '+' :: rest | '-' :: rest => rest
    | _ => cs
  match body with
  | '0' :: d :: rest => (d :: rest).all Char.isDigit
  | _ => false

/-- An integer in any of its notations. -/
def integer? (cs : List Char) : Option Int :=
  let decimal (body : List Char) : Option Nat := if isPadded cs then none else natural? 10 body
  match cs with
  | '-' :: body => ((based? body).or (decimal body)).map fun n => -(n : Int)
  | '+' :: body => ((based? body).or (decimal body)).map fun n => (n : Int)
  | body => ((based? body).or (decimal body)).map fun n => (n : Int)

/-- A decimal fraction with an exponent: digits before or after the point, and `e` with digits. -/
def decimal? (negative : Bool) (cs : List Char) : Option Double :=
  let before := cs.takeWhile Char.isDigit
  let rest := cs.drop before.length
  let (after, rest) := match rest with
    | '.' :: rest => (rest.takeWhile Char.isDigit, rest.dropWhile Char.isDigit)
    | _ => ([], rest)
  let exponent : Option Int := match rest with
    | [] => some 0
    | e :: rest =>
      if e = 'e' ∨ e = 'E' then
        match rest with
        | '-' :: digits => (natural? 10 digits).map fun n => -(n : Int)
        | '+' :: digits => (natural? 10 digits).map fun n => (n : Int)
        | digits => (natural? 10 digits).map fun n => (n : Int)
      else none
  (natural? 10 (before ++ after)).bind fun digits =>
    exponent.bind fun e => Double.ofDecimal negative digits (e - after.length)

/-- A floating point number. -/
def float? (text : String) : Option Value :=
  if [".inf", ".Inf", ".INF", "+.inf", "+.Inf", "+.INF", "-.inf", "-.Inf", "-.INF", ".nan", ".NaN",
    ".NAN"].contains text then some (.float none)
  else
    let d := match text.toList with
      | '-' :: body => decimal? true body
      | '+' :: body => decimal? false body
      | body => decimal? false body
    d.map fun d => .float (some d)

/-- An integer of 64 bits, signed or not. The texts of integers of up to 128 bits beyond that have
no value; a larger one is a floating point number. -/
def integerValue? (i : Int) : Option (Except String Value) :=
  if -0x8000000000000000 ≤ i ∧ i < 0x10000000000000000 then some (.ok (.integer i))
  else if -0x80000000000000000000000000000000 ≤ i ∧ i < 0x100000000000000000000000000000000 then
    some (.error "JSON number out of range")
  else none

/-- A truth value. -/
def bool? (text : String) : Option Bool :=
  if text = "true" ∨ text = "True" ∨ text = "TRUE" then some true
  else if text = "false" ∨ text = "False" ∨ text = "FALSE" then some false
  else none

/-- Whether a text stands for null. -/
def isNull (text : String) : Bool :=
  text = "null" ∨ text = "Null" ∨ text = "NULL" ∨ text = "~"

/-- An integer, if the text is one that has a value. -/
def int? (text : String) : Option (Except String Value) :=
  (integer? text.toList).bind integerValue?

/-- The value of a plain scalar. -/
def plain (text : String) : Except String Value :=
  if text = "" || isNull text then .ok .null
  else match bool? text with
    | some b => .ok (.boolean b)
    | none =>
      match int? text with
      | some v => v
      | none =>
        if isPadded text.toList then .ok (.string text)
        else .ok ((float? text).getD (.string text))

/-- The value of a scalar without a tag. -/
def untagged (text : String) (isPlain : Bool) : Except String Value :=
  if isPlain then plain text else .ok (.string text)

/-- The value of a scalar whose tag has this text, none if the tag is no text. The tag of a standard
type wants a scalar of that type; of other tags, one that is no text counts as none when it starts
with an exclamation mark. -/
def value (tag : Bytes) (text : String) (isPlain : Bool) : Except String Value :=
  let orElse (what : String) (v : Option (Except String Value)) : Except String Value :=
    v.getD (.error ("invalid value, expected " ++ what))
  match Utf8.decode? tag with
  | some "tag:yaml.org,2002:bool" => orElse "a boolean" ((bool? text).map fun b => .ok (.boolean b))
  | some "tag:yaml.org,2002:int" => orElse "an integer" (int? text)
  | some "tag:yaml.org,2002:float" => orElse "a float" ((float? text).map .ok)
  | some "tag:yaml.org,2002:null" => if isNull text then .ok .null else orElse "null" none
  | _ => if tag.head? = some 0x21 then untagged text isPlain else .ok (.string text)

end Scalar
end Yaml
end ProcessKit
