/-
# TOML values

A TOML document is a table of named values. `Value.toJson` gives the settings that it stands for: a
date-time becomes a record of its normal form, and a float that JSON cannot write becomes null.
-/

import ProcessKit.Json.Value

namespace ProcessKit
namespace Toml

/-- A number in decimal, with zeros in front up to a width. -/
def padded (width n : Nat) : String :=
  let digits := Nat.toDigits 10 n
  String.ofList (List.replicate (width - digits.length) '0' ++ digits)

/-- A day of the calendar. -/
structure Date where
  year : Nat
  month : Nat
  day : Nat
  deriving DecidableEq, Repr

namespace Date

/-- How many days the month has. -/
def daysInMonth (year month : Nat) : Nat :=
  if month = 2 then
    if year % 4 = 0 ∧ (year % 100 ≠ 0 ∨ year % 400 = 0) then 29 else 28
  else if month = 4 ∨ month = 6 ∨ month = 9 ∨ month = 11 then 30
  else 31

/-- Whether the calendar has such a day. -/
def valid (d : Date) : Bool :=
  1 ≤ d.month && d.month ≤ 12 && 1 ≤ d.day && d.day ≤ daysInMonth d.year d.month

/-- The normal form. -/
def render (d : Date) : String :=
  padded 4 d.year ++ "-" ++ padded 2 d.month ++ "-" ++ padded 2 d.day

end Date

/-- A time of day, to the nanosecond. -/
structure Time where
  hour : Nat
  minute : Nat
  second : Nat
  nanosecond : Nat := 0
  deriving DecidableEq, Repr

namespace Time

/-- Whether the day has such a time; a leap second is let in anywhere. -/
def valid (t : Time) : Bool := t.hour ≤ 23 && t.minute ≤ 59 && t.second ≤ 60

/-- The normal form, without zeros at the end of the fraction. -/
def render (t : Time) : String :=
  let fraction := (padded 9 t.nanosecond).toList.reverse.dropWhile (· == '0')
  padded 2 t.hour ++ ":" ++ padded 2 t.minute ++ ":" ++ padded 2 t.second ++
    (if fraction.isEmpty then "" else "." ++ String.ofList fraction.reverse)

end Time

/-- How far local time is ahead of universal time. -/
inductive Offset where
  | utc
  | ahead (minutes : Int)
  deriving DecidableEq, Repr

/-- The normal form. -/
def Offset.render : Offset → String
  | .utc => "Z"
  | .ahead minutes =>
    (if minutes < 0 then "-" else "+") ++ padded 2 (minutes.natAbs / 60) ++ ":" ++
      padded 2 (minutes.natAbs % 60)

/-- A point in time, or only its day or its time of day. -/
structure DateTime where
  date : Option Date := none
  time : Option Time := none
  offset : Option Offset := none
  deriving DecidableEq, Repr

/-- The normal form. -/
def DateTime.render (t : DateTime) : String :=
  let date := (t.date.map Date.render).getD ""
  let time := (t.time.map Time.render).getD ""
  let delimiter := if t.date.isSome && t.time.isSome then "T" else ""
  date ++ delimiter ++ time ++ (t.offset.map Offset.render).getD ""

/-- A TOML value. -/
inductive Value where
  | string (text : String)
  | integer (value : Int)
  /-- A float; `none` is an infinity or not a number. -/
  | float (value : Option Double)
  | boolean (value : Bool)
  | dateTime (value : DateTime)
  | array (items : List Value)
  | table (members : List (String × Value))
  deriving Inhabited

namespace Value

/-- The name of the one member of a date-time's record. -/
def dateTimeKey : String := "$__toml_private_datetime"

mutual

/-- The settings that a value stands for. -/
def toJson : Value → Json
  | .string s => .string s
  | .integer i => .number (.integer i)
  | .float (some d) => .number (.double d)
  | .float none => .null
  | .boolean b => .bool b
  | .dateTime t => .object [(dateTimeKey, .string t.render)]
  | .array items => .array (itemsToJson items)
  | .table members => Json.ofMembers (membersToJson members)

/-- The items of an array, each as JSON. -/
def itemsToJson : List Value → List Json
  | [] => []
  | v :: rest => v.toJson :: itemsToJson rest

/-- The members of a table, each as JSON. -/
def membersToJson : List (String × Value) → List (String × Json)
  | [] => []
  | (name, v) :: rest => (name, v.toJson) :: membersToJson rest

end

end Value
end Toml
end ProcessKit
