/-
# Passing over JSON values

A value that nobody wants is passed over by looser rules than a value that is read: it may nest to
any depth, its numbers may have any size, and the halves of its escaped characters need not match.
-/

import ProcessKit.Json.Reader

namespace ProcessKit
namespace Json

/-- Past one escape, from the character after the backslash. -/
def skipEscape : List Char → Except Fault (List Char)
  | [] => .error { reason := .endInString, left := [] }
  | c :: rest =>
    if "\"\\/bfnrt".toList.contains c then .ok rest
    else if c = 'u' then (readHex rest).map (·.2)
    else .error (faultAt .invalidEscape (c :: rest))

/-- Past a string, from the character after its opening quote. -/
def skipChars : Nat → List Char → Except Fault (List Char)
  | 0, cs => .error { reason := .endInString, left := cs }
  | _ + 1, [] => .error { reason := .endInString, left := [] }
  | fuel + 1, c :: rest =>
    if c = '"' then .ok rest
    else if c = '\\' then (skipEscape rest).bind (skipChars fuel)
    else if c.toNat < 0x20 then .error { reason := .controlCharacter, left := c :: rest }
    else skipChars fuel rest

/-- Past an exponent, from the character after the `e`. -/
def skipExponent (cs : List Char) : Except Fault (List Char) :=
  let cs := match cs with
    | '+' :: rest | '-' :: rest => rest
    | _ => cs
  match skipDigits cs with
  | (0, _) => .error (faultAt .invalidNumber cs)
  | (_, left) => .ok left

/-- Past a fraction, from the character after the point. -/
def skipFraction (cs : List Char) : Except Fault (List Char) :=
  match skipDigits cs with
  | (0, _) => .error (faultAt .invalidNumber cs)
  | (_, 'e' :: rest) | (_, 'E' :: rest) => skipExponent rest
  | (_, left) => .ok left

/-- Past a number, from the character after its sign. -/
def skipNumber (cs : List Char) : Except Fault (List Char) :=
  let (count, left) := skipDigits cs
  if count = 0 then .error (faultAt .invalidNumber cs)
  else if cs.head? = some '0' ∧ 1 < count then .error (faultAt .invalidNumber cs.tail)
  else match left with
    | '.' :: rest => skipFraction rest
    | 'e' :: rest | 'E' :: rest => skipExponent rest
    | _ => .ok left

/-- Past a value that is no array or object, from its first character. -/
def skipScalar (c : Char) (rest : List Char) : Except Fault (List Char) :=
  if c = '-' then skipNumber rest
  else if (digit? c).isSome then skipNumber (c :: rest)
  else if c = '"' then skipChars (rest.length + 1) rest
  else (readScalar c rest).map (·.2)

mutual

/-- Past one value. -/
def skipValue (fuel : Nat) (cs : List Char) : Except Fault (List Char) :=
  match fuel with
  | 0 => .error { reason := .tooDeep, left := cs }
  | fuel + 1 =>
    match skipBlanks cs with
    | [] => .error { reason := .endInValue, left := [] }
    | '[' :: rest =>
      match skipBlanks rest with
      | [] => .error { reason := .endInList, left := [] }
      | ']' :: rest => .ok rest
      | rest => skipItems fuel rest
    | '{' :: rest =>
      match skipBlanks rest with
      | [] => .error { reason := .endInObject, left := [] }
      | '}' :: rest => .ok rest
      | rest => skipMembers fuel rest
    | c :: rest => skipScalar c rest

/-- Past the items of an array, from the first one to the closing bracket. -/
def skipItems (fuel : Nat) (cs : List Char) : Except Fault (List Char) :=
  match fuel with
  | 0 => .error { reason := .tooDeep, left := cs }
  | fuel + 1 => do
    match skipBlanks (← skipValue fuel cs) with
    | [] => .error { reason := .endInList, left := [] }
    | ']' :: rest => .ok rest
    | ',' :: rest => skipItems fuel rest
    | rest => .error (faultAt .expectedListEnd rest)

/-- Past the members of an object, from the first name to the closing brace. -/
def skipMembers (fuel : Nat) (cs : List Char) : Except Fault (List Char) :=
  match fuel with
  | 0 => .error { reason := .tooDeep, left := cs }
  | fuel + 1 => do
    match skipBlanks cs with
    | [] => .error { reason := .endInObject, left := [] }
    | '"' :: rest =>
      match skipBlanks (← skipChars (rest.length + 1) rest) with
      | [] => .error { reason := .endInObject, left := [] }
      | ':' :: rest =>
        match skipBlanks (← skipValue fuel rest) with
        | [] => .error { reason := .endInObject, left := [] }
        | '}' :: rest => .ok rest
        | ',' :: rest => skipMembers fuel rest
        | rest => .error (faultAt .expectedObjectEnd rest)
      | rest => .error (faultAt .expectedColon rest)
    | rest => .error (faultAt .keyNotString rest)

end

/-- Past one value of any size. -/
def skipAny (cs : List Char) : Except Fault (List Char) := skipValue (2 * cs.length + 2) cs

end Json
end ProcessKit
