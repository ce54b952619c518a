/-
# UTF-8: bytes and text

A file holds bytes; a document is text. `Utf8.pieces` cuts a byte string into characters and
ill-formed pieces, each ill-formed piece being the longest start of a character that the bytes
allow. Strict reading (`Utf8.decode?`) wants no ill-formed piece, lenient reading
(`Utf8.decodeLossy`) shows each one as U+FFFD, and `Utf8.encode` is the way back.
-/

namespace ProcessKit

/-- The contents of a file. -/
abbrev Bytes := List UInt8

namespace Utf8

/-- A character whose first bytes were read: the payload so far, how many bytes it still owes, and
the range the next one must lie in. -/
structure Pending where
  code : Nat
  owed : Nat
  low : UInt8 := 0x80
  high : UInt8 := 0xBF

/-- What one byte says at a place where a character may start. -/
inductive Lead where
  | char (c : Char)
  | owes (p : Pending)
  | illFormed

/-- A first byte. The ranges after `E0`, `ED`, `F0` and `F4` keep out overlong forms, surrogates and
values above `10FFFF`. -/
def lead (b : UInt8) : Lead :=
  let n := b.toNat
  if n < 0x80 then .char (Char.ofNat n)
  else if n < 0xC2 then .illFormed
  else if n < 0xE0 then .owes { code := n % 32, owed := 1 }
  else if n = 0xE0 then .owes { code := 0, owed := 2, low := 0xA0 }
  else if n = 0xED then .owes { code := 13, owed := 2, high := 0x9F }
  else if n < 0xF0 then .owes { code := n % 16, owed := 2 }
  else if n = 0xF0 then .owes { code := 0, owed := 3, low := 0x90 }
  else if n < 0xF4 then .owes { code := n % 8, owed := 3 }
  else if n = 0xF4 then .owes { code := 4, owed := 3, high := 0x8F }
  else .illFormed

/-- The pieces of the bytes after a character that is pending. -/
def piecesAfter : Option Pending → Bytes → List (Option Char)
  | none, [] => []
  | some _, [] => [none]
  | none, b :: rest =>
    match lead b with
    | .char c => some c :: piecesAfter none rest
    | .owes p => piecesAfter (some p) rest
    | .illFormed => none :: piecesAfter none rest
  | some p, b :: rest =>
    if p.low ≤ b && b ≤ p.high then
      let code := p.code * 64 + b.toNat % 64
      match p.owed with
      | 0 | 1 => some (Char.ofNat code) :: piecesAfter none rest
      | owed + 1 => piecesAfter (some { code, owed }) rest
    else
      none :: match lead b with
        | .char c => some c :: piecesAfter none rest
        | .owes p => piecesAfter (some p) rest
        | .illFormed => none :: piecesAfter none rest

/-- The bytes cut into characters (`some`) and ill-formed pieces (`none`), in order. -/
def pieces (bytes : Bytes) : List (Option Char) := piecesAfter none bytes

/-- The text of well-formed bytes. -/
def decode? (bytes : Bytes) : Option String :=
  ((pieces bytes).mapM id).map String.ofList

/-- The text of any bytes, each ill-formed piece shown as U+FFFD. -/
def decodeLossy (bytes : Bytes) : String :=
  String.ofList ((pieces bytes).map (·.getD '\uFFFD'))

/-- The bytes of a text. -/
def encode (text : String) : Bytes := text.toList.flatMap String.utf8EncodeChar

/-- How many bytes the characters take. -/
def byteCount (cs : List Char) : Nat := cs.foldl (fun n c => n + c.utf8Size) 0

end Utf8
end ProcessKit
