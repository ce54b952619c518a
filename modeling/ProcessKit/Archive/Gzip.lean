/-
# Gzip files

A gzip file is a sequence of members, each a header, compressed bytes, and a checksum and a length
of the bytes that were compressed. `Gzip.decode?` checks both; `Gzip.encode` writes one member
whose bytes are stored as they are.
-/

import ProcessKit.Archive.Inflate

namespace ProcessKit
namespace Gzip

/-- The checksum after one more byte. -/
def checksumStep (sum : UInt32) (b : UInt8) : UInt32 :=
  (List.range 8).foldl (fun sum _ =>
    if sum &&& 1 = 1 then (sum >>> 1) ^^^ 0xEDB88320 else sum >>> 1) (sum ^^^ b.toUInt32)

/-- The cyclic checksum of bytes. -/
def checksum (bytes : Bytes) : UInt32 := bytes.foldl checksumStep 0xFFFFFFFF ^^^ 0xFFFFFFFF

/-- A number in so many bytes, the least significant first. -/
def littleEndian : Nat → Nat → Bytes
  | 0, _ => []
  | width + 1, n => n.toUInt8 :: littleEndian width (n / 256)

/-- The number of bytes, the least significant first. -/
def ofLittleEndian (bytes : Bytes) : Nat := bytes.foldr (fun b n => b.toNat + 256 * n) 0

/-- Whether bytes start like a gzip file. -/
def starts (bytes : Bytes) : Bool := bytes.take 2 == [0x1F, 0x8B]

/-- The bytes after a text that ends in a zero byte. -/
def afterText (bytes : Bytes) : Bytes := (bytes.dropWhile (· != 0)).drop 1

/-- The bytes after the header of a member, which may hold a checksum over itself; flags without a
meaning are refused. -/
def afterHeader? (bytes : Bytes) : Option Bytes :=
  match bytes with
  | 0x1F :: 0x8B :: 8 :: flags :: _ :: _ :: _ :: _ :: _ :: _ :: rest =>
    let has (n : Nat) : Bool := (flags.toNat >>> n) % 2 = 1
    let rest := if has 2 then rest.drop (2 + ofLittleEndian (rest.take 2)) else rest
    let rest := if has 3 then afterText rest else rest
    let rest := if has 4 then afterText rest else rest
    let sum := (checksum (bytes.take (bytes.length - rest.length))).toNat % 0x10000
    if has 5 || has 6 || has 7 then none
    else if has 1 then if ofLittleEndian (rest.take 2) = sum then some (rest.drop 2) else none
    else some rest
  | _ => none

/-- The bytes of at most `fuel` members; only zero bytes may follow the last one. -/
def members : Nat → Bytes → Option Bytes
  | 0, _ => none
  | fuel + 1, bytes => do
    let (content, rest) ← Inflate.expand (← afterHeader? bytes)
    let sum := ofLittleEndian (rest.take 4)
    let length := ofLittleEndian ((rest.drop 4).take 4)
    if rest.length < 8 ∨ sum ≠ (checksum content).toNat ∨
        length ≠ content.length % 0x100000000 then none
    else if starts (rest.drop 8) then return content ++ (← members fuel (rest.drop 8))
    else if (rest.drop 8).all (· == 0) then some content
    else none

/-- The bytes that a gzip file holds. -/
def decode? (bytes : Bytes) : Option Bytes := members (bytes.length + 1) bytes

/-- Bytes in stored blocks, the last of which is marked. -/
def storedBlocks : Nat → Bytes → Bytes
  | 0, _ => []
  | fuel + 1, bytes =>
    let now := bytes.take 65535
    let later := bytes.drop 65535
    let length := littleEndian 2 now.length
    (if later.isEmpty then 1 else 0) :: length ++ length.map (~~~ ·) ++ now ++
      (if later.isEmpty then [] else storedBlocks fuel later)

/-- A gzip file with these bytes. -/
def encode (bytes : Bytes) : Bytes :=
  [0x1F, 0x8B, 8, 0, 0, 0, 0, 0, 0, 0xFF] ++ storedBlocks (bytes.length + 1) bytes ++
    littleEndian 4 (checksum bytes).toNat ++ littleEndian 4 bytes.length

end Gzip
end ProcessKit
