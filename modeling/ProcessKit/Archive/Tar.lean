/-
# Tape archives

An archive is a sequence of members: a header of 512 bytes with the path, the permission bits and
the size of a member, then its bytes, padded to whole blocks. What does not fit a header stands
before it, in a header of its own: a long path, a long target, or a list of records. `Tar.decode?`
reads an archive, compressed or not, and has none where anything in it is amiss; `Tar.encode` writes
one.
-/

import ProcessKit.Archive.Gzip
import ProcessKit.Path

namespace ProcessKit
namespace Tar

/-- What a member of an archive is. -/
inductive Content where
  | file (bytes : Bytes)
  | dir
  | link (target : String)
  /-- A second name for an earlier member. -/
  | copy (target : String)
  /-- Something that is no file, directory or link. -/
  | pipe
  deriving DecidableEq, Repr

/-- A member of an archive. -/
structure Member where
  path : String
  mode : Nat
  content : Content
  deriving DecidableEq, Repr

/-- The names on the way to a member, from the directory that the archive is unpacked into; a path
with a step up in it has none. -/
def steps? (path : String) : Option (List String) :=
  let steps := (Path.pieces path).filter fun s => s != "" && s != "."
  if steps.contains ".." then none else some steps

/-- The names on the way to the target of a second name: what stands before a step up, and that step
itself, are left off. -/
def targetSteps (path : String) : List String :=
  let steps := (Path.pieces path).filter fun s => s != "" && s != "."
  (steps.reverse.takeWhile (· != "..")).reverse

/-- Whether a link leads to where the archive is not: from the root directory, or by a step up. -/
def leadsAway (target : String) : Bool :=
  (Path.mk target).isAbsolute || (Path.pieces target).contains ".."

/-- The size of a block. -/
def blockSize : Nat := 512

/-- The bytes up to the first zero byte. -/
def textBytes (bytes : Bytes) : Bytes := bytes.takeWhile (· != 0)

/-- The text up to the first zero byte. -/
def text (bytes : Bytes) : String := Utf8.decodeLossy (textBytes bytes)

/-- A part of a header. -/
def field (header : Bytes) (start width : Nat) : Bytes := (header.drop start).take width

/-- White space in a number's field. -/
def isBlank (b : UInt8) : Bool := b == 32 || (9 ≤ b && b ≤ 13)

/-- An octal digit. -/
def isOctal (b : UInt8) : Bool := 48 ≤ b && b < 56

/-- The number in a field: octal digits after blanks, and after them a blank, a zero byte or the end
of the field. A field may be marked by its first byte to hold a binary number, and a zero byte there
is skipped; a field of blanks alone holds no number. -/
def number? (binary : Bool) (bytes : Bytes) : Option Nat :=
  let bytes := if bytes.head? = some 0 then bytes.tail else bytes
  match bytes.dropWhile isBlank with
  | [] => none
  | b :: rest =>
    if binary && b == 0x80 then some (rest.foldl (fun n b => n * 256 + b.toNat) 0)
    else
      let digits := (b :: rest).takeWhile isOctal
      match (b :: rest).drop digits.length with
      | c :: _ => if c == 0 || isBlank c then some (octal digits) else none
      | [] => some (octal digits)
where
  /-- The value of octal digits. -/
  octal (digits : Bytes) : Nat := digits.foldl (fun n b => n * 8 + (b.toNat - 48)) 0

/-- The sum over the bytes of a header, with blanks in the place of the sum, given what a byte
counts. -/
def headerSum (count : UInt8 → Int) (header : Bytes) : Int :=
  let bytes : Bytes := header.take 148 ++ List.replicate 8 32 ++ header.drop 156
  bytes.foldl (fun n b => n + count b) 0

/-- A byte as a number from 0 on. -/
def unsigned (b : UInt8) : Int := b.toNat

/-- A byte as a number from -128 on. -/
def signed (b : UInt8) : Int := if b < 128 then b.toNat else (b.toNat : Int) - 256

/-- Whether a header bears the sum over its bytes, be they signed or unsigned. -/
def bearsSum (header : Bytes) : Bool :=
  match number? false (field header 148 8) with
  | some sum => [unsigned, signed].any fun count => headerSum count header = sum
  | none => false

/-- A decimal digit. -/
def isDigit (b : UInt8) : Bool := 48 ≤ b && b < 58

/-- The value of decimal digits. -/
def decimal (digits : Bytes) : Nat := digits.foldl (fun n b => n * 10 + (b.toNat - 48)) 0

/-- The records of an extended header: each is its length in digits, blanks, a key, an equals sign,
a value and a line end. A zero byte ends them. -/
def records? : Nat → Bytes → Option (List (String × Bytes))
  | 0, _ => some []
  | fuel + 1, bytes =>
    let isGap (b : UInt8) : Bool := b == 32 || b == 9
    let start := bytes.dropWhile isGap
    let digits := start.takeWhile isDigit
    if digits.isEmpty then if start.head?.getD 0 = 0 then some [] else none
    else
      let length := decimal digits
      let read := bytes.length - start.length + digits.length
      let record := (bytes.take length).drop read
      let body := record.dropWhile isGap
      let key := body.takeWhile (· != 61)
      if bytes.length < length ∨ body.length = record.length ∨ key.length = body.length ∨
          record.getLast? ≠ some 10 then none
      else
        (records? fuel (bytes.drop length)).map
          ((Utf8.decodeLossy key, (body.drop (key.length + 1)).dropLast) :: ·)

/-- What stands before a header because it does not fit it. -/
structure Ahead where
  path : Option String := none
  target : Option String := none
  /-- The bytes of the records for the next member. -/
  records : Bytes := []
  /-- The records that hold for all members that follow, of which the first with a key counts. -/
  lasting : List (String × Bytes) := []

/-- The path in a header. -/
def headerPath (header : Bytes) : String :=
  let name := text (field header 0 100)
  let front := if field header 257 6 = Utf8.encode "ustar\x00" then text (field header 345 155)
    else ""
  if front = "" then name else front ++ "/" ++ name

/-- How many bytes whole blocks take that so many bytes fit in. -/
def blocksFor (size : Nat) : Nat := (size + blockSize - 1) / blockSize * blockSize

/-- The members from a header on, given what stands before it. Only a file has bytes after its
header, and a member whose path has a step up in it spoils the archive. -/
def members : Nat → Ahead → Bytes → Option (List Member)
  | 0, _, _ => none
  | fuel + 1, ahead, bytes =>
    let header := bytes.take blockSize
    if header.all (· == 0) then some []
    else if !bearsSum header then none
    else do
      let kind := Char.ofNat ((field header 156 1).head?.getD 0).toNat
      let size ← if kind = '1' then some 0 else number? true (field header 124 12)
      let after := bytes.drop blockSize
      if kind ∈ ['L', 'K', 'x', 'g', 'X'] then
        if after.length < blocksFor size then none
        else
          let long := text (after.take (blocksFor size))
          let ahead ← match kind with
            | 'L' => some { ahead with path := some long }
            | 'K' => some { ahead with target := some long }
            | 'g' => (records? size (after.take size)).map ({ ahead with lasting := · })
            | _ => some { ahead with records := after.take size }
          members fuel ahead (after.drop (blocksFor size))
      else
        let mode ← number? true (field header 100 8)
        let records ← records? (ahead.records.length + 1) ahead.records
        let record? (key : String) : Option Bytes :=
          ((records.reverse ++ ahead.lasting).filter (·.2 != [])).lookup key
        let path := match record? "path" with
          | some path => text path
          | none => ahead.path.getD (headerPath header)
        let target := match record? "linkpath" with
          | some target => text target
          | none => ahead.target.getD (text (field header 157 100))
        let size ← match record? "size" with
          | some digits =>
            if digits.all isDigit && !digits.isEmpty then some (decimal digits) else none
          | none => some size
        let slash := path.toList.getLast? = some '/'
        let isFile := !(slash && kind ∈ ['\x00', '0', '7']) && kind ∉ ['1', '2', '5', '6', 'D']
        let taken := if isFile then blocksFor size else 0
        if kind ∈ ['3', '4', 'M', 'S'] ∨ after.length < taken ∨ steps? path = none then none
        else
          let content : Content :=
            if isFile then .file (after.take size)
            else if kind = '1' then .copy target
            else if kind = '2' then .link target
            else if kind = '6' then .pipe
            else .dir
          let rest ← members fuel { lasting := ahead.lasting } (after.drop taken)
          return if kind = 'V' then rest
            else { path, mode := mode % 4096, content } :: rest

/-- The ends of names of compressed archives. -/
def compressedEnds : List String :=
  ["gz", "tgz", "taz", "Z", "taZ", "bz2", "tbz", "tbz2", "tz2", "lz", "lzma", "tlz", "lzo", "xz",
    "txz", "zst", "tzst"]

/-- The members of an archive with a name. What does not start like an archive is taken for a
compressed one if it starts or is named like one. -/
def decode? (name : String) (bytes : Bytes) : Option (List Member) :=
  let whole (bytes : Bytes) : Bytes := bytes.take (bytes.length / blockSize * blockSize)
  let read (bytes : Bytes) : Option (List Member) := members (bytes.length + 1) {} (whole bytes)
  let marks := ["ustar\x00", "ustar  \x00"].map Utf8.encode
  let first := bytes.take blockSize
  if Gzip.starts bytes then (Gzip.decode? bytes).bind read
  else if bytes.length < blockSize then none
  else if marks.any (·.isPrefixOf (first.drop 257)) && bearsSum first then read bytes
  else if ((name.splitOn ".").drop 1).getLast?.any compressedEnds.contains then none
  else read bytes

/-- Bytes with zeros after them up to a width. -/
def padded (width : Nat) (bytes : Bytes) : Bytes :=
  bytes.take width ++ List.replicate (width - bytes.length) 0

/-- A number in octal digits and a zero byte, in so many bytes. -/
def octal (width n : Nat) : Bytes :=
  let digits := (Nat.toDigits 8 n).map fun c => c.toUInt8
  List.replicate (width - 1 - digits.length) 48 ++ digits ++ [0]

/-- A header. -/
def header (path : Bytes) (mode size : Nat) (kind : Char) (target : Bytes) : Bytes :=
  let front := padded 100 path ++ octal 8 mode ++ octal 8 0 ++ octal 8 0 ++ octal 12 size ++
    octal 12 0
  let back := kind.toUInt8 :: padded 100 target ++ padded 255 (Utf8.encode "ustar  \x00")
  let sum := headerSum unsigned (front ++ List.replicate 8 32 ++ back)
  front ++ octal 7 sum.toNat ++ [32] ++ back

/-- Bytes with zeros after them up to whole blocks. -/
def blocks (bytes : Bytes) : Bytes := padded (blocksFor bytes.length) bytes

/-- A member with its header, and before it its path if that does not fit. -/
def encodeMember (member : Member) : Bytes :=
  let path := Utf8.encode member.path
  let long := if path.length ≤ 100 then [] else
    header (Utf8.encode "././@LongLink") 0o644 (path.length + 1) 'L' [] ++ blocks (path ++ [0])
  long ++
    match member.content with
    | .file bytes => header path member.mode bytes.length '0' [] ++ blocks bytes
    | .dir => header path member.mode 0 '5' []
    | .link target => header path member.mode 0 '2' (Utf8.encode target)
    | .copy target => header path member.mode 0 '1' (Utf8.encode target)
    | .pipe => header path member.mode 0 '6' []

/-- An archive of these members. -/
def encode (members : List Member) : Bytes :=
  members.flatMap encodeMember ++ List.replicate (2 * blockSize) 0

end Tar
end ProcessKit
