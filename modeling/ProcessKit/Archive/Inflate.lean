/-
# Compressed bytes

Compressed bytes are a sequence of blocks: bytes as they are, or symbols in prefix codes, where a
symbol is a byte or the length of a repetition of bytes from further back. A code is given by the
lengths of its words alone. `Inflate.expand` undoes the compression.
-/

import ProcessKit.Text.Utf8

namespace ProcessKit
namespace Inflate

/-- Bytes read bit by bit, the least significant bit of each first. -/
structure Bits where
  bytes : Bytes
  /-- How many bits of the first byte were read. -/
  used : Nat := 0

namespace Bits

/-- The next bit. -/
def bit? (bits : Bits) : Option (Nat × Bits) :=
  match bits.bytes with
  | [] => none
  | b :: rest =>
    let value := (b.toNat >>> bits.used) % 2
    some (value, if bits.used = 7 then { bytes := rest } else { bits with used := bits.used + 1 })

/-- A number of so many bits, the least significant first. -/
def number? : Nat → Bits → Option (Nat × Bits)
  | 0, bits => some (0, bits)
  | n + 1, bits => do
    let (low, bits) ← bits.bit?
    let (high, bits) ← number? n bits
    some (low + 2 * high, bits)

/-- The bytes after the one that is read in part. -/
def rest (bits : Bits) : Bytes := if bits.used = 0 then bits.bytes else bits.bytes.tail

end Bits

/-- A prefix code: how many words there are of each length from 1, and the symbols in the order of
their words. -/
structure Code where
  counts : List Nat
  symbols : Array Nat

namespace Code

/-- The code whose words have these lengths, in the order of the symbols; a length of zero means no
word. -/
def ofLengths (lengths : List Nat) : Code :=
  let used := lengths.zipIdx.filter fun (length, _) => length != 0
  { counts := (List.range 15).map fun i => lengths.count (i + 1)
    symbols := ((used.mergeSort fun a b => a.1 ≤ b.1).map (·.2)).toArray }

/-- The symbol of the next word. `word` are the bits read so far, `first` the least word of the
length at hand, and `index` the place of its symbol. -/
def symbol? (code : Code) (bits : Bits) : Option (Nat × Bits) := go code.counts bits 0 0 0
where
  /-- Tries the words of each length in turn. -/
  go : List Nat → Bits → Nat → Nat → Nat → Option (Nat × Bits)
    | [], _, _, _, _ => none
    | count :: counts, bits, word, first, index => do
      let (bit, bits) ← bits.bit?
      let word := 2 * word + bit
      if word < first + count then (code.symbols[index + (word - first)]?).map (·, bits)
      else go counts bits word (2 * (first + count)) (index + count)

end Code

/-- The least lengths of repetitions by symbol from 257 on, with the number of bits to be added. -/
def lengthSteps : Array (Nat × Nat) :=
  #[(3, 0), (4, 0), (5, 0), (6, 0), (7, 0), (8, 0), (9, 0), (10, 0), (11, 1), (13, 1), (15, 1),
    (17, 1), (19, 2), (23, 2), (27, 2), (31, 2), (35, 3), (43, 3), (51, 3), (59, 3), (67, 4),
    (83, 4), (99, 4), (115, 4), (131, 5), (163, 5), (195, 5), (227, 5), (258, 0)]

/-- The least distances of repetitions by symbol, with the number of bits to be added. -/
def distanceSteps : Array (Nat × Nat) :=
  #[(1, 0), (2, 0), (3, 0), (4, 0), (5, 1), (7, 1), (9, 2), (13, 2), (17, 3), (25, 3), (33, 4),
    (49, 4), (65, 5), (97, 5), (129, 6), (193, 6), (257, 7), (385, 7), (513, 8), (769, 8),
    (1025, 9), (1537, 9), (2049, 10), (3073, 10), (4097, 11), (6145, 11), (8193, 12), (12289, 12),
    (16385, 13), (24577, 13)]

/-- A length or a distance by its symbol. -/
def stepped? (steps : Array (Nat × Nat)) (symbol : Nat) (bits : Bits) : Option (Nat × Bits) := do
  let (least, extra) ← steps[symbol]?
  let (more, bits) ← Bits.number? extra bits
  some (least + more, bits)

/-- The output followed by `count` bytes from `distance` bytes before its end on, which may reach
into the bytes that are being added. -/
def repeated (distance : Nat) : Nat → Array UInt8 → Array UInt8
  | 0, out => out
  | n + 1, out => repeated distance n (out.push (out[out.size - distance]?.getD 0))

/-- The symbols of a block, up to the one that ends it. -/
def symbols (literals distances : Code) : Nat → Bits → Array UInt8 → Option (Bits × Array UInt8)
  | 0, _, _ => none
  | fuel + 1, bits, out => do
    let (symbol, bits) ← literals.symbol? bits
    if symbol < 256 then symbols literals distances fuel bits (out.push symbol.toUInt8)
    else if symbol = 256 then some (bits, out)
    else
      let (length, bits) ← stepped? lengthSteps (symbol - 257) bits
      let (symbol, bits) ← distances.symbol? bits
      let (distance, bits) ← stepped? distanceSteps symbol bits
      if out.size < distance then none
      else symbols literals distances fuel bits (repeated distance length out)

/-- The code of literals and lengths that needs no description. -/
def fixedLiterals : Code :=
  .ofLengths (List.replicate 144 8 ++ List.replicate 112 9 ++ List.replicate 24 7 ++
    List.replicate 8 8)

/-- The code of distances that needs no description. -/
def fixedDistances : Code := .ofLengths (List.replicate 30 5)

/-- The order in which the lengths of the words for lengths are given. -/
def lengthOrder : List Nat := [16, 17, 18, 0, 8, 7, 9, 6, 10, 5, 11, 4, 12, 3, 13, 2, 14, 1, 15]

/-- So many lengths of words, themselves in a code, on top of those in `lengths`. -/
def wordLengths (code : Code) (count : Nat) : Nat → Bits → List Nat → Option (List Nat × Bits)
  | 0, _, _ => none
  | fuel + 1, bits, lengths =>
    if lengths.length = count then some (lengths, bits)
    else if count < lengths.length then none
    else do
      let (symbol, bits) ← code.symbol? bits
      if symbol < 16 then wordLengths code count fuel bits (lengths ++ [symbol])
      else if symbol = 16 then
        let (more, bits) ← Bits.number? 2 bits
        let last ← lengths.getLast?
        wordLengths code count fuel bits (lengths ++ List.replicate (3 + more) last)
      else if symbol = 17 then
        let (more, bits) ← Bits.number? 3 bits
        wordLengths code count fuel bits (lengths ++ List.replicate (3 + more) 0)
      else
        let (more, bits) ← Bits.number? 7 bits
        wordLengths code count fuel bits (lengths ++ List.replicate (11 + more) 0)

/-- Numbers of three bits. -/
def triples : Nat → Bits → Option (List Nat × Bits)
  | 0, bits => some ([], bits)
  | n + 1, bits => do
    let (x, bits) ← Bits.number? 3 bits
    let (xs, bits) ← triples n bits
    some (x :: xs, bits)

/-- The two codes that a block describes. -/
def codes? (bits : Bits) : Option (Code × Code × Bits) := do
  let (literals, bits) ← Bits.number? 5 bits
  let (distances, bits) ← Bits.number? 5 bits
  let (given, bits) ← Bits.number? 4 bits
  let (lengths, bits) ← triples (given + 4) bits
  let named := lengthOrder.zip lengths
  let code := Code.ofLengths ((List.range 19).map fun i => (named.lookup i).getD 0)
  let count := literals + 257 + (distances + 1)
  let (lengths, bits) ← wordLengths code count (count + 1) bits []
  let (forLiterals, forDistances) := lengths.splitAt (literals + 257)
  some (.ofLengths forLiterals, .ofLengths forDistances, bits)

/-- A block of bytes as they are; their number is given twice, once with all its bits turned. -/
def stored? (bits : Bits) (out : Array UInt8) : Option (Bits × Array UInt8) :=
  match bits.rest with
  | a :: b :: a' :: b' :: rest =>
    let count := a.toNat + 256 * b.toNat
    if a' ≠ ~~~a ∨ b' ≠ ~~~b ∨ rest.length < count then none
    else some ({ bytes := rest.drop count }, out ++ (rest.take count).toArray)
  | _ => none

/-- All blocks, up to the one that is marked as the last. -/
def blocks : Nat → Bits → Array UInt8 → Option (Bits × Array UInt8)
  | 0, _, _ => none
  | fuel + 1, bits, out => do
    let symbolFuel := 8 * bits.bytes.length + 1
    let (last, bits) ← bits.bit?
    let (kind, bits) ← Bits.number? 2 bits
    let (bits, out) ←
      if kind = 0 then stored? bits out
      else if kind = 1 then symbols fixedLiterals fixedDistances symbolFuel bits out
      else if kind = 2 then do
        let (literals, distances, bits) ← codes? bits
        symbols literals distances symbolFuel bits out
      else none
    if last = 1 then some (bits, out) else blocks fuel bits out

/-- The bytes that were compressed, and the bytes after the compressed ones. -/
def expand (bytes : Bytes) : Option (Bytes × Bytes) :=
  (blocks (8 * bytes.length + 1) { bytes } #[]).map fun (bits, out) => (out.toList, bits.rest)

end Inflate
end ProcessKit
