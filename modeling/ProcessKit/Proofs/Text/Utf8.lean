/-
# Reading back what was written

The bytes of a text are well formed, and reading them gives the text (`decode?_encode`). A first
byte tells how many bytes a character takes, and in which range the second one must lie; the bytes
of a character keep to that (`lead_two`, `lead_three`, `lead_four`), so `pieces` takes them for that
character, whatever comes behind (`pieces_encodeChar`).

The range of the second byte is what rules out overlong forms, surrogates and values past the last
character. A character is none of these, which is part of its type, so for each length of an
encoding it remains to compare digits: the payload that is put together from the bytes is the number
of the character, and the second byte is in the range that the first one allows.
-/

import ProcessKit.Proofs.Text.Order

namespace ProcessKit
namespace Utf8

/-- The last byte of a character. -/
theorem piecesAfter_last {p : Pending} {b : UInt8} (rest : Bytes) (howed : p.owed = 1)
    (hlow : p.low ≤ b) (hhigh : b ≤ p.high) : piecesAfter (some p) (b :: rest) =
      some (Char.ofNat (p.code * 64 + b.toNat % 64)) :: piecesAfter none rest := by
  rw [piecesAfter, howed, decide_eq_true hlow, decide_eq_true hhigh]
  rfl

/-- A byte of a character that owes more. -/
theorem piecesAfter_more {p : Pending} {b : UInt8} {owed : Nat} (rest : Bytes)
    (howed : p.owed = owed + 2) (hlow : p.low ≤ b) (hhigh : b ≤ p.high) :
    piecesAfter (some p) (b :: rest) =
      piecesAfter (some { code := p.code * 64 + b.toNat % 64, owed := owed + 1 }) rest := by
  rw [piecesAfter, howed, decide_eq_true hlow, decide_eq_true hhigh]
  rfl

/-- A number below 256 fits in a byte. -/
theorem toNat_ofNat_of_lt {n : Nat} (h : n < 256) : (UInt8.ofNat n).toNat = n := by
  rw [UInt8.toNat_ofNat', Nat.mod_eq_of_lt h]

/-- A byte with six bits of a character may follow any first byte that does not narrow the range. -/
theorem continues (n : Nat) :
    (0x80 : UInt8) ≤ UInt8.ofNat (n % 64 + 128) ∧ UInt8.ofNat (n % 64 + 128) ≤ 0xBF ∧
      (UInt8.ofNat (n % 64 + 128)).toNat % 64 = n % 64 := by
  have hbyte : (UInt8.ofNat (n % 64 + 128)).toNat = n % 64 + 128 := toNat_ofNat_of_lt (by omega)
  rw [UInt8.le_iff_toNat_le, UInt8.le_iff_toNat_le, hbyte]
  have hlow : (0x80 : UInt8).toNat = 128 := rfl
  have hhigh : (0xBF : UInt8).toNat = 191 := rfl
  omega

/-- The first of two bytes. -/
theorem lead_two {n : Nat} (hlow : 0x7F < n) (hhigh : n ≤ 0x7FF) :
    lead (UInt8.ofNat (n / 64 % 32 + 192)) = .owes { code := n / 64, owed := 1 } := by
  have hbyte : (UInt8.ofNat (n / 64 % 32 + 192)).toNat = n / 64 + 192 := by
    rw [toNat_ofNat_of_lt (by omega)]
    omega
  rw [lead, hbyte, if_neg (by omega), if_neg (by omega), if_pos (by omega)]
  have hcode : (n / 64 + 192) % 32 = n / 64 := by omega
  rw [hcode]

/-- **The first of three bytes** lets the second one pass: it is not low enough for an overlong
form, nor high enough for a surrogate. -/
theorem lead_three {n : Nat} (hlow : 0x7FF < n) (hhigh : n ≤ 0xFFFF)
    (hsurrogate : n < 0xD800 ∨ 0xDFFF < n) :
    ∃ p, lead (UInt8.ofNat (n / 4096 % 16 + 224)) = .owes p ∧ p.code = n / 4096 ∧ p.owed = 2 ∧
      p.low ≤ UInt8.ofNat (n / 64 % 64 + 128) ∧ UInt8.ofNat (n / 64 % 64 + 128) ≤ p.high := by
  have hbyte : (UInt8.ofNat (n / 4096 % 16 + 224)).toNat = n / 4096 + 224 := by
    rw [toNat_ofNat_of_lt (by omega)]
    omega
  have hsecond : (UInt8.ofNat (n / 64 % 64 + 128)).toNat = n / 64 % 64 + 128 :=
    toNat_ofNat_of_lt (by omega)
  obtain ⟨hcontinues, hcontinues', -⟩ := continues (n / 64)
  rw [lead, hbyte, if_neg (by omega), if_neg (by omega), if_neg (by omega)]
  -- 0xE0 and 0xED narrow the range of the second byte, the others do not
  by_cases hzero : n / 4096 = 0
  · rw [if_pos (by omega)]
    refine ⟨_, rfl, hzero.symm, rfl, ?_, hcontinues'⟩
    rw [UInt8.le_iff_toNat_le, hsecond]
    change 0xA0 ≤ _
    omega
  rw [if_neg (by omega)]
  by_cases hthirteen : n / 4096 = 13
  · rw [if_pos (by omega)]
    refine ⟨_, rfl, hthirteen.symm, rfl, hcontinues, ?_⟩
    rw [UInt8.le_iff_toNat_le, hsecond]
    change _ ≤ 0x9F
    omega
  · rw [if_neg (by omega), if_pos (by omega)]
    refine ⟨_, rfl, ?_, rfl, hcontinues, hcontinues'⟩
    change (n / 4096 + 224) % 16 = _
    omega

/-- **The first of four bytes** lets the second one pass: it is not low enough for an overlong form,
nor too high for a code point. -/
theorem lead_four {n : Nat} (hlow : 0xFFFF < n) (hhigh : n < 0x110000) :
    ∃ p, lead (UInt8.ofNat (n / 262144 % 8 + 240)) = .owes p ∧ p.code = n / 262144 ∧ p.owed = 3 ∧
      p.low ≤ UInt8.ofNat (n / 4096 % 64 + 128) ∧ UInt8.ofNat (n / 4096 % 64 + 128) ≤ p.high := by
  have hbyte : (UInt8.ofNat (n / 262144 % 8 + 240)).toNat = n / 262144 + 240 := by
    rw [toNat_ofNat_of_lt (by omega)]
    omega
  have hsecond : (UInt8.ofNat (n / 4096 % 64 + 128)).toNat = n / 4096 % 64 + 128 :=
    toNat_ofNat_of_lt (by omega)
  obtain ⟨hcontinues, hcontinues', -⟩ := continues (n / 4096)
  rw [lead, hbyte, if_neg (by omega), if_neg (by omega), if_neg (by omega), if_neg (by omega),
    if_neg (by omega), if_neg (by omega)]
  -- 0xF0 and 0xF4 narrow the range of the second byte, the others do not
  by_cases hzero : n / 262144 = 0
  · rw [if_pos (by omega)]
    refine ⟨_, rfl, hzero.symm, rfl, ?_, hcontinues'⟩
    rw [UInt8.le_iff_toNat_le, hsecond]
    change 0x90 ≤ _
    omega
  rw [if_neg (by omega)]
  by_cases hfour : n / 262144 = 4
  · rw [if_neg (by omega), if_pos (by omega)]
    refine ⟨_, rfl, hfour.symm, rfl, hcontinues, ?_⟩
    rw [UInt8.le_iff_toNat_le, hsecond]
    change _ ≤ 0x8F
    omega
  · rw [if_pos (by omega)]
    refine ⟨_, rfl, ?_, rfl, hcontinues, hcontinues'⟩
    change (n / 262144 + 240) % 8 = _
    omega

/-- A byte that is a character by itself is decoded as that one, and the rest after it. -/
theorem pieces_of_char {b : UInt8} {c : Char} (rest : Bytes) (h : lead b = .char c) :
    pieces (b :: rest) = some c :: pieces rest := by
  rw [pieces, piecesAfter, h]
  rfl

/-- A first byte that owes more leaves the rest to be read with what is owed. -/
theorem pieces_of_owes {b : UInt8} {p : Pending} (rest : Bytes) (h : lead b = .owes p) :
    pieces (b :: rest) = piecesAfter (some p) rest := by
  rw [pieces, piecesAfter, h]

/-- **The bytes of a character are taken for it,** whatever comes behind. One case for each number
of bytes that a character may take. -/
theorem pieces_encodeChar (c : Char) (rest : Bytes) :
    pieces (String.utf8EncodeChar c ++ rest) = some c :: pieces rest := by
  have hmax := toNat_val_lt c
  have hsurrogate : c.val.toNat < 0xD800 ∨ 0xDFFF < c.val.toNat := by
    have hvalid := c.valid
    simp only [UInt32.isValidChar, Nat.isValidChar] at hvalid
    omega
  have hchar : some c = some (Char.ofNat c.val.toNat) := by rw [← Char.toNat, Char.ofNat_toNat]
  rw [hchar]
  unfold String.utf8EncodeChar
  dsimp only
  generalize c.val.toNat = n at hmax hsurrogate
  obtain ⟨hlow, hhigh, hlast⟩ := continues n
  obtain ⟨hlow', hhigh', hlast'⟩ := continues (n / 64)
  have hlast'' := (continues (n / 4096)).2.2
  split_ifs with hone htwo hthree
  · refine pieces_of_char rest ?_
    rw [lead, toNat_ofNat_of_lt (by omega)]
    exact if_pos (by omega)
  · rw [List.cons_append, pieces_of_owes _ (lead_two (by omega) htwo), List.singleton_append,
      piecesAfter_last _ rfl hlow hhigh, hlast]
    have hcode : n / 64 * 64 + n % 64 = n := by omega
    rw [hcode]
    rfl
  · obtain ⟨p, hlead, hcode, howed, hpass, hpass'⟩ := lead_three (by omega) hthree hsurrogate
    simp only [List.cons_append, List.nil_append]
    rw [pieces_of_owes _ hlead, piecesAfter_more _ howed hpass hpass',
      piecesAfter_last _ rfl hlow hhigh, hcode, hlast, hlast']
    have hcode : (n / 4096 * 64 + n / 64 % 64) * 64 + n % 64 = n := by omega
    rw [hcode]
    rfl
  · obtain ⟨p, hlead, hcode, howed, hpass, hpass'⟩ := lead_four (by omega) hmax
    simp only [List.cons_append, List.nil_append]
    rw [pieces_of_owes _ hlead, piecesAfter_more _ howed hpass hpass',
      piecesAfter_more _ rfl hlow' hhigh', piecesAfter_last _ rfl hlow hhigh, hcode, hlast, hlast',
      hlast'']
    have hcode : ((n / 262144 * 64 + n / 4096 % 64) * 64 + n / 64 % 64) * 64 + n % 64 = n := by
      omega
    dsimp only
    rw [hcode]
    rfl

/-- **What was written is read back.** By induction on the characters of the text, each of which is
taken off the bytes as one piece. -/
theorem decode?_encode (text : String) : decode? (encode text) = some text := by
  have hpieces (cs : List Char) : pieces (cs.flatMap String.utf8EncodeChar) = cs.map some := by
    induction cs with
    | nil => rfl
    | cons c cs ih => rw [List.flatMap_cons, pieces_encodeChar, ih, List.map_cons]
  have hall (cs : List Char) : (cs.map some).mapM id = some cs := by
    induction cs with
    | nil => rfl
    | cons c cs ih => rw [List.map_cons, List.mapM_cons, ih]; rfl
  rw [decode?, encode, hpieces, hall, Option.map_some, String.ofList_toList]

end Utf8
end ProcessKit
