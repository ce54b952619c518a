/-
# The order of texts is that of their bytes

Texts are compared character by character. UTF-8 is made so that comparing their bytes gives the
same: of two characters the greater one has the greater byte at the first place where they differ,
and none is the start of the other one (`encodeChar_lt`). So it is for whole texts
(`encode_lt_encode_iff`), and for lists of texts (`map_encode_lt_map_encode_iff`).

The program keeps its maps sorted by the bytes of their keys, and the statements here are about
texts; this module is what lets one stand for the other. For one character the argument goes through
the four lengths that an encoding can have. A longer one has a greater first byte, and among those
of one length the bytes are the digits of the character, the most significant first, so the first
digit that differs decides (`digits_eq`).
-/

import Mathlib.Data.String.Basic
import ProcessKit.Text.Utf8

namespace ProcessKit
namespace Utf8

/-- The scalar value of a character is below `0x110000`, the end of the code space. -/
theorem toNat_val_lt (c : Char) : c.val.toNat < 0x110000 := by
  have h := c.valid
  simp only [UInt32.isValidChar, Nat.isValidChar] at h
  omega

/-- The digits of a code point that its bytes hold. -/
theorem digits_eq {n : Nat} (h : n < 0x110000) :
    n = ((n / 262144 % 8 * 64 + n / 4096 % 64) * 64 + n / 64 % 64) * 64 + n % 64 := by omega

/-- **The greater character has the greater byte** at the first place where the two differ, whatever
comes behind them. -/
theorem encodeChar_lt {c d : Char} (h : c < d) (s t : Bytes) :
    String.utf8EncodeChar c ++ s < String.utf8EncodeChar d ++ t := by
  have hlt : c.val.toNat < d.val.toNat := UInt32.lt_iff_toNat_lt.1 h
  have hd := toNat_val_lt d
  have hc : c.val.toNat < 0x110000 := hlt.trans hd
  unfold String.utf8EncodeChar
  dsimp only
  generalize c.val.toNat = m at hlt hc
  generalize d.val.toNat = n at hlt hd
  have hbyte (n : Nat) (h : n < 256) : (UInt8.ofNat n).toNat = n := by
    rw [UInt8.toNat_ofNat', Nat.mod_eq_of_lt h]
  have hm := digits_eq hc
  have hn := digits_eq hd
  split_ifs <;>
    simp (disch := omega) only [List.cons_append, List.nil_append, List.cons_lt_cons_iff,
      UInt8.lt_iff_toNat_lt, ← UInt8.toNat_inj, hbyte] <;>
    omega

/-- **UTF-8 keeps the order of texts:** of two lists of characters the lesser one has the lesser
bytes. The first character that differs decides both. -/
theorem flatMap_encodeChar_lt {cs ds : List Char} (h : cs < ds) :
    cs.flatMap String.utf8EncodeChar < ds.flatMap String.utf8EncodeChar := by
  induction ds generalizing cs with
  | nil => exact absurd h (List.not_lt_nil cs)
  | cons d ds ih =>
      rw [List.flatMap_cons]
      cases cs with
      | nil =>
          obtain ⟨b, rest, hd⟩ :=
            List.exists_cons_of_ne_nil (String.utf8EncodeChar_ne_nil : String.utf8EncodeChar d ≠ [])
          rw [hd]
          exact List.nil_lt_cons ..
      | cons c cs =>
          rw [List.flatMap_cons]
          obtain hlt | ⟨rfl, hrest⟩ := List.cons_lt_cons_iff.1 h
          · exact encodeChar_lt hlt ..
          · exact List.append_left_lt (ih hrest)

/-- What keeps a strict order also reflects it. -/
theorem lt_iff_of_mono {α β : Type} [LinearOrder α] [LT β] [Std.Asymm (α := β) (· < ·)] {f : α → β}
    (hmono : ∀ x y, x < y → f x < f y) {x y : α} : f x < f y ↔ x < y := by
  refine ⟨fun h => ?_, hmono x y⟩
  by_contra hnot
  obtain hlt | rfl := lt_or_eq_of_le (not_lt.1 hnot)
  · exact Std.Asymm.asymm _ _ h (hmono _ _ hlt)
  · exact Std.Asymm.asymm _ _ h h

/-- **Texts are in the order of their bytes.** One direction is shown character by character, and
the other one follows since the order of texts is total and that of bytes is strict. -/
theorem encode_lt_encode_iff {s t : String} : encode s < encode t ↔ s < t :=
  lt_iff_of_mono fun _ _ h => flatMap_encodeChar_lt (String.lt_iff_toList_lt.1 h)

/-- **So are lists of texts,** compared text by text. -/
theorem map_encode_lt_map_encode_iff {ss ts : List String} :
    ss.map encode < ts.map encode ↔ ss < ts :=
  lt_iff_of_mono (f := List.map encode) fun _ _ h =>
    List.map_lt (fun _ _ => encode_lt_encode_iff.2) h

end Utf8
end ProcessKit
