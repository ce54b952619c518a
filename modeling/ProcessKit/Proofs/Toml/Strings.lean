/-
# TOML strings come back

A string is written in one of several forms, and what is read from any of them is the string
(`string?_stringChars`). `Spells` says what may stand between quotes for a text: each character for
itself, where the form allows it, or an escape. Every form spells the text that it is written for
(`spells_escaped`, `spells_self`), and what spells a text is read as this text, from one line
(`lineString?_of_spells`) or from several (`blockString?_of_spells`).

The forms differ in the quote, in whether escapes are read, and in whether line ends may stand in
them. The printer takes a form without escapes where the text allows it. What has to be watched is
quotes: a string over several lines ends at three of them in a row, so a text may have two and no
more, and `Spells` counts how many stand right before. At the end of such a string up to two quotes
of the text stand before the three that close it (`blockString?_quote`).

`Spells` stands between the printer and the reader, so that neither has to be looked at together
with the other: there is one lemma for each form on the side of the printer, and one for each kind
of string on the side of the reader.
-/

import Mathlib.Tactic.SplitIfs
import ProcessKit.Toml.Printer

namespace ProcessKit
namespace Toml

/-- How many quotes in a row may stand for themselves between the quotes of a string. -/
def freeQuotes (block : Bool) : Nat := if block then 2 else 0

/-- **What stands between quotes for a text,** where `run` quotes stand right before: a quote for
itself only if no more are in a row than may be, a line end only in a string over several lines, an
escape only between double quotes. -/
inductive Spells (mark : QuoteMark) (block : Bool) : Nat → List Char → List Char → Prop
  | nil {run : Nat} : Spells mark block run [] []
  | quote {run : Nat} {text body : List Char} (hrun : run < freeQuotes block)
      (h : Spells mark block (run + 1) text body) :
      Spells mark block run (mark.char :: text) (mark.char :: body)
  | plain {run : Nat} {c : Char} {text body : List Char}
      (hplain : isPlain c = true ∨ block = true ∧ c = '\n') (hmark : c ≠ mark.char)
      (hback : ¬ (c = '\\' ∧ mark = .basic)) (h : Spells mark block 0 text body) :
      Spells mark block run (c :: text) (c :: body)
  | escape {run : Nat} {c : Char} {tail text body : List Char} (hmark : mark = .basic)
      (hescape : ∀ rest, escape? (tail ++ rest) = some (c, rest))
      (hcontinuation : ∀ rest, continuation? (tail ++ rest) = none)
      (h : Spells mark block 0 text body) :
      Spells mark block run (c :: text) ('\\' :: (tail ++ body))

/-- Neither quote is a backslash. -/
theorem QuoteMark.char_ne_backslash (mark : QuoteMark) : mark.char ≠ '\\' := by
  cases mark <;> decide

/-! ### Reading -/

variable {mark : QuoteMark} {block : Bool} {run fuel : Nat} {text body : List Char}

/-- **A string on one line is read** from what spells it, up to the quote that closes it. By
induction on the spelling. -/
theorem lineString?_of_spells (h : Spells mark false run text body) (hfuel : body.length < fuel)
    (rest : List Char) :
    lineString? mark fuel (body ++ mark.char :: rest) = some (text, rest) := by
  induction h generalizing fuel with
  | nil =>
      obtain ⟨fuel, rfl⟩ := Nat.exists_eq_succ_of_ne_zero (Nat.ne_zero_of_lt hfuel)
      rw [List.nil_append, lineString?, if_pos rfl]
  | quote hrun h ih => exact absurd hrun (by simp [freeQuotes])
  | plain hplain hmark hback h ih =>
      obtain ⟨fuel, rfl⟩ := Nat.exists_eq_succ_of_ne_zero (Nat.ne_zero_of_lt hfuel)
      have hplain := hplain.resolve_right (by simp)
      rw [List.cons_append, lineString?, if_neg hmark, if_neg hback, if_pos hplain,
        ih (by simpa using hfuel)]
      rfl
  | @escape run c tail text body hmark hescape hcontinuation h ih =>
      obtain ⟨fuel, rfl⟩ := Nat.exists_eq_succ_of_ne_zero (Nat.ne_zero_of_lt hfuel)
      rw [List.cons_append, lineString?, if_neg (QuoteMark.char_ne_backslash _).symm,
        if_pos ⟨rfl, hmark⟩, List.append_assoc, hescape]
      have hlength : body.length < fuel := by
        rw [List.length_cons, List.length_append] at hfuel
        omega
      change ((lineString? mark fuel _).bind _) = _
      rw [ih hlength]
      rfl

/-- The quotes at the start of what spells a text are the whole of it, or no more than may be in a
row. -/
theorem Spells.quotes (h : Spells mark block run text body) (hrun : run ≤ freeQuotes block) :
    ∃ k, run + k ≤ freeQuotes block ∧
      ((text = List.replicate k mark.char ∧ body = List.replicate k mark.char) ∨
        ∃ c tail, c ≠ mark.char ∧ body = List.replicate k mark.char ++ c :: tail) := by
  induction h with
  | nil => exact ⟨0, hrun, .inl ⟨rfl, rfl⟩⟩
  | quote hlt h ih =>
      obtain ⟨k, hk, hcases⟩ := ih hlt
      refine ⟨k + 1, by omega, ?_⟩
      obtain ⟨rfl, rfl⟩ | ⟨c, tail, hc, rfl⟩ := hcases
      · exact .inl ⟨rfl, rfl⟩
      · exact .inr ⟨c, tail, hc, rfl⟩
  | plain hplain hmark hback h ih => exact ⟨0, hrun, .inr ⟨_, _, hmark, rfl⟩⟩
  | escape hmark hescape hcontinuation h ih =>
      exact ⟨0, hrun, .inr ⟨_, _, (QuoteMark.char_ne_backslash _).symm, rfl⟩⟩

/-- The length of a run of one character. -/
theorem length_takeWhile_replicate {c : Char} (k : Nat) {rest : List Char}
    (h : rest.head? ≠ some c) :
    ((List.replicate k c ++ rest).takeWhile (· == c)).length = k := by
  induction k with
  | zero =>
      cases rest with
      | nil => rfl
      | cons d rest =>
          have hne : d ≠ c := fun heq => h (by rw [heq]; rfl)
          simp [hne]
  | succ k ih => simpa [List.replicate_succ] using ih

/-- Three quotes close a string over several lines, after up to two more that are text. -/
theorem blockString?_close (mark : QuoteMark) (fuel : Nat) {k : Nat} (hk : k ≤ 2)
    {rest : List Char} (hrest : rest.head? ≠ some mark.char) :
    blockString? mark (fuel + 1) (List.replicate (k + 3) mark.char ++ rest) =
      some (List.replicate k mark.char, rest) := by
  have hquotes := length_takeWhile_replicate (k + 3) hrest
  rw [List.replicate_succ, List.cons_append] at hquotes ⊢
  rw [blockString?, if_pos rfl]
  dsimp only
  rw [hquotes, if_pos (by omega), ← List.cons_append, ← List.replicate_succ]
  have htext : min (k + 3 - 3) 2 = k := by omega
  have hclose : min (k + 3) 5 = (List.replicate (k + 3) mark.char).length := by
    rw [List.length_replicate]
    omega
  rw [htext, hclose, List.drop_left]

/-- Fewer than three quotes are text. -/
theorem blockString?_quote (mark : QuoteMark) (fuel : Nat) {k : Nat} (hk : k ≤ 1)
    {rest : List Char} (hrest : rest.head? ≠ some mark.char) :
    blockString? mark (fuel + 1) (mark.char :: (List.replicate k mark.char ++ rest)) =
      (blockString? mark fuel (List.replicate k mark.char ++ rest)).map fun (cs, rest) =>
        (mark.char :: cs, rest) := by
  have hquotes := length_takeWhile_replicate (k + 1) hrest
  rw [List.replicate_succ, List.cons_append] at hquotes
  rw [blockString?, if_pos rfl]
  dsimp only
  rw [hquotes, if_neg (by omega)]
  cases blockString? mark fuel (List.replicate k mark.char ++ rest) <;> rfl

/-- A line ends only before a line feed or a carriage return. -/
theorem lineEnd?_eq_none {c : Char} (hline : c ≠ '\n') (hreturn : c ≠ '\r') (rest : List Char) :
    lineEnd? (c :: rest) = none := by
  rw [lineEnd?]
  · exact fun _ h => hline (List.cons.inj h).1
  · exact fun _ h => hreturn (List.cons.inj h).1

/-- **A string over several lines is read** from what spells it, up to the three quotes that close
it. Quotes at the end of the text stand right before these. -/
theorem blockString?_of_spells (h : Spells mark true run text body) (hrun : run ≤ 2)
    (hfuel : body.length < fuel) {rest : List Char} (hrest : rest.head? ≠ some mark.char) :
    blockString? mark fuel (body ++ (List.replicate 3 mark.char ++ rest)) = some (text, rest) := by
  induction h generalizing fuel with
  | nil =>
      obtain ⟨fuel, rfl⟩ := Nat.exists_eq_succ_of_ne_zero (Nat.ne_zero_of_lt hfuel)
      exact blockString?_close mark fuel (Nat.zero_le 2) hrest
  | @quote run text body hlt h ih =>
      obtain ⟨fuel, rfl⟩ := Nat.exists_eq_succ_of_ne_zero (Nat.ne_zero_of_lt hfuel)
      -- this quote may belong to the run that closes the string
      obtain ⟨k, hquotes, hcases⟩ := h.quotes hlt
      have hk : run + 1 + k ≤ 2 := hquotes
      obtain ⟨rfl, rfl⟩ | ⟨c, tail, hc, rfl⟩ := hcases
      · rw [← List.replicate_succ, ← List.append_assoc, List.replicate_append_replicate]
        exact blockString?_close mark fuel (by omega) hrest
      · have hread := ih (by omega) (by simpa using hfuel)
        rw [List.append_assoc] at hread
        rw [List.cons_append, List.append_assoc,
          blockString?_quote mark fuel (by omega) (by simpa using hc), hread]
        rfl
  | @plain run c text body hplain hmark hback h ih =>
      obtain ⟨fuel, rfl⟩ := Nat.exists_eq_succ_of_ne_zero (Nat.ne_zero_of_lt hfuel)
      have hread := ih (by omega) (by simpa using hfuel)
      rw [List.cons_append, blockString?, if_neg hmark, if_neg hback]
      obtain hplain | ⟨-, rfl⟩ := hplain
      · have hline : c ≠ '\n' := by
          rintro rfl
          exact absurd hplain (by decide)
        have hreturn : c ≠ '\r' := by
          rintro rfl
          exact absurd hplain (by decide)
        rw [lineEnd?_eq_none hline hreturn]
        dsimp only
        rw [if_pos hplain, hread]
        rfl
      · rw [lineEnd?]
        dsimp only
        rw [hread]
        rfl
  | @escape run c tail text body hmark hescape hcontinuation h ih =>
      obtain ⟨fuel, rfl⟩ := Nat.exists_eq_succ_of_ne_zero (Nat.ne_zero_of_lt hfuel)
      have hlength : body.length < fuel := by
        rw [List.length_cons, List.length_append] at hfuel
        omega
      rw [List.cons_append, blockString?, if_neg (QuoteMark.char_ne_backslash _).symm,
        if_pos ⟨rfl, hmark⟩, List.append_assoc, hcontinuation]
      dsimp only
      rw [hescape]
      change ((blockString? mark fuel _).bind _) = _
      rw [ih (by omega) hlength]
      rfl

/-! ### Writing -/

namespace Printer

/-- The hexadecimal digits of a code point are read up to what stands behind them. -/
theorem codePoint?_append {width : Nat} {digits : List Char} {c : Char}
    (hlength : digits.length = width) (h : codePoint? width digits = some (c, []))
    (rest : List Char) : codePoint? width (digits ++ rest) = some (c, rest) := by
  subst hlength
  rw [codePoint?, List.take_length] at h
  rw [codePoint?, List.take_left, List.drop_left]
  obtain ⟨values, hvalues, h⟩ := Option.bind_eq_some_iff.1 h
  rw [hvalues]
  change (if _ then _ else _) = _ at h ⊢
  split_ifs at h with hcode
  · obtain ⟨rfl, -⟩ := Prod.mk.inj (Option.some.inj h)
    exact if_pos hcode

/-- Four hexadecimal digits, as they are printed, are read back as the character that they were
printed for. -/
theorem codePoint?_hexDigits {n : Nat} (h : n < 128) :
    codePoint? 4 ['0', '0', Char.ofNat (48 + n / 16), (Nat.digitChar (n % 16)).toUpper] =
      some (Char.ofNat n, []) := by
  revert n
  decide

/-- What needs no escape may stand in a string, a line end in one over several lines. -/
theorem isPlain_of_needsEscape_eq_false {c : Char} (h : needsEscape c = false) (hline : c ≠ '\n') :
    isPlain c = true := by
  by_cases htab : c = '\t'
  · rw [htab]
    rfl
  · rw [needsEscape] at h
    rw [isPlain]
    simp [hline, htab] at h ⊢
    exact h

/-- An escape is read as its character, and continues no line. -/
theorem escape?_spec {block : Bool} {c : Char} {escape : List Char}
    (h : escape? block c = some escape) : ∃ tail, escape = '\\' :: tail ∧
      (∀ rest, Toml.escape? (tail ++ rest) = some (c, rest)) ∧
      ∀ rest, continuation? (tail ++ rest) = none := by
  rw [escape?] at h
  split_ifs at h with hb ht hn hf hr hback hcontrol
  all_goals obtain rfl := Option.some.inj h
  · exact ⟨['b'], rfl, fun _ => by rw [hb]; rfl, fun _ => rfl⟩
  · exact ⟨['t'], rfl, fun _ => by rw [ht]; rfl, fun _ => rfl⟩
  · exact ⟨['n'], rfl, fun _ => by rw [hn.1]; rfl, fun _ => rfl⟩
  · exact ⟨['f'], rfl, fun _ => by rw [hf]; rfl, fun _ => rfl⟩
  · exact ⟨['r'], rfl, fun _ => by rw [hr]; rfl, fun _ => rfl⟩
  · exact ⟨['\\'], rfl, fun _ => by rw [hback]; rfl, fun _ => rfl⟩
  · have hlt : c.toNat < 128 := by
      rw [needsEscape] at hcontrol
      simp at hcontrol
      omega
    refine ⟨_, rfl, fun rest => ?_, fun _ => rfl⟩
    have hread := codePoint?_append (by rfl) (codePoint?_hexDigits hlt) rest
    rw [Char.ofNat_toNat] at hread
    exact hread

/-- A character without an escape may stand for itself. -/
theorem plain_of_escape?_eq_none {block : Bool} {c : Char} (h : escape? block c = none) :
    (isPlain c = true ∨ block = true ∧ c = '\n') ∧ c ≠ '\\' := by
  rw [escape?] at h
  split_ifs at h with hb ht hn hf hr hback hcontrol
  refine ⟨?_, hback⟩
  by_cases hline : c = '\n'
  · exact .inr ⟨by simpa [hline] using hn, hline⟩
  · exact .inl (isPlain_of_needsEscape_eq_false (by simpa using hcontrol) hline)

/-- A quote that is escaped ends nothing, so the count of quotes in a row starts anew behind it. -/
theorem spells_escapedQuote {block : Bool} (run : Nat) {text body : List Char}
    (h : Spells .basic block 0 text body) :
    Spells .basic block run ('"' :: text) ('\\' :: '"' :: body) :=
  @Spells.escape .basic block run '"' ['"'] text body rfl (fun _ => rfl) (fun _ => rfl) h

/-- **What is written between double quotes** spells the text: every character that cannot stand for
itself has an escape, and so has a quote where no more may be in a row. -/
theorem spells_escaped (block : Bool) (run : Nat) (text : List Char) :
    Spells .basic block run text (escaped block (freeQuotes block) run text) := by
  induction text generalizing run with
  | nil => exact .nil
  | cons c text ih =>
      rw [escaped]
      split_ifs with hquote hrun
      · subst hquote
        exact .quote hrun (ih _)
      · subst hquote
        exact spells_escapedQuote run (ih 0)
      · split
        · rename_i escape hescape
          obtain ⟨tail, rfl, hread, hcontinuation⟩ := escape?_spec hescape
          exact .escape rfl hread hcontinuation (ih 0)
        · rename_i hescape
          obtain ⟨hplain, hback⟩ := plain_of_escape?_eq_none hescape
          exact .plain hplain hquote (fun hc => hback hc.1) (ih 0)

/-- The longest run of a character is at least as long as the run that it was begun with. -/
theorem le_longestRun_go (c : Char) (run : Nat) (cs : List Char) :
    run ≤ longestRun.go c run cs := by
  induction cs generalizing run with
  | nil => exact Nat.le_refl run
  | cons d cs ih =>
      rw [longestRun.go]
      split_ifs
      · exact Nat.le_trans (Nat.le_succ run) (ih _)
      · exact Nat.le_max_left ..

/-- **A text in single quotes** spells itself, if there are not too many quotes in a row and nothing
in it needs an escape. -/
theorem spells_self {block : Bool} {run : Nat} {text : List Char}
    (hplain : ∀ c ∈ text, needsEscape c = false) (hlines : block = false → '\n' ∉ text)
    (hquotes : longestRun.go '\'' run text ≤ freeQuotes block) :
    Spells .literal block run text text := by
  induction text generalizing run with
  | nil => exact .nil
  | cons c text ih =>
      obtain ⟨hc, hrest⟩ := List.forall_mem_cons.1 hplain
      have hlines' (hblock : block = false) : c ≠ '\n' ∧ '\n' ∉ text := by
        have hnot := hlines hblock
        rw [List.mem_cons, not_or] at hnot
        exact ⟨Ne.symm hnot.1, hnot.2⟩
      rw [longestRun.go] at hquotes
      split_ifs at hquotes with hquote
      · have hrun := Nat.le_trans (le_longestRun_go '\'' (run + 1) text) hquotes
        subst hquote
        exact .quote hrun (ih hrest (fun hblock => (hlines' hblock).2) hquotes)
      · have hself : Spells .literal block 0 text text :=
          ih hrest (fun hblock => (hlines' hblock).2)
            (Nat.le_trans (Nat.le_max_right ..) hquotes)
        refine .plain ?_ hquote (by simp) hself
        by_cases hline : c = '\n'
        · refine .inr ⟨?_, hline⟩
          cases block with
          | true => rfl
          | false => exact absurd hline (hlines' rfl).1
        · exact .inl (isPlain_of_needsEscape_eq_false hc hline)

/-- **The forms of a string:** between two quotes, or between three and three. -/
theorem stringChars_cases (text : List Char) : ∃ mark body,
    (Spells mark false 0 text body ∧ stringChars text = mark.char :: (body ++ [mark.char])) ∨
      (Spells mark true 0 text body ∧ stringChars text = Printer.block mark text body) := by
  have hescaped (block : Bool) := spells_escaped block 0 text
  have hplain (h : (text.any needsEscape) = false) : ∀ c ∈ text, needsEscape c = false := by
    simpa using h
  rw [stringChars]
  split_ifs with hbasic hliteral hbasics hliterals hlines
  · exact ⟨.basic, _, .inl ⟨hescaped false, rfl⟩⟩
  · simp only [Bool.and_eq_true, Bool.not_eq_true', decide_eq_true_eq] at hliteral
    obtain ⟨⟨hescapes, hsingles⟩, hlines⟩ := hliteral
    refine ⟨.literal, text, .inl ⟨spells_self (hplain hescapes) ?_ (Nat.le_of_eq hsingles), rfl⟩⟩
    intro _ hmem
    simp [hmem] at hlines
  · exact ⟨.basic, _, .inr ⟨hescaped true, rfl⟩⟩
  · simp only [Bool.and_eq_true, Bool.not_eq_true', decide_eq_true_eq] at hliterals
    exact ⟨.literal, text, .inr ⟨spells_self (hplain hliterals.1) (by simp) hliterals.2, rfl⟩⟩
  · exact ⟨.basic, _, .inr ⟨hescaped true, rfl⟩⟩
  · exact ⟨.basic, _, .inl ⟨hescaped false, rfl⟩⟩

end Printer

/-! ### There and back -/

/-- What spells a text starts with no line end, unless the text has one. -/
theorem Spells.lineEnd?_eq_none (h : Spells mark block run text body) (hlines : '\n' ∉ text)
    (rest : List Char) : lineEnd? (body ++ mark.char :: rest) = none := by
  have hmark : mark.char ≠ '\n' ∧ mark.char ≠ '\r' := by cases mark <;> decide
  cases h with
  | nil => exact Toml.lineEnd?_eq_none hmark.1 hmark.2 rest
  | quote _ _ => exact Toml.lineEnd?_eq_none hmark.1 hmark.2 _
  | escape _ _ _ _ => exact Toml.lineEnd?_eq_none (by decide) (by decide) _
  | @plain _ c _ _ hplain _ _ _ =>
      rw [List.mem_cons, not_or] at hlines
      refine Toml.lineEnd?_eq_none (Ne.symm hlines.1) ?_ _
      rintro rfl
      simp [isPlain] at hplain

/-- Behind one quote that is not one of three, the text of one line is read. -/
theorem string?_line (mark : QuoteMark) {cs : List Char}
    (h : ∀ rest, cs ≠ mark.char :: mark.char :: rest) :
    string? (mark.char :: cs) = (lineString? mark (cs.length + 1) cs).map fun (cs, rest) =>
      (String.ofList cs, rest) := by
  rw [Option.map_eq_bind]
  cases mark with
  | basic =>
      rw [QuoteMark.char, string?]
      · rfl
      · exact h
  | literal =>
      rw [QuoteMark.char, string?]
      · rfl
      · exact h

/-- Behind three quotes a block is read, without the line end that may follow them at once. -/
theorem string?_block (mark : QuoteMark) (cs : List Char) :
    string? (List.replicate 3 mark.char ++ cs) =
      (blockString? mark (cs.length + 1) ((lineEnd? cs).getD cs)).map fun (cs, rest) =>
        (String.ofList cs, rest) := by
  rw [Option.map_eq_bind]
  cases mark <;> rfl

/-- **A string comes back** from what is written for it, whatever it holds, if no quote follows. -/
theorem string?_stringChars (text : String) {rest : List Char}
    (hrest : ∀ mark : QuoteMark, rest.head? ≠ some mark.char) :
    string? (Printer.stringChars text.toList ++ rest) = some (text, rest) := by
  have htext : (some (text.toList, rest)).map (fun (cs, rest) => (String.ofList cs, rest)) =
      some (text, rest) := congrArg (fun s => some (s, rest)) String.ofList_toList
  obtain ⟨mark, body, ⟨hspells, hform⟩ | ⟨hspells, hform⟩⟩ := Printer.stringChars_cases text.toList
  · have hstart (more : List Char) :
        body ++ mark.char :: rest ≠ mark.char :: mark.char :: more := by
      intro heq
      obtain ⟨k, hk, hcases⟩ := hspells.quotes (Nat.zero_le _)
      obtain rfl : k = 0 := by simpa [freeQuotes] using hk
      obtain ⟨-, rfl⟩ | ⟨c, tail, hc, rfl⟩ := hcases
      · exact hrest mark (by rw [(List.cons.inj heq).2]; rfl)
      · exact hc (List.cons.inj heq).1
    have hlength : body.length < (body ++ mark.char :: rest).length + 1 := by
      rw [List.length_append]
      omega
    rw [hform, List.cons_append, List.append_assoc, List.singleton_append,
      string?_line mark hstart, lineString?_of_spells hspells hlength, htext]
  · rw [hform, Printer.block, List.append_assoc, List.append_assoc, List.append_assoc,
      string?_block]
    have hread (lines : List Char) :
        blockString? mark ((lines ++ (body ++ (List.replicate 3 mark.char ++ rest))).length + 1)
          (body ++ (List.replicate 3 mark.char ++ rest)) = some (text.toList, rest) :=
      blockString?_of_spells hspells (Nat.zero_le 2) (by simp; omega) (hrest mark)
    split_ifs with hlines
    · rw [← htext, ← hread ['\n']]
      rfl
    · have hnone : lineEnd? (body ++ (List.replicate 3 mark.char ++ rest)) = none :=
        hspells.lineEnd?_eq_none (by simpa using hlines) _
      rw [List.nil_append, hnone, ← htext, ← hread []]
      rfl

end Toml
end ProcessKit
