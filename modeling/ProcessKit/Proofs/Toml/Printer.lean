/-
# TOML text comes back

What is written for a string or an array of strings is read as this value (`reads_string`,
`reads_array`), a header and an assignment as the statements they are (`statement?_header`,
`statement?_assignment`), and the lines of a document as the list of its statements (`Says`).

`Reads` asks for a value to be read whatever comes behind it, save a quote: two quotes could be the
start of a string over several lines, and a third one its end. It also asks for enough fuel, which
is measured by the length of the text. An array is written on one line or with a line for each item;
blanks and line ends between the items are skipped, so both are one list of items to the reader.

`Says` is about whole lines. A text that says something can be put behind a header, an assignment or
an empty line, and says one statement more or as many as before. So the text of a document is read
by going through its lines from the last one to the first.
-/

import ProcessKit.Proofs.Toml.Strings
import ProcessKit.Toml.Document

namespace ProcessKit
namespace Toml

/-! ### Between the words -/

/-- A character that starts a word: no blank, no line end and no comment. -/
def StartsWord (c : Char) : Prop := isBlank c = false ∧ c ≠ '#' ∧ c ≠ '\n' ∧ c ≠ '\r'

/-- Before a word there is no blank to skip. -/
theorem StartsWord.skipBlanks {c : Char} (h : StartsWord c) (rest : List Char) :
    skipBlanks (c :: rest) = c :: rest :=
  List.dropWhile_cons_of_neg (by simp [h.1])

/-- A line does not end before a word. -/
theorem StartsWord.lineEnd? {c : Char} (h : StartsWord c) (rest : List Char) :
    lineEnd? (c :: rest) = none := lineEnd?_eq_none h.2.2.1 h.2.2.2 rest

/-- Either quote starts a word. -/
theorem startsWord_mark (mark : QuoteMark) : StartsWord mark.char := by
  cases mark <;> exact ⟨rfl, by decide, by decide, by decide⟩

/-- Leading spaces are skipped, however many there are. -/
theorem skipBlanks_spaces (n : Nat) (cs : List Char) :
    skipBlanks (List.replicate n ' ' ++ cs) = skipBlanks cs := by
  induction n with
  | zero => rfl
  | succ n ih => exact ih

/-- A word is as far as the lines are skipped. -/
theorem skipLines_word {c : Char} (h : StartsWord c) (n : Nat) {fuel : Nat} (hfuel : 0 < fuel)
    (rest : List Char) :
    skipLines fuel (List.replicate n ' ' ++ c :: rest) = some (c :: rest) := by
  obtain ⟨fuel, rfl⟩ := Nat.exists_eq_succ_of_ne_zero (Nat.ne_zero_of_lt hfuel)
  rw [skipLines, skipBlanks_spaces, h.skipBlanks]
  split
  · rename_i heq
    exact absurd (List.cons.inj heq).1 h.2.1
  · rw [h.lineEnd?]

/-! ### Values -/

/-- The text is read as a value, if no quote follows. -/
structure Reads (value : List Char) (v : Value) : Prop where
  startsWord : ∃ c rest, value = c :: rest ∧ StartsWord c
  value? : ∀ fuel depth rest, value.length < fuel → 0 < depth →
    (∀ mark : QuoteMark, rest.head? ≠ some mark.char) →
    value? fuel depth (value ++ rest) = some (v, rest)

/-- A text is printed in quotes of one kind or the other, and begins with one of them. -/
theorem exists_mark_stringChars (text : List Char) :
    ∃ (mark : QuoteMark) (tail : _), Printer.stringChars text = mark.char :: tail := by
  obtain ⟨mark, body, ⟨-, h⟩ | ⟨-, h⟩⟩ := Printer.stringChars_cases text
  · exact ⟨mark, _, h⟩
  · exact ⟨mark, _, h⟩

/-- A string is a word. -/
theorem exists_word_string (item : String) (rest : List Char) : ∃ c tail,
    Printer.stringChars item.toList ++ rest = c :: tail ∧ StartsWord c ∧ c ≠ ']' := by
  obtain ⟨mark, tail, htail⟩ := exists_mark_stringChars item.toList
  refine ⟨mark.char, tail ++ rest, by rw [htail, List.cons_append], startsWord_mark mark, ?_⟩
  cases mark <;> decide

/-- Whatever begins with another character begins with neither quote. -/
theorem head?_ne_mark {c : Char} (hdouble : c ≠ '"') (hsingle : c ≠ '\'') (rest : List Char)
    (mark : QuoteMark) : (c :: rest).head? ≠ some mark.char := by
  rw [List.head?_cons]
  cases mark with
  | basic => exact fun h => hdouble (Option.some.inj h)
  | literal => exact fun h => hsingle (Option.some.inj h)

/-- **A printed text is read back** by the reader of values, unless a quote follows: the reader of
texts would take that for one of three. -/
theorem value?_string (fuel depth : Nat) (text : String) {rest : List Char}
    (hrest : ∀ mark : QuoteMark, rest.head? ≠ some mark.char) :
    value? (fuel + 1) depth (Printer.stringChars text.toList ++ rest) =
      some (.string text, rest) := by
  have hread := string?_stringChars text hrest
  obtain ⟨mark, tail, htail⟩ := exists_mark_stringChars text.toList
  rw [htail, List.cons_append] at hread ⊢
  have hmark : mark.char = '"' ∨ mark.char = '\'' := by cases mark <;> simp [QuoteMark.char]
  rw [value?.eq_def]
  dsimp only
  rw [if_pos hmark, hread]
  rfl

/-- **A string is read as itself,** in whichever of the forms it was written. -/
theorem reads_string (text : String) : Reads (Printer.string text).toList (.string text) := by
  rw [Printer.string, String.toList_ofList]
  refine ⟨?_, fun fuel depth rest hfuel _ hrest => ?_⟩
  · obtain ⟨mark, tail, htail⟩ := exists_mark_stringChars text.toList
    exact ⟨_, _, htail, startsWord_mark mark⟩
  · obtain ⟨fuel, rfl⟩ := Nat.exists_eq_succ_of_ne_zero (Nat.ne_zero_of_lt hfuel)
    exact value?_string fuel depth text hrest

section Items

variable {fuel depth : Nat} {cs cs' rest more : List Char} {c : Char} {v : Value}

/-- Behind the last item, where the bracket closes, there are no more items. -/
theorem items?_close (hskip : skipLines cs.length cs = some (']' :: rest)) :
    items? (fuel + 1) depth cs = some ([], rest) := by
  rw [items?, hskip]
  rfl

/-- An item is the last one when the bracket closes behind it. -/
theorem items?_last (hskip : skipLines cs.length cs = some (c :: cs')) (hc : c ≠ ']')
    (hvalue : value? fuel depth (c :: cs') = some (v, rest))
    (hclose : skipLines rest.length rest = some (']' :: more)) :
    items? (fuel + 1) depth cs = some ([v], more) := by
  rw [items?, hskip]
  split
  · rename_i heq
    exact absurd heq (by simp)
  · rename_i heq
    exact absurd (List.cons.inj (Option.some.inj heq)).1 hc
  · rename_i heq
    rw [← Option.some.inj heq, hvalue]
    dsimp only
    rw [hclose]
    rfl

/-- When a comma is behind an item, the others are read from there. -/
theorem items?_more (hskip : skipLines cs.length cs = some (c :: cs')) (hc : c ≠ ']')
    (hvalue : value? fuel depth (c :: cs') = some (v, rest))
    (hcomma : skipLines rest.length rest = some (',' :: more)) :
    items? (fuel + 1) depth cs =
      (items? fuel depth more).map fun (vs, rest) => (v :: vs, rest) := by
  rw [items?, hskip]
  split
  · rename_i heq
    exact absurd heq (by simp)
  · rename_i heq
    exact absurd (List.cons.inj (Option.some.inj heq)).1 hc
  · rename_i heq
    rw [← Option.some.inj heq, hvalue]
    dsimp only
    rw [hcomma]
    rfl

/-- Items in brackets are read as an array. -/
theorem value?_array {vs : List Value} (h : items? fuel depth cs = some (vs, rest)) :
    value? (fuel + 1) (depth + 1) ('[' :: cs) = some (.array vs, rest) := by
  rw [value?.eq_def]
  dsimp only
  rw [if_neg (by decide), if_pos rfl, h]
  rfl

end Items

/-- A closing bracket starts a word. -/
theorem startsWord_bracket : StartsWord ']' := ⟨rfl, by decide, by decide, by decide⟩

/-- A comma starts a word. -/
theorem startsWord_comma : StartsWord ',' := ⟨rfl, by decide, by decide, by decide⟩

/-- An item on a line of its own. -/
def itemLine (item : String) : List Char :=
  List.replicate 4 ' ' ++ (Printer.stringChars item.toList ++ [',', '\n'])

/-- Items on lines of their own are read one by one. -/
theorem items?_lines (items : List String) {fuel : Nat} (depth : Nat) (rest : List Char)
    (hfuel : items.length < fuel) :
    items? fuel depth ('\n' :: (items.flatMap itemLine ++ ']' :: rest)) =
      some (items.map .string, rest) := by
  induction items generalizing fuel with
  | nil =>
      obtain ⟨fuel, rfl⟩ := Nat.exists_eq_succ_of_ne_zero (Nat.ne_zero_of_lt hfuel)
      exact items?_close (skipLines_word startsWord_bracket 0 (by simp) rest)
  | cons item items ih =>
      obtain ⟨fuel, rfl⟩ := Nat.exists_eq_succ_of_ne_zero (Nat.ne_zero_of_lt hfuel)
      have hrest := ih (by simpa using hfuel)
      -- the line end behind an item's comma is what the other items start with
      generalize hmore : '\n' :: (items.flatMap itemLine ++ ']' :: rest) = more at hrest
      have hline : '\n' :: ((item :: items).flatMap itemLine ++ ']' :: rest) =
          '\n' :: (List.replicate 4 ' ' ++ (Printer.stringChars item.toList ++ ',' :: more)) := by
        simp [← hmore, itemLine]
      obtain ⟨fuel, rfl⟩ : ∃ n, fuel = n + 1 :=
        Nat.exists_eq_succ_of_ne_zero (by simp at hfuel; omega)
      have hvalue := value?_string fuel depth item
        (head?_ne_mark (c := ',') (by decide) (by decide) more)
      obtain ⟨c, tail, htail, hword, hc⟩ := exists_word_string item (',' :: more)
      rw [htail] at hvalue
      have hskip : skipLines ('\n' :: (List.replicate 4 ' ' ++ c :: tail)).length
          ('\n' :: (List.replicate 4 ' ' ++ c :: tail)) = some (c :: tail) :=
        skipLines_word hword 4 (by simp) tail
      rw [hline, htail, items?_more hskip hc hvalue
        (skipLines_word startsWord_comma 0 (by simp) more), hrest]
      rfl

/-- The lines of items are at least as many characters as there are items. This bounds the fuel that
reading them takes. -/
theorem length_le_flatMap_itemLine (items : List String) :
    items.length ≤ (items.flatMap itemLine).length := by
  induction items with
  | nil => exact Nat.le_refl 0
  | cons item items ih =>
      rw [List.flatMap_cons, List.length_append, List.length_cons, itemLine, List.length_append,
        List.length_replicate]
      omega

/-- An array of two or more items is printed with each of them on a line of its own. -/
theorem toList_array (first second : String) (items : List String) :
    (Printer.array (first :: second :: items)).toList =
      '[' :: '\n' :: ((first :: second :: items).flatMap itemLine ++ [']']) := by
  have hline (item : String) : ("    " ++ Printer.string item ++ ",\n").toList = itemLine item := by
    simp [Printer.string, itemLine]
  have hlines : (String.join ((first :: second :: items).map fun item =>
      "    " ++ Printer.string item ++ ",\n")).toList =
        (first :: second :: items).flatMap itemLine := by
    rw [String.toList_join, List.flatMap_map]
    simp only [hline]
  have harray : Printer.array (first :: second :: items) = "[\n" ++ String.join
      ((first :: second :: items).map fun item => "    " ++ Printer.string item ++ ",\n") ++ "]" :=
    rfl
  rw [harray, String.toList_append, String.toList_append, hlines]
  rfl

/-- **An array of strings is read as itself,** on one line or with a line for each item. -/
theorem reads_array (items : List String) :
    Reads (Printer.array items).toList (.array (items.map .string)) := by
  have hstart : StartsWord '[' := ⟨rfl, by decide, by decide, by decide⟩
  match items with
  | [] =>
      refine ⟨⟨'[', [']'], rfl, hstart⟩, fun fuel depth rest hfuel hdepth hrest => ?_⟩
      obtain ⟨depth, rfl⟩ := Nat.exists_eq_succ_of_ne_zero (Nat.ne_zero_of_lt hdepth)
      have hlength : 2 ≤ fuel := Nat.le_of_lt hfuel
      obtain ⟨fuel, rfl⟩ := Nat.exists_eq_add_of_le' hlength
      have hskip : skipLines (']' :: rest).length (']' :: rest) = some (']' :: rest) :=
        skipLines_word startsWord_bracket 0 (by simp) rest
      exact value?_array (items?_close hskip)
  | [item] =>
      have hchars : (Printer.array [item]).toList =
          '[' :: (Printer.stringChars item.toList ++ [']']) := by
        simp [Printer.array, Printer.string]
      rw [hchars]
      refine ⟨⟨_, _, rfl, hstart⟩, fun fuel depth rest hfuel hdepth hrest => ?_⟩
      obtain ⟨depth, rfl⟩ := Nat.exists_eq_succ_of_ne_zero (Nat.ne_zero_of_lt hdepth)
      have hlength : 3 ≤ fuel := by
        obtain ⟨mark, tail, htail⟩ := exists_mark_stringChars item.toList
        rw [htail] at hfuel
        simp only [List.length_cons, List.length_append, List.length_nil] at hfuel
        omega
      obtain ⟨fuel, rfl⟩ := Nat.exists_eq_add_of_le' hlength
      have hvalue := value?_string fuel depth item
        (head?_ne_mark (c := ']') (by decide) (by decide) rest)
      obtain ⟨c, tail, htail, hword, hc⟩ := exists_word_string item (']' :: rest)
      have hskip : skipLines (c :: tail).length (c :: tail) = some (c :: tail) :=
        skipLines_word hword 0 (by simp) tail
      have hclose : skipLines (']' :: rest).length (']' :: rest) = some (']' :: rest) :=
        skipLines_word startsWord_bracket 0 (by simp) rest
      rw [htail] at hvalue
      rw [List.cons_append, List.append_assoc, List.singleton_append, htail]
      exact value?_array (items?_last hskip hc hvalue hclose)
  | first :: second :: items =>
      rw [toList_array]
      refine ⟨⟨_, _, rfl, hstart⟩, fun fuel depth rest hfuel hdepth hrest => ?_⟩
      obtain ⟨depth, rfl⟩ := Nat.exists_eq_succ_of_ne_zero (Nat.ne_zero_of_lt hdepth)
      obtain ⟨fuel, rfl⟩ := Nat.exists_eq_succ_of_ne_zero (Nat.ne_zero_of_lt hfuel)
      have hcount : (first :: second :: items).length < fuel := by
        have hlines := length_le_flatMap_itemLine (first :: second :: items)
        simp only [List.length_cons, List.length_append] at hfuel hlines ⊢
        omega
      have hread := items?_lines (first :: second :: items) depth rest hcount
      rw [List.cons_append, List.cons_append, List.append_assoc, List.singleton_append]
      exact value?_array hread

/-! ### Statements -/

/-- A key that needs no quotes. -/
structure IsBareKey (name : String) : Prop where
  ne_nil : name.toList ≠ []
  bare : ∀ c ∈ name.toList, isBare c = true

/-- A character of bare keys is different from one that is none. -/
theorem ne_of_isBare {c d : Char} (hc : isBare c = true) (hd : isBare d = false) : c ≠ d := by
  rintro rfl
  exact absurd (hc.symm.trans hd) (by simp)

/-- Every character of bare keys starts a word. -/
theorem startsWord_of_isBare {c : Char} (h : isBare c = true) : StartsWord c := by
  refine ⟨?_, ne_of_isBare h (by decide), ne_of_isBare h (by decide), ne_of_isBare h (by decide)⟩
  have hspace : c ≠ ' ' := ne_of_isBare h (by decide)
  have htab : c ≠ '\t' := ne_of_isBare h (by decide)
  simp [isBlank, hspace, htab]

/-- A bare key has a first character, of those that such keys are made of. -/
theorem IsBareKey.exists_cons {name : String} (h : IsBareKey name) :
    ∃ c rest, name.toList = c :: rest ∧ isBare c = true := by
  obtain ⟨c, rest, hname⟩ := List.exists_cons_of_ne_nil h.ne_nil
  exact ⟨c, rest, hname, h.bare c (hname ▸ List.mem_cons_self)⟩

/-- A line with a bare key in front does not begin with any character that such keys are not made
of. -/
theorem IsBareKey.append_ne_cons {name : String} (h : IsBareKey name) {d : Char}
    (hd : isBare d = false) (rest more : List Char) : name.toList ++ rest ≠ d :: more := by
  obtain ⟨c, tail, hname, hc⟩ := h.exists_cons
  rw [hname]
  exact fun heq => ne_of_isBare hc hd (List.cons.inj heq).1

/-- A bare key is read as it is, up to the first character that it cannot have. -/
theorem simpleKey?_bare {name : String} (h : IsBareKey name) {c : Char} (hc : isBare c = false)
    (rest : List Char) : simpleKey? (name.toList ++ c :: rest) = some (name, c :: rest) := by
  have hword : (name.toList ++ c :: rest).takeWhile isBare = name.toList := by
    rw [List.takeWhile_append_of_pos h.bare, List.takeWhile_cons_of_neg (by simp [hc]),
      List.append_nil]
  have hnonempty : ¬ name.toList.isEmpty := by simpa using h.ne_nil
  rw [simpleKey?]
  · rw [hword, if_neg hnonempty, List.drop_left, String.ofList_toList]
  · exact h.append_ne_cons (by decide) _
  · exact h.append_ne_cons (by decide) _

/-- A key without quotes is read up to the first character that is not bare. -/
theorem dottedKey?_bare {name : String} (h : IsBareKey name) {c : Char} (hc : isBare c = false)
    {rest : List Char} (hdot : ∀ more, skipBlanks (c :: rest) ≠ '.' :: more) :
    dottedKey? (name.toList ++ c :: rest) = some ([name], skipBlanks (c :: rest)) := by
  have hskip : skipBlanks (name.toList ++ c :: rest) = name.toList ++ c :: rest := by
    obtain ⟨first, tail, hname, hfirst⟩ := h.exists_cons
    rw [hname]
    exact (startsWord_of_isBare hfirst).skipBlanks _
  rw [dottedKey?, maxKeys, keys?, hskip, simpleKey?_bare h hc]
  dsimp only [Option.bind_eq_bind, Option.bind_some]
  split
  · rename_i heq
    exact absurd heq (hdot _)
  · rfl

/-- **A header is read as what it says:** the name of a table, up to the end of the line. -/
theorem statement?_header {name : String} (h : IsBareKey name) (rest : List Char) :
    statement? ('[' :: (name.toList ++ ']' :: '\n' :: rest)) = some (.openTable [name], rest) := by
  have hkey : dottedKey? (name.toList ++ ']' :: '\n' :: rest) =
      some ([name], ']' :: '\n' :: rest) :=
    dottedKey?_bare h (by decide) fun more heq => absurd (List.cons.inj heq).1 (by decide)
  rw [statement?]
  · rw [hkey]
    rfl
  · exact h.append_ne_cons (by decide) _

/-- **An assignment is read as what it says:** a bare key, and a value that is read as itself. -/
theorem statement?_assignment {name : String} {value : List Char} {v : Value} (h : IsBareKey name)
    (hvalue : Reads value v) (rest : List Char) :
    statement? (name.toList ++ ' ' :: '=' :: ' ' :: (value ++ '\n' :: rest)) =
      some (.assign [name] v, rest) := by
  have hkey : dottedKey? (name.toList ++ ' ' :: '=' :: ' ' :: (value ++ '\n' :: rest)) =
      some ([name], '=' :: ' ' :: (value ++ '\n' :: rest)) :=
    dottedKey?_bare h (by decide) fun more heq => absurd (List.cons.inj heq).1 (by decide)
  have hskip : skipBlanks (' ' :: (value ++ '\n' :: rest)) = value ++ '\n' :: rest := by
    obtain ⟨c, tail, rfl, hc⟩ := hvalue.startsWord
    exact hc.skipBlanks _
  have hread := hvalue.value? (2 * (value ++ '\n' :: rest).length + 2) maxDepth ('\n' :: rest)
    (by rw [List.length_append]; omega) (by decide)
    (head?_ne_mark (by decide) (by decide) rest)
  have hopen (more : List Char) : name.toList ++ ' ' :: '=' :: ' ' :: (value ++ '\n' :: rest) ≠
      '[' :: more := h.append_ne_cons (by decide) _ more
  rw [statement?]
  · rw [hkey]
    change (value? (2 * (skipBlanks (' ' :: (value ++ '\n' :: rest))).length + 2) maxDepth
      (skipBlanks (' ' :: (value ++ '\n' :: rest)))).bind _ = _
    rw [hskip, hread]
    rfl
  · exact fun more => hopen ('[' :: more)
  · exact hopen

/-- **The text says these statements,** one after the other. -/
def Says (cs : List Char) (statements : List Statement) : Prop :=
  ∀ fuel, cs.length < fuel → statements? fuel cs = some statements

/-- The empty text says nothing. -/
theorem says_nil : Says [] [] := by
  intro fuel hfuel
  obtain ⟨fuel, rfl⟩ := Nat.exists_eq_succ_of_ne_zero (Nat.ne_zero_of_lt hfuel)
  rfl

/-- An empty line says nothing. -/
theorem Says.newline {cs : List Char} {statements : List Statement} (h : Says cs statements) :
    Says ('\n' :: cs) statements := by
  intro fuel hfuel
  obtain ⟨fuel, rfl⟩ := Nat.exists_eq_succ_of_ne_zero (Nat.ne_zero_of_lt hfuel)
  exact h fuel (by simpa using hfuel)

/-- A line says its statement. -/
theorem Says.cons {cs rest : List Char} {c : Char} {statement : Statement}
    {statements : List Statement} (hc : StartsWord c)
    (hstatement : statement? (c :: cs) = some (statement, rest)) (hlength : rest.length ≤ cs.length)
    (h : Says rest statements) : Says (c :: cs) (statement :: statements) := by
  intro fuel hfuel
  obtain ⟨fuel, rfl⟩ := Nat.exists_eq_succ_of_ne_zero (Nat.ne_zero_of_lt hfuel)
  rw [List.length_cons] at hfuel
  rw [statements?, hc.skipBlanks]
  split
  · rename_i heq
    exact absurd heq (by simp)
  · rename_i heq
    exact absurd (List.cons.inj heq).1 hc.2.1
  · rw [hc.lineEnd?]
    dsimp only
    rw [hstatement]
    change ((statements? fuel rest).bind _) = _
    rw [h fuel (by omega)]
    rfl

/-- A line with a name in brackets opens the table of that name, and the lines behind it say the
rest. -/
theorem Says.header {name : String} (hname : IsBareKey name) {cs : List Char}
    {statements : List Statement} (h : Says cs statements) :
    Says ('[' :: (name.toList ++ ']' :: '\n' :: cs)) (.openTable [name] :: statements) :=
  h.cons ⟨rfl, by decide, by decide, by decide⟩ (statement?_header hname cs)
    (by rw [List.length_append]; simp; omega)

/-- A line with a key and a value assigns that value, and the lines behind it say the rest. -/
theorem Says.assignment {name : String} {value : List Char} {v : Value} (hname : IsBareKey name)
    (hvalue : Reads value v) {cs : List Char} {statements : List Statement}
    (h : Says cs statements) :
    Says (name.toList ++ ' ' :: '=' :: ' ' :: (value ++ '\n' :: cs))
      (.assign [name] v :: statements) := by
  have hstatement := statement?_assignment hname hvalue cs
  obtain ⟨first, tail, heq, hfirst⟩ := hname.exists_cons
  rw [heq, List.cons_append] at hstatement ⊢
  refine h.cons (startsWord_of_isBare hfirst) hstatement ?_
  simp only [List.length_append, List.length_cons]
  omega

end Toml
end ProcessKit
