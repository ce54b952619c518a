/-
# What is written is read back

The reader undoes the printer, for values without numbers that are not nested too deep for the
reader (`Json.Fits`). It does so up to the order of the members of an object: the printer keeps the
order it is given, and the reader puts them in the order of their names (`Json.arranged`). A string
comes back character by character, whatever is escaped in it (`readString_escaped`). `ReadsBack` is
the invariant: it is carried from one amount of fuel to the next by one lemma for each of the three
readers, and the fuel that the reader starts with is enough (`parse_pretty`).

The text is cut where the readers hand over to each other: a value with something behind it, the
items of an array from one of them on, the members of an object from a name on. `afterItem` and
`afterMember` are the text between an item and the next one, or the bracket that closes. A printed
value never begins with a blank or with a bracket that closes (`Begins`), so that the reader takes
each part for what it is.

Numbers are left out because the values that this is needed for have none, and what is written for a
number is another matter altogether. The fuel is measured by the length of the text: twice as much
is enough, since a reader that goes on without a character in between calls only one that takes the
next one.
-/

import ProcessKit.Json.Printer
import ProcessKit.Json.Reader
import ProcessKit.Proofs.Json.Members

namespace ProcessKit
namespace Json

/-! ### Strings -/

/-- A hexadecimal digit is read as the number that it was written for. -/
theorem hexValue?_hexDigit : ∀ n < 16, hexValue? (hexDigit n) = some n := by decide

/-- The escape of a control character by its number. -/
theorem readUnicodeEscape_hexDigits {c : Char} (h : c.toNat < 0x20) (rest : List Char) :
    readUnicodeEscape ('0' :: '0' :: hexDigit (c.toNat / 16) :: hexDigit (c.toNat % 16) :: rest) =
      .ok (c, rest) := by
  have hhigh := hexValue?_hexDigit (c.toNat / 16) (by omega)
  have hlow := hexValue?_hexDigit (c.toNat % 16) (by omega)
  have hzero : hexValue? '0' = some 0 := rfl
  have hnumber : ((0 * 16 + 0) * 16 + c.toNat / 16) * 16 + c.toNat % 16 = c.toNat := by omega
  have hread : readHex ('0' :: '0' :: hexDigit (c.toNat / 16) :: hexDigit (c.toNat % 16) :: rest) =
      .ok (c.toNat, rest) := by
    rw [readHex, hzero, hhigh, hlow]
    dsimp only
    rw [hnumber]
  rw [readUnicodeEscape, hread]
  change (if _ then _ else if _ then _ else _ : Except Fault (Char × List Char)) = _
  rw [if_neg (by omega), if_pos (by omega), Char.ofNat_toNat]

/-- **What is between the quotes** for one character: the character itself, or an escape of it. -/
theorem escapeChar_cases (c : Char) :
    (escapeChar c = [c] ∧ c ≠ '"' ∧ c ≠ '\\' ∧ ¬ c.toNat < 0x20) ∨
      ∃ e, escapeChar c = '\\' :: e ∧ ∀ rest, readEscape (e ++ rest) = .ok (c, rest) := by
  unfold escapeChar
  by_cases hquote : c = '"'
  · subst hquote
    exact Or.inr ⟨_, rfl, fun _ => rfl⟩
  by_cases hslash : c = '\\'
  · subst hslash
    exact Or.inr ⟨_, rfl, fun _ => rfl⟩
  by_cases hb : c = '\x08'
  · subst hb
    exact Or.inr ⟨_, rfl, fun _ => rfl⟩
  by_cases ht : c = '\t'
  · subst ht
    exact Or.inr ⟨_, rfl, fun _ => rfl⟩
  by_cases hn : c = '\n'
  · subst hn
    exact Or.inr ⟨_, rfl, fun _ => rfl⟩
  by_cases hf : c = '\x0c'
  · subst hf
    exact Or.inr ⟨_, rfl, fun _ => rfl⟩
  by_cases hr : c = '\r'
  · subst hr
    exact Or.inr ⟨_, rfl, fun _ => rfl⟩
  rw [if_neg hquote, if_neg hslash, if_neg hb, if_neg ht, if_neg hn, if_neg hf, if_neg hr]
  by_cases hcontrol : c.toNat < 0x20
  · rw [if_pos hcontrol]
    exact Or.inr ⟨_, rfl, readUnicodeEscape_hexDigits hcontrol⟩
  · rw [if_neg hcontrol]
    exact Or.inl ⟨rfl, hquote, hslash, hcontrol⟩

/-- Escaping makes a text no shorter. This bounds the fuel that reading it takes. -/
theorem length_le_flatMap_escapeChar (cs : List Char) :
    cs.length ≤ (cs.flatMap escapeChar).length := by
  induction cs with
  | nil => simp
  | cons c cs ih =>
      have hone : 1 ≤ (escapeChar c).length := by
        obtain ⟨hc, -⟩ | ⟨e, he, -⟩ := escapeChar_cases c
        · simp [hc]
        · simp [he]
      rw [List.flatMap_cons, List.length_append, List.length_cons]
      omega

/-- Each character takes one step of the reader, whether it is escaped or not. -/
theorem readChars_escaped {fuel : Nat} {cs : List Char} (h : cs.length < fuel) (rest : List Char) :
    readChars fuel (cs.flatMap escapeChar ++ '"' :: rest) = .ok (cs, rest) := by
  induction fuel generalizing cs with
  | zero => omega
  | succ fuel ih =>
      cases cs with
      | nil => rfl
      | cons c cs =>
          have hrest := @ih cs (by simpa using h)
          rw [List.flatMap_cons, List.append_assoc]
          obtain ⟨hc, hquote, hslash, hcontrol⟩ | ⟨e, he, hescape⟩ := escapeChar_cases c
          · rw [hc, List.singleton_append, readChars, if_neg hquote, if_neg hslash,
              if_neg hcontrol, hrest]
            rfl
          · rw [he, List.cons_append, readChars, if_neg (by decide), if_pos rfl, hescape]
            change (readChars fuel _ >>= _) = _
            rw [hrest]
            rfl

/-- **A string comes back** as it was, from behind its opening quote: by induction on its
characters, each written for itself or as an escape. -/
theorem readString_escaped (s : String) (rest : List Char) :
    readString (s.toList.flatMap escapeChar ++ '"' :: rest) = .ok (s, rest) := by
  have hfuel : s.toList.length < (s.toList.flatMap escapeChar ++ '"' :: rest).length + 1 := by
    have := length_le_flatMap_escapeChar s.toList
    rw [List.length_append]
    omega
  rw [readString, readChars_escaped hfuel]
  change Except.ok (String.ofList s.toList, rest) = _
  rw [String.ofList_toList]

/-! ### White space -/

/-- Leading spaces are skipped, however many there are. -/
theorem skipBlanks_spaces (n : Nat) (cs : List Char) :
    skipBlanks (List.replicate n ' ' ++ cs) = skipBlanks cs := by
  induction n with
  | zero => rfl
  | succ n ih => exact ih

/-- A line break is skipped with the indentation behind it. -/
theorem skipBlanks_newline (level : Nat) (cs : List Char) :
    skipBlanks (newline level ++ cs) = skipBlanks cs := skipBlanks_spaces (2 * level) cs

/-- The text goes on with something that is no white space and ends nothing. -/
def Begins (cs : List Char) : Prop :=
  ∃ c rest, cs = c :: rest ∧ c ∉ [' ', '\n', '\t', '\r', ']', '}', ',']

/-- Before the beginning of a value there is nothing to skip. -/
theorem Begins.skipBlanks {cs : List Char} (h : Begins cs) : skipBlanks cs = cs := by
  obtain ⟨c, rest, rfl, hc⟩ := h
  rw [Json.skipBlanks, if_neg]
  rintro (rfl | rfl | rfl | rfl) <;> simp at hc

/-- A value does not begin with a blank, a closing bracket or a comma. The reader tells it from
these by its first character. -/
theorem Begins.ne {c : Char} {cs : List Char} (h : Begins cs)
    (hc : c ∈ [' ', '\n', '\t', '\r', ']', '}', ',']) (rest : List Char) : cs ≠ c :: rest := by
  rintro rfl
  obtain ⟨d, ds, heq, hd⟩ := h
  exact hd ((List.cons.inj heq).1 ▸ hc)

/-- A value is not empty. -/
theorem Begins.ne_nil {cs : List Char} (h : Begins cs) : cs ≠ [] := by
  obtain ⟨c, rest, rfl, -⟩ := h
  exact List.cons_ne_nil c rest

/-- What begins a value begins it whatever comes behind. -/
theorem Begins.append {cs : List Char} (h : Begins cs) (rest : List Char) :
    Begins (cs ++ rest) := by
  obtain ⟨c, cs, rfl, hc⟩ := h
  exact ⟨c, cs ++ rest, rfl, hc⟩

/-! ### Values -/

mutual

/-- The value with the members of every object in the order of their names. Of several members with
one name the last one counts. -/
def arranged : Json → Json
  | .array items => .array (arrangedItems items)
  | .object members => ofMembers (arrangedMembers members)
  | v => v

/-- Every item arranged. -/
def arrangedItems : List Json → List Json
  | [] => []
  | v :: rest => arranged v :: arrangedItems rest

/-- Every member's value arranged. -/
def arrangedMembers : List (String × Json) → List (String × Json)
  | [] => []
  | (name, v) :: rest => (name, arranged v) :: arrangedMembers rest

end

/-- Arranging an array arranges its items one by one. -/
theorem arrangedItems_eq (items : List Json) : arrangedItems items = items.map arranged := by
  induction items with
  | nil => rfl
  | cons v items ih => exact congrArg _ ih

/-- Arranging an object arranges the values of its members one by one, before they are put into
order. -/
theorem arrangedMembers_eq (members : Members) :
    arrangedMembers members = members.map fun (name, v) => (name, arranged v) := by
  induction members with
  | nil => rfl
  | cons member members ih => exact congrArg _ ih

/-- **Arranging** leaves every member under its name. So a decoder that goes by names reads the same
before and after. -/
theorem get?_ofList_arrangedMembers {members : Members} (h : members.Distinct) (name : String) :
    Members.get? (Members.ofList (arrangedMembers members)) name =
      (Members.get? members name).map arranged := by
  have hnames : (arrangedMembers members).map (·.1) = members.map (·.1) := by
    rw [arrangedMembers_eq, List.map_map]
    rfl
  have hdistinct : Members.Distinct (arrangedMembers members) := by
    rw [Members.Distinct, hnames]
    exact h
  rw [Members.get?_ofList_of_distinct hdistinct]
  clear hnames hdistinct h
  induction members with
  | nil => rfl
  | cons member members ih =>
      obtain ⟨n, v⟩ := member
      rw [arrangedMembers, Members.get?_cons, Members.get?_cons]
      split_ifs with hn
      · rfl
      · exact ih

mutual

/-- There are no numbers in the value, and it nests less than `depth` levels. -/
def Fits (depth : Nat) : Json → Prop
  | .number _ => False
  | .array items => 1 < depth ∧ AllFit (depth - 1) items
  | .object members => 1 < depth ∧ MembersFit (depth - 1) members
  | _ => True

/-- Every item fits. -/
def AllFit (depth : Nat) : List Json → Prop
  | [] => True
  | v :: rest => Fits depth v ∧ AllFit depth rest

/-- Every member's value fits. -/
def MembersFit (depth : Nat) : List (String × Json) → Prop
  | [] => True
  | (_, v) :: rest => Fits depth v ∧ MembersFit depth rest

end

variable {fuel depth level : Nat} {cs rest : List Char} {v : Json} {items : List Json}
  {members before : Members}

/-- Items fit when each of them does. -/
theorem allFit_iff : AllFit depth items ↔ ∀ v ∈ items, v.Fits depth := by
  induction items with
  | nil => simp [AllFit]
  | cons v items ih => rw [AllFit, ih, List.forall_mem_cons]

/-- Members fit when each of their values does. -/
theorem membersFit_iff : MembersFit depth members ↔ ∀ member ∈ members, member.2.Fits depth := by
  induction members with
  | nil => simp [MembersFit]
  | cons member members ih => rw [MembersFit, ih, List.forall_mem_cons]

/-- **Every value that fits is printed with a character that begins a value.** Numbers are the
reason for asking that it fits. -/
theorem begins_prettyChars (h : v.Fits depth) (level : Nat) : Begins (v.prettyChars level) := by
  cases v with
  | null => exact ⟨_, _, rfl, by decide⟩
  | bool b => cases b <;> exact ⟨_, _, rfl, by decide⟩
  | number n => exact h.elim
  | string s => exact ⟨_, _, rfl, by decide⟩
  | array items => cases items <;> exact ⟨_, _, rfl, by decide⟩
  | object members => cases members <;> exact ⟨_, _, rfl, by decide⟩

/-- The name of a member, and its value with everything behind it. -/
def named (name : String) (cs : List Char) : List Char :=
  '"' :: (name.toList.flatMap escapeChar ++ '"' :: ':' :: ' ' :: cs)

/-- A member is printed with the quote of its name in front. -/
theorem begins_named (name : String) (cs : List Char) : Begins (named name cs) :=
  ⟨_, _, rfl, by decide⟩

/-- What comes behind a member comes behind its value. -/
theorem named_append (name : String) (cs rest : List Char) :
    named name cs ++ rest = named name (cs ++ rest) := by simp [named]

/-- What follows an item: nothing, or a comma and the other items. -/
def afterItem (level : Nat) : List Json → List Char
  | [] => []
  | v :: rest => ',' :: prettyItems level (v :: rest)

/-- What follows a member: nothing, or a comma and the other members. -/
def afterMember (level : Nat) : Members → List Char
  | [] => []
  | member :: rest => ',' :: prettyMembers level (member :: rest)

/-- Items are printed on lines of their own, with what comes after an item in between. -/
theorem prettyItems_cons (level : Nat) (v : Json) (items : List Json) :
    prettyItems level (v :: items) =
      newline level ++ (v.prettyChars level ++ afterItem level items) := by
  cases items with
  | nil => rw [afterItem, List.append_nil]; rfl
  | cons w items => rw [afterItem, ← List.append_assoc]; rfl

/-- Members are printed on lines of their own, with what comes after a member in between. -/
theorem prettyMembers_cons (level : Nat) (name : String) (v : Json) (members : Members) :
    prettyMembers level ((name, v) :: members) =
      newline level ++ named name (v.prettyChars level ++ afterMember level members) := by
  cases members with
  | nil => simp [prettyMembers, quote, named, afterMember]
  | cons member members => simp [prettyMembers, quote, named, afterMember]

/-- Past white space the items begin with the first of them. -/
theorem skipBlanks_prettyItems (h : v.Fits depth) (level : Nat) (items : List Json)
    (rest : List Char) :
    skipBlanks (prettyItems level (v :: items) ++ rest) =
      v.prettyChars level ++ (afterItem level items ++ rest) := by
  rw [prettyItems_cons, List.append_assoc, List.append_assoc, skipBlanks_newline]
  exact ((begins_prettyChars h level).append _).skipBlanks

/-- Past white space the members begin with the first name. -/
theorem skipBlanks_prettyMembers (level : Nat) (name : String) (v : Json) (members : Members)
    (rest : List Char) :
    skipBlanks (prettyMembers level ((name, v) :: members) ++ rest) =
      named name (v.prettyChars level ++ (afterMember level members ++ rest)) := by
  rw [prettyMembers_cons, List.append_assoc, skipBlanks_newline, named_append, List.append_assoc]
  exact (begins_named name _).skipBlanks

/-! ### The readers, once the next character is known -/

/-- Behind a quote a text is read. -/
theorem readValue_string (cs : List Char) :
    readValue (fuel + 1) depth ('"' :: cs) =
      (readString cs).map fun (s, rest) => (.string s, rest) := rfl

/-- A blank before a value is skipped. -/
theorem readValue_blank (cs : List Char) :
    readValue (fuel + 1) depth (' ' :: cs) = readValue (fuel + 1) depth cs := by
  rw [readValue, readValue]
  rfl

/-- Brackets with nothing in between are read as the empty array. -/
theorem readValue_emptyArray (hdepth : 1 < depth) (rest : List Char) :
    readValue (fuel + 1) depth ('[' :: ']' :: rest) = .ok (.array [], rest) := by
  have hbracket : skipBlanks ('[' :: ']' :: rest) = '[' :: ']' :: rest := rfl
  have hclosing : skipBlanks (']' :: rest) = ']' :: rest := rfl
  rw [readValue, hbracket]
  dsimp only
  rw [if_pos rfl, if_neg (by omega), hclosing]
  rfl

/-- Braces with nothing in between are read as the empty object. -/
theorem readValue_emptyObject (hdepth : 1 < depth) (rest : List Char) :
    readValue (fuel + 1) depth ('{' :: '}' :: rest) = .ok (.object [], rest) := by
  have hbrace : skipBlanks ('{' :: '}' :: rest) = '{' :: '}' :: rest := rfl
  have hclosing : skipBlanks ('}' :: rest) = '}' :: rest := rfl
  rw [readValue, hbrace]
  dsimp only
  rw [if_neg (by decide), if_pos rfl, if_neg (by omega), hclosing]
  rfl

/-- Behind a bracket items are read, once the first of them begins. -/
theorem readValue_array (hdepth : 1 < depth) {cs next : List Char} (hcs : skipBlanks cs = next)
    (hnext : Begins next) :
    readValue (fuel + 1) depth ('[' :: cs) =
      (readItems fuel (depth - 1) next).map fun (items, rest) => (.array items, rest) := by
  have hbracket : skipBlanks ('[' :: cs) = '[' :: cs := rfl
  rw [readValue, hbracket]
  dsimp only
  rw [if_pos rfl, if_neg (by omega), hcs]
  split
  · exact absurd rfl (hnext.ne (by decide) _)
  · exact absurd rfl hnext.ne_nil
  · rfl

/-- Behind a brace members are read, once the first of them begins. -/
theorem readValue_object (hdepth : 1 < depth) {cs next : List Char} (hcs : skipBlanks cs = next)
    (hnext : Begins next) :
    readValue (fuel + 1) depth ('{' :: cs) =
      (readMembers fuel (depth - 1) [] next).map
        fun (members, rest) => (.object members, rest) := by
  have hbrace : skipBlanks ('{' :: cs) = '{' :: cs := rfl
  rw [readValue, hbrace]
  dsimp only
  rw [if_neg (by decide), if_pos rfl, if_neg (by omega), hcs]
  split
  · exact absurd rfl (hnext.ne (by decide) _)
  · exact absurd rfl hnext.ne_nil
  · rfl

/-- An item that is the last one. -/
theorem readItems_last {left : List Char} (hv : readValue fuel depth cs = .ok (v, left))
    (hleft : skipBlanks left = ']' :: rest) :
    readItems (fuel + 1) depth cs = .ok ([v], rest) := by
  rw [readItems, hv]
  dsimp only [bind, Except.bind]
  rw [hleft]
  rfl

/-- An item with others behind it. -/
theorem readItems_more {left next : List Char} (hv : readValue fuel depth cs = .ok (v, ',' :: left))
    (hleft : skipBlanks left = next) (hnext : Begins next) :
    readItems (fuel + 1) depth cs =
      (readItems fuel depth next).map fun (items, rest) => (v :: items, rest) := by
  have hcomma : skipBlanks (',' :: left) = ',' :: left := rfl
  rw [readItems, hv]
  dsimp only [bind, Except.bind]
  rw [hcomma]
  simp only
  rw [hleft]
  split
  · exact absurd rfl hnext.ne_nil
  · exact absurd rfl (hnext.ne (by decide) _)
  · cases readItems fuel depth next <;> rfl

/-- A member that is the last one. -/
theorem readMembers_last {name : String} {left : List Char}
    (hv : readValue fuel depth (' ' :: cs) = .ok (v, left))
    (hleft : skipBlanks left = '}' :: rest) :
    readMembers (fuel + 1) depth before (named name cs) = .ok (before.insert name v, rest) := by
  have hcolon : skipBlanks (':' :: ' ' :: cs) = ':' :: ' ' :: cs := rfl
  rw [named, readMembers, readString_escaped]
  dsimp only [bind, Except.bind]
  rw [hcolon]
  simp only
  rw [hv]
  dsimp only
  rw [hleft]
  rfl

/-- A member with others behind it. -/
theorem readMembers_more {name : String} {left next : List Char}
    (hv : readValue fuel depth (' ' :: cs) = .ok (v, ',' :: left))
    (hleft : skipBlanks left = next) (hnext : Begins next) :
    readMembers (fuel + 1) depth before (named name cs) =
      readMembers fuel depth (before.insert name v) next := by
  have hcolon : skipBlanks (':' :: ' ' :: cs) = ':' :: ' ' :: cs := rfl
  have hcomma : skipBlanks (',' :: left) = ',' :: left := rfl
  rw [named, readMembers, readString_escaped]
  dsimp only [bind, Except.bind]
  rw [hcolon]
  simp only
  rw [hv]
  dsimp only
  rw [hcomma]
  simp only
  rw [hleft]
  split
  · exact absurd rfl hnext.ne_nil
  · exact absurd rfl (hnext.ne (by decide) _)
  · rfl

/-! ### The whole reader -/

/-- **What is written is read back** with some fuel, if there is twice as much as the text is
long. -/
structure ReadsBack (fuel : Nat) : Prop where
  value : ∀ {v depth level rest}, Fits depth v → 2 * (v.prettyChars level).length < fuel →
    readValue fuel depth (v.prettyChars level ++ rest) = .ok (v.arranged, rest)
  items : ∀ {v items depth level l rest}, AllFit depth (v :: items) →
    2 * (prettyItems level (v :: items)).length ≤ fuel →
    readItems fuel depth
        (v.prettyChars level ++ (afterItem level items ++ (newline l ++ ']' :: rest))) =
      .ok (arrangedItems (v :: items), rest)
  members : ∀ {name v members before depth level l rest}, MembersFit depth ((name, v) :: members) →
    2 * (prettyMembers level ((name, v) :: members)).length ≤ fuel →
    readMembers fuel depth before (named name
        (v.prettyChars level ++ (afterMember level members ++ (newline l ++ '}' :: rest)))) =
      .ok ((arrangedMembers ((name, v) :: members)).foldl
        (fun members (name, v) => members.insert name v) before, rest)

/-- **A printed value is read back,** if what is inside it is with less fuel: one case for each kind
of value. -/
theorem ReadsBack.value_succ (ih : ReadsBack fuel) (hv : v.Fits depth)
    (hfuel : 2 * (v.prettyChars level).length < fuel + 1) :
    readValue (fuel + 1) depth (v.prettyChars level ++ rest) = .ok (v.arranged, rest) := by
  cases v with
  | null => rfl
  | bool b => cases b <;> rfl
  | number n => exact hv.elim
  | string s =>
      rw [prettyChars, quote, List.cons_append, List.cons_append, List.append_assoc]
      exact (readValue_string _).trans (by rw [List.singleton_append, readString_escaped]; rfl)
  | array items =>
      obtain ⟨hdepth, hitems⟩ := hv
      cases items with
      | nil => exact readValue_emptyArray hdepth rest
      | cons v items =>
          have hnext := skipBlanks_prettyItems hitems.1 (level + 1) items
            (newline level ++ ']' :: rest)
          have hbegins := (begins_prettyChars hitems.1 (level + 1)).append
            (afterItem (level + 1) items ++ (newline level ++ ']' :: rest))
          have hlength : (prettyChars level (.array (v :: items))).length =
              (prettyItems (level + 1) (v :: items)).length + (newline level).length + 2 := by
            simp [prettyChars]
            omega
          have htext : prettyChars level (.array (v :: items)) ++ rest =
              '[' :: (prettyItems (level + 1) (v :: items) ++ (newline level ++ ']' :: rest)) := by
            simp [prettyChars]
          rw [htext, readValue_array hdepth hnext hbegins, ih.items hitems (by omega)]
          rfl
  | object members =>
      obtain ⟨hdepth, hmembers⟩ := hv
      cases members with
      | nil => exact readValue_emptyObject hdepth rest
      | cons member members =>
          obtain ⟨name, v⟩ := member
          have hnext := skipBlanks_prettyMembers (level + 1) name v members
            (newline level ++ '}' :: rest)
          have hlength : (prettyChars level (.object ((name, v) :: members))).length =
              (prettyMembers (level + 1) ((name, v) :: members)).length +
                (newline level).length + 2 := by
            simp [prettyChars]
            omega
          have htext : prettyChars level (.object ((name, v) :: members)) ++ rest =
              '{' :: (prettyMembers (level + 1) ((name, v) :: members) ++
                (newline level ++ '}' :: rest)) := by
            simp [prettyChars]
          rw [htext, readValue_object hdepth hnext (begins_named ..),
            ih.members hmembers (by omega)]
          rfl

/-- **Printed items are read back:** the first one as a value, and the others, behind a comma, with
less fuel. -/
theorem ReadsBack.items_succ (ih : ReadsBack fuel) {l : Nat} (hitems : AllFit depth (v :: items))
    (hfuel : 2 * (prettyItems level (v :: items)).length ≤ fuel + 1) :
    readItems (fuel + 1) depth
        (v.prettyChars level ++ (afterItem level items ++ (newline l ++ ']' :: rest))) =
      .ok (arrangedItems (v :: items), rest) := by
  have hlength : (prettyItems level (v :: items)).length =
      (newline level).length + (v.prettyChars level).length + (afterItem level items).length := by
    rw [prettyItems_cons, List.length_append, List.length_append]
    omega
  have hnewline : 1 ≤ (newline level).length := by simp [newline]
  have hv : readValue fuel depth
      (v.prettyChars level ++ (afterItem level items ++ (newline l ++ ']' :: rest))) =
        .ok (v.arranged, afterItem level items ++ (newline l ++ ']' :: rest)) :=
    ih.value hitems.1 (by omega)
  cases items with
  | nil =>
      refine readItems_last hv ?_
      rw [afterItem, List.nil_append, skipBlanks_newline]
      rfl
  | cons w items =>
      have hnext := skipBlanks_prettyItems hitems.2.1 level items (newline l ++ ']' :: rest)
      have hbegins := (begins_prettyChars hitems.2.1 level).append
        (afterItem level items ++ (newline l ++ ']' :: rest))
      rw [afterItem, List.length_cons] at hlength
      rw [afterItem, List.cons_append] at hv ⊢
      rw [readItems_more hv hnext hbegins, ih.items hitems.2 (by omega)]
      rfl

/-- **Printed members are read back:** the first one as a name and a value, and the others, behind a
comma, with less fuel. Those read before are kept and put into order. -/
theorem ReadsBack.members_succ (ih : ReadsBack fuel) {name : String} {l : Nat}
    (hmembers : MembersFit depth ((name, v) :: members))
    (hfuel : 2 * (prettyMembers level ((name, v) :: members)).length ≤ fuel + 1) :
    readMembers (fuel + 1) depth before (named name
        (v.prettyChars level ++ (afterMember level members ++ (newline l ++ '}' :: rest)))) =
      .ok ((arrangedMembers ((name, v) :: members)).foldl
        (fun members (name, v) => members.insert name v) before, rest) := by
  have hlength : (prettyMembers level ((name, v) :: members)).length =
      (newline level).length + (name.toList.flatMap escapeChar).length + 4 +
        (v.prettyChars level).length + (afterMember level members).length := by
    rw [prettyMembers_cons, named]
    simp
    omega
  obtain ⟨fuel, rfl⟩ : ∃ less, fuel = less + 1 := ⟨fuel - 1, by omega⟩
  have hv : readValue (fuel + 1) depth
      (' ' :: (v.prettyChars level ++ (afterMember level members ++ (newline l ++ '}' :: rest)))) =
        .ok (v.arranged, afterMember level members ++ (newline l ++ '}' :: rest)) :=
    (readValue_blank _).trans (ih.value hmembers.1 (by omega))
  cases members with
  | nil =>
      refine readMembers_last hv ?_
      rw [afterMember, List.nil_append, skipBlanks_newline]
      rfl
  | cons member members =>
      obtain ⟨other, w⟩ := member
      have hnext := skipBlanks_prettyMembers level other w members (newline l ++ '}' :: rest)
      rw [afterMember, List.length_cons] at hlength
      rw [afterMember, List.cons_append] at hv ⊢
      rw [readMembers_more hv hnext (begins_named ..), ih.members hmembers.2 (by omega)]
      rfl

/-- **Whatever is printed is read back,** by induction on the fuel, which is bounded by the length
of the text. -/
theorem readsBack (fuel : Nat) : ReadsBack fuel := by
  induction fuel with
  | zero =>
      refine ⟨fun _ h => absurd h (by omega), fun _ h => ?_, fun _ h => ?_⟩
      · rw [prettyItems_cons, newline] at h
        simp at h
      · rw [prettyMembers_cons, newline] at h
        simp at h
  | succ fuel ih => exact ⟨ih.value_succ, ih.items_succ, ih.members_succ⟩

/-- **What is written is read back,** with white space around it, up to the order of the members of
objects. -/
theorem parse_pretty (hv : v.Fits 128) {blanks : List Char} (hblanks : skipBlanks blanks = []) :
    parse (v.pretty ++ String.ofList blanks) = .ok v.arranged := by
  have htext : (v.pretty ++ String.ofList blanks).toList = v.prettyChars 0 ++ blanks := by
    rw [String.toList_append, pretty, String.toList_ofList, String.toList_ofList]
  have hfuel : 2 * (v.prettyChars 0).length < 2 * (v.prettyChars 0 ++ blanks).length + 2 := by
    rw [List.length_append]
    omega
  rw [parse, parseChars, readWhole, htext, (readsBack _).value hv hfuel]
  dsimp only [bind, Except.bind]
  rw [hblanks]
  rfl

end Json
end ProcessKit
