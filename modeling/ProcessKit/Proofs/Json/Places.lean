/-
# Where a schema finds violations

A place is followed step by step, through a value (`Json.follow?`) and through a schema
(`Schema.within?`). A schema in which nothing stands twice (`Schema.Distinct`) lists exactly the
rules that are broken at a place it reaches, by the value that is there (`mem_violationsAt_iff`),
and each of them once (`nodup_violationsAt`). Below a place it lists something exactly if the value
there is not accepted (`exists_violation_below_iff`).

`Schema.Breaks` is what a value can fail in at the place of a schema itself, and `BrokenAt` carries
it down to every place that both the value and the schema reach. The induction is on the schema. For
a list the first step of a place is an index, for a record it is a name, and for a text there is no
step at all; where the value is of another type than the schema asks for, no step can be followed,
so that nothing is broken further down and the wrong type is all that is listed
(`eq_of_wrong_type`).

A place is written as a pointer, its steps with a slash in front of each. As long as no name has a
slash in it the pointer tells the place (`called_eq_of_pointer_eq`), and with the schema it also
tells an index from a name that looks like one (`eq_of_called_eq`).
-/

import Mathlib.Data.List.Nodup
import ProcessKit.Proofs.Json.Members
import ProcessKit.Proofs.Json.Schema
import ProcessKit.Proofs.Path

namespace ProcessKit
namespace Step

/-- What a step is called in a pointer. -/
def called : Step → List Char
  | .member name => name.toList
  | .item index => (toString index).toList

/-- A pointer begins with a slash and the name of its first step. The pointer of the rest comes
right behind that name. -/
theorem toList_pointer_cons (step : Step) (place : List Step) :
    (pointer (step :: place)).toList = '/' :: (step.called ++ (pointer place).toList) := by
  cases step <;> simp [pointer, called]

/-- A member is called by its name, as it is: nothing in a name is escaped. -/
theorem called_member (name : String) : (member name).called = name.toList := rfl

/-- An item is called by the decimal digits of its index. -/
theorem called_item (index : Nat) : (item index).called = Nat.toDigits 10 index := Nat.toList_repr

/-- There are digits only in what an item is called, and no slash. -/
theorem slash_not_mem_called_item (index : Nat) : '/' ∉ (item index).called := by
  rw [called_item]
  exact fun h => absurd (Nat.isDigit_of_mem_toDigits (by decide) (by decide) h) (by decide)

/-- Items at different indices are called differently, since the digits give the index back. -/
theorem item_called_inj {index other : Nat} (h : (item index).called = (item other).called) :
    index = other := by
  rw [called_item, called_item] at h
  calc index
    _ = Nat.ofDigitChars 10 (Nat.toDigits 10 index) 0 := Nat.ofDigitChars_ten_toDigits.symm
    _ = Nat.ofDigitChars 10 (Nat.toDigits 10 other) 0 := by rw [h]
    _ = other := Nat.ofDigitChars_ten_toDigits

/-- Between the slashes of a pointer stand its steps. -/
theorem splitSlash_pointer (place : List Step) (h : ∀ step ∈ place, '/' ∉ step.called)
    (before : List Char) : Path.splitSlash (before ++ (pointer place).toList) =
      Path.splitSlash before ++ place.map called := by
  induction place generalizing before with
  | nil => simp [pointer]
  | cons step place ih =>
      obtain ⟨hstep, hplace⟩ := List.forall_mem_cons.1 h
      rw [toList_pointer_cons, Path.splitSlash_append, ih hplace,
        Path.splitSlash_of_not_mem hstep]
      rfl

/-- A pointer tells what its steps are called. -/
theorem called_eq_of_pointer_eq {place other : List Step}
    (hplace : ∀ step ∈ place, '/' ∉ step.called) (hother : ∀ step ∈ other, '/' ∉ step.called)
    (h : pointer place = pointer other) : place.map called = other.map called := by
  have hleft := splitSlash_pointer place hplace []
  have hright := splitSlash_pointer other hother []
  rw [h] at hleft
  exact List.append_cancel_left (hleft.symm.trans hright)

end Step

namespace Json

/-- What one step from a value leads to. -/
def step? : Json → Step → Option Json
  | v, .member name => v.get? name
  | .array items, .item index => items[index]?
  | _, .item _ => none

/-- The value at a place. -/
def follow? : Json → List Step → Option Json
  | v, [] => some v
  | v, step :: place => (v.step? step).bind fun inner => inner.follow? place

/-- A place is followed step by step: the first step leads to a value, and the rest leads on from
there. -/
theorem follow?_cons_eq_some_iff {v x : Json} {step : Step} {place : List Step} :
    v.follow? (step :: place) = some x ↔ ∃ inner, v.step? step = some inner ∧
      inner.follow? place = some x := Option.bind_eq_some_iff

/-- A place of two parts is followed along the first and then along the second. -/
theorem follow?_append (v : Json) (place rest : List Step) :
    v.follow? (place ++ rest) = (v.follow? place).bind fun x => x.follow? rest := by
  induction place generalizing v with
  | nil => rfl
  | cons step place ih =>
      rw [List.cons_append, follow?, follow?, Option.bind_assoc]
      simp only [ih]

end Json

namespace Schema

open Json (Members IsText IsObject)

/-- The part of a schema that is about a place. -/
def within? : Schema → List Step → Option Schema
  | schema, [] => some schema
  | .list item, .item _ :: place => item.within? place
  | .record fields _, .member name :: place =>
    (fields.lookup name).bind fun field => field.within? place
  | _, _ :: _ => none

/-- Below a member, the schema of a record is that of the field of this name. -/
theorem within?_record_eq_some_iff {fields : List (String × Schema)} {required : List String}
    {name : String} {place : List Step} {target : Schema} :
    (record fields required).within? (.member name :: place) = some target ↔
      ∃ field, fields.lookup name = some field ∧ field.within? place = some target :=
  Option.bind_eq_some_iff

/-- The schema of a text has no place but its own. -/
theorem within?_text_cases {rules : List TextRule} {place : List Step} {target : Schema}
    (h : (text rules).within? place = some target) : place = [] ∧ target = text rules := by
  cases place with
  | nil => exact ⟨rfl, (Option.some.inj h).symm⟩
  | cons step place => exact absurd h (by simp [within?])

/-- The schema of a list is at its own place, and below each index there is the schema of its items.
-/
theorem within?_list_cases {item : Schema} {place : List Step} {target : Schema}
    (h : (list item).within? place = some target) :
    (place = [] ∧ target = list item) ∨
      ∃ index rest, place = .item index :: rest ∧ item.within? rest = some target := by
  match place with
  | [] => exact .inl ⟨rfl, (Option.some.inj h).symm⟩
  | .item index :: rest => exact .inr ⟨index, rest, rfl, h⟩
  | .member name :: rest => exact absurd h (by simp [within?])

/-- The schema of a record is at its own place, and below the name of each field there is the schema
of that field. -/
theorem within?_record_cases {fields : List (String × Schema)} {required : List String}
    {place : List Step} {target : Schema}
    (h : (record fields required).within? place = some target) :
    (place = [] ∧ target = record fields required) ∨
      ∃ member ∈ fields, ∃ rest, place = .member member.1 :: rest ∧
        member.2.within? rest = some target := by
  match place with
  | [] => exact .inl ⟨rfl, (Option.some.inj h).symm⟩
  | .item index :: rest => exact absurd h (by simp [within?])
  | .member name :: rest =>
      obtain ⟨field, hfield, hrest⟩ := within?_record_eq_some_iff.1 h
      obtain ⟨before, after, rfl, -⟩ := List.lookup_eq_some_iff.1 hfield
      exact .inr ⟨(name, field), by simp, rest, rfl, hrest⟩

/-- The schema at a place of two parts is found along the first and then along the second, as values
are (`follow?_append`). -/
theorem within?_append (schema : Schema) (place rest : List Step) :
    schema.within? (place ++ rest) = (schema.within? place).bind (·.within? rest) := by
  induction place generalizing schema with
  | nil => simp [within?]
  | cons step place ih =>
      cases schema with
      | text rules => simp [within?]
      | list item =>
          cases step with
          | member name => rfl
          | item index => exact ih item
      | record fields required =>
          cases step with
          | item index => rfl
          | member name =>
              rw [List.cons_append, within?, within?, Option.bind_assoc]
              simp only [ih]

/-- A rule that a value breaks by itself, whatever is wrong inside it. What is of the wrong type
breaks no other rule. -/
inductive Breaks : Schema → Json → Rule → Prop
  | notText {rules : List TextRule} {v : Json} (h : ¬ IsText v) : Breaks (.text rules) v .isText
  | text {rules : List TextRule} {rule : TextRule} {s : String} (hrule : rule ∈ rules)
      (h : rule.holds s = false) : Breaks (.text rules) (.string s) (.text rule)
  | notList {item : Schema} {v : Json} (h : ∀ items, v ≠ .array items) :
      Breaks (.list item) v .isList
  | notRecord {fields : List (String × Schema)} {required : List String} {v : Json}
      (h : ¬ IsObject v) : Breaks (.record fields required) v .isRecord
  | missing {fields : List (String × Schema)} {required : List String} {members : Members}
      {name : String} (hname : name ∈ required) (h : Members.get? members name = none) :
      Breaks (.record fields required) (.object members) (.has name)

/-- The value at a place breaks a rule of what the schema says about that place. -/
def BrokenAt (schema : Schema) (v : Json) (place : List Step) (x : Json) (rule : Rule) : Prop :=
  ∃ target, schema.within? place = some target ∧ v.follow? place = some x ∧ target.Breaks x rule

/-- At its own place a value breaks the rules of the schema itself. -/
theorem brokenAt_nil_iff {schema : Schema} {v x : Json} {rule : Rule} :
    schema.BrokenAt v [] x rule ↔ x = v ∧ schema.Breaks v rule := by
  constructor
  · rintro ⟨target, htarget, hx, h⟩
    obtain rfl := Option.some.inj htarget
    obtain rfl := Option.some.inj hx
    exact ⟨rfl, h⟩
  · rintro ⟨rfl, h⟩
    exact ⟨schema, rfl, rfl, h⟩

/-- Below an index of an array a rule is broken when the item there breaks it, by the schema of the
items. -/
theorem brokenAt_item_iff {item : Schema} {items : List Json} {index : Nat} {place : List Step}
    {x : Json} {rule : Rule} :
    (list item).BrokenAt (.array items) (.item index :: place) x rule ↔
      ∃ inner, items[index]? = some inner ∧ item.BrokenAt inner place x rule := by
  constructor
  · rintro ⟨target, htarget, hx, h⟩
    obtain ⟨inner, hinner, hx⟩ := Json.follow?_cons_eq_some_iff.1 hx
    exact ⟨inner, hinner, target, htarget, hx, h⟩
  · rintro ⟨inner, hinner, target, htarget, hx, h⟩
    exact ⟨target, htarget, Json.follow?_cons_eq_some_iff.2 ⟨inner, hinner, hx⟩, h⟩

/-- Below a name of an object a rule is broken when the member there breaks it, by the schema of the
field. -/
theorem brokenAt_member_iff {fields : List (String × Schema)} {required : List String}
    {members : Members} {name : String} {place : List Step} {x : Json} {rule : Rule} :
    (record fields required).BrokenAt (.object members) (.member name :: place) x rule ↔
      ∃ field inner, fields.lookup name = some field ∧ Members.get? members name = some inner ∧
        field.BrokenAt inner place x rule := by
  constructor
  · rintro ⟨target, htarget, hx, h⟩
    obtain ⟨field, hfield, htarget⟩ := within?_record_eq_some_iff.1 htarget
    obtain ⟨inner, hinner, hx⟩ := Json.follow?_cons_eq_some_iff.1 hx
    exact ⟨field, inner, hfield, hinner, target, htarget, hx, h⟩
  · rintro ⟨field, inner, hfield, hinner, target, htarget, hx, h⟩
    exact ⟨target, within?_record_eq_some_iff.2 ⟨field, hfield, htarget⟩,
      Json.follow?_cons_eq_some_iff.2 ⟨inner, hinner, hx⟩, h⟩

mutual

/-- No rule, no field and no required name stands twice, at any depth. -/
def Distinct : Schema → Prop
  | .text rules => rules.Nodup
  | .list item => item.Distinct
  | .record fields required =>
    (fields.map (·.1)).Nodup ∧ required.Nodup ∧ DistinctFields fields

/-- Nothing stands twice in the schemas of some fields. -/
def DistinctFields : List (String × Schema) → Prop
  | [] => True
  | (_, field) :: rest => field.Distinct ∧ DistinctFields rest

end

/-- With no field twice, a field is the one that its name gives. -/
theorem lookup_cons_of_mem {name other : String} {field target : Schema}
    {fields : List (String × Schema)} (h : (((name, field) :: fields).map (·.1)).Nodup)
    (hlookup : fields.lookup other = some target) :
    ((name, field) :: fields).lookup other = some target := by
  obtain ⟨before, after, rfl, -⟩ := List.lookup_eq_some_iff.1 hlookup
  have hne : other ≠ name := by
    rintro rfl
    exact (List.nodup_cons.1 h).1 (by simp)
  rw [List.lookup_cons, beq_eq_false_iff_ne.2 hne]
  exact hlookup

/-- Nothing is found inside a value where no step leads on, in the value or in the schema. -/
theorem brokenAt_iff_of_no_step {schema : Schema} {v : Json}
    (h : ∀ step rest, schema.within? (step :: rest) = none ∨ v.step? step = none)
    {place : List Step} {x : Json} {rule : Rule} :
    schema.BrokenAt v place x rule ↔ place = [] ∧ x = v ∧ schema.Breaks v rule := by
  match place with
  | [] => rw [brokenAt_nil_iff, eq_self, true_and]
  | step :: rest =>
      refine iff_of_false ?_ (by simp)
      rintro ⟨target, htarget, hx, -⟩
      obtain ⟨inner, hinner, -⟩ := Json.follow?_cons_eq_some_iff.1 hx
      obtain hnone | hnone := h step rest
      · exact absurd (htarget.symm.trans hnone) (by simp)
      · exact absurd (hinner.symm.trans hnone) (by simp)

/-- **Where a list that is an array breaks a rule:** in one of its items. It breaks none of its own.
-/
theorem brokenAt_list_iff {item : Schema} {items : List Json} {place : List Step} {x : Json}
    {rule : Rule} :
    (list item).BrokenAt (.array items) place x rule ↔ ∃ index inner rest,
      place = .item index :: rest ∧ items[index]? = some inner ∧
      item.BrokenAt inner rest x rule := by
  constructor
  · intro h
    match place with
    | [] =>
        obtain ⟨-, hbreaks⟩ := brokenAt_nil_iff.1 h
        cases hbreaks with
        | notList hnot => exact absurd rfl (hnot items)
    | .member name :: place =>
        obtain ⟨target, htarget, -⟩ := h
        exact absurd htarget (by simp [within?])
    | .item index :: rest =>
        obtain ⟨inner, hinner, h⟩ := brokenAt_item_iff.1 h
        exact ⟨index, inner, rest, rfl, hinner, h⟩
  · rintro ⟨index, inner, rest, rfl, hinner, h⟩
    exact brokenAt_item_iff.2 ⟨inner, hinner, h⟩

/-- **Where a record that is an object breaks a rule:** in a member that is a field, or at its own
place by lacking a member that is required. -/
theorem brokenAt_record_iff {fields : List (String × Schema)} {required : List String}
    {members : Members} {place : List Step} {x : Json} {rule : Rule} :
    (record fields required).BrokenAt (.object members) place x rule ↔
      (∃ name rest field inner, place = .member name :: rest ∧ fields.lookup name = some field ∧
        Members.get? members name = some inner ∧ field.BrokenAt inner rest x rule) ∨
      (place = [] ∧ x = .object members ∧ ∃ name ∈ required, Members.get? members name = none ∧
        rule = .has name) := by
  constructor
  · intro h
    match place with
    | [] =>
        obtain ⟨hx, hbreaks⟩ := brokenAt_nil_iff.1 h
        cases hbreaks with
        | notRecord hnot => exact absurd ⟨members, rfl⟩ hnot
        | missing hname hnone => exact .inr ⟨rfl, hx, _, hname, hnone, rfl⟩
    | .item index :: place =>
        obtain ⟨target, htarget, -⟩ := h
        exact absurd htarget (by simp [within?])
    | .member name :: rest =>
        obtain ⟨field, inner, hfield, hinner, h⟩ := brokenAt_member_iff.1 h
        exact .inl ⟨name, rest, field, inner, rfl, hfield, hinner, h⟩
  · rintro (⟨name, rest, field, inner, rfl, hfield, hinner, h⟩ | ⟨rfl, rfl, name, hname, h, rfl⟩)
    · exact brokenAt_member_iff.2 ⟨field, inner, hfield, hinner, h⟩
    · exact brokenAt_nil_iff.2 ⟨rfl, .missing hname h⟩

/-- What is no text has one violation, that of not being one. The rules about its characters are not
asked. -/
theorem violationsAt_of_not_text (rules : List TextRule) (place : List Step) {v : Json}
    (h : ¬ IsText v) : (text rules).violationsAt place v = [⟨place, v, .isText⟩] := by
  cases v with
  | string s => exact absurd ⟨s, rfl⟩ h
  | _ => simp [violationsAt]

/-- What is no array has one violation, that of not being one. -/
theorem violationsAt_of_not_list (item : Schema) (place : List Step) {v : Json}
    (h : ∀ items, v ≠ .array items) : (list item).violationsAt place v = [⟨place, v, .isList⟩] := by
  cases v with
  | array items => exact absurd rfl (h items)
  | _ => simp [violationsAt]

/-- What is no object has one violation, that of not being one. No member is missed in it. -/
theorem violationsAt_of_not_record (fields : List (String × Schema)) (required : List String)
    (place : List Step) {v : Json} (h : ¬ IsObject v) :
    (record fields required).violationsAt place v = [⟨place, v, .isRecord⟩] := by
  cases v with
  | object members => exact absurd ⟨members, rfl⟩ h
  | _ => simp [violationsAt]

/-- The rules that a text breaks are those of its schema that do not hold of it. -/
theorem breaks_string_iff {rules : List TextRule} {s : String} {rule : Rule} :
    (text rules).Breaks (.string s) rule ↔
      rule ∈ (rules.filter fun textRule => !textRule.holds s).map .text := by
  rw [List.mem_map]
  constructor
  · intro h
    cases h with
    | notText hnot => exact absurd ⟨s, rfl⟩ hnot
    | text hrule hholds => exact ⟨_, List.mem_filter.2 ⟨hrule, by simp [hholds]⟩, rfl⟩
  · rintro ⟨textRule, hmem, rfl⟩
    obtain ⟨hrule, hholds⟩ := List.mem_filter.1 hmem
    exact .text hrule (by simpa using hholds)

/-- What is no text breaks the rule to be one, and no other. -/
theorem breaks_iff_of_not_text {rules : List TextRule} {v : Json} (h : ¬ IsText v) {rule : Rule} :
    (text rules).Breaks v rule ↔ rule = .isText := by
  constructor
  · intro hbreaks
    cases hbreaks with
    | notText _ => rfl
    | text _ _ => exact absurd ⟨_, rfl⟩ h
  · rintro rfl
    exact .notText h

/-- What is no array breaks the rule of a list to be one, and no other. -/
theorem breaks_iff_of_not_list {item : Schema} {v : Json} (h : ∀ items, v ≠ .array items)
    {rule : Rule} : (list item).Breaks v rule ↔ rule = .isList := by
  constructor
  · rintro ⟨_⟩
    rfl
  · rintro rfl
    exact .notList h

/-- What is no object breaks the rule of a record to be one, and no other. -/
theorem breaks_iff_of_not_record {fields : List (String × Schema)} {required : List String}
    {v : Json} (h : ¬ IsObject v) {rule : Rule} :
    (record fields required).Breaks v rule ↔ rule = .isRecord := by
  constructor
  · intro hbreaks
    cases hbreaks with
    | notRecord _ => rfl
    | missing _ _ => exact absurd ⟨_, rfl⟩ h
  · rintro rfl
    exact .notRecord h

/-- What is said of a value that has nothing inside it is said of the value. -/
theorem mem_map_iff_of_no_step {schema : Schema} {v : Json} (place : List Step) (rules : List Rule)
    (hstep : ∀ step rest, schema.within? (step :: rest) = none ∨ v.step? step = none)
    (hrules : ∀ rule, schema.Breaks v rule ↔ rule ∈ rules) (violation : Violation) :
    violation ∈ rules.map (fun rule => ⟨place, v, rule⟩) ↔ ∃ rest,
      violation.place = place ++ rest ∧
        schema.BrokenAt v rest violation.value violation.rule := by
  obtain ⟨p, x, rule⟩ := violation
  simp only [brokenAt_iff_of_no_step hstep, hrules, List.mem_map, Violation.mk.injEq]
  constructor
  · rintro ⟨rule, hrule, rfl, rfl, rfl⟩
    exact ⟨[], by simp, rfl, rfl, hrule⟩
  · rintro ⟨rest, hplace, rfl, rfl, hrule⟩
    exact ⟨rule, hrule, by rw [hplace, List.append_nil], rfl, rfl⟩

/-- What is listed about a text, with the place in front, is what it breaks. -/
theorem mem_violationsAt_text_iff (rules : List TextRule) (place : List Step) (v : Json)
    (violation : Violation) :
    violation ∈ (text rules).violationsAt place v ↔ ∃ rest, violation.place = place ++ rest ∧
      (text rules).BrokenAt v rest violation.value violation.rule := by
  have hstep (step : Step) (rest : List Step) :
      (text rules).within? (step :: rest) = none ∨ v.step? step = none := .inl (by simp [within?])
  by_cases h : IsText v
  · obtain ⟨s, rfl⟩ := h
    rw [← mem_map_iff_of_no_step place _ hstep (fun rule => breaks_string_iff), List.map_map]
    simp only [violationsAt, Function.comp_def]
  · rw [violationsAt_of_not_text rules place h, ← mem_map_iff_of_no_step place [.isText] hstep
      fun rule => by rw [breaks_iff_of_not_text h, List.mem_singleton]]
    rfl

/-- There are items in arrays only. -/
theorem step?_eq_none_of_not_array {v : Json} (h : ∀ items, v ≠ .array items) (index : Nat) :
    v.step? (.item index) = none := by
  cases v with
  | array items => exact absurd rfl (h items)
  | _ => rfl

/-- There are members in objects only. -/
theorem step?_eq_none_of_not_object {v : Json} (h : ¬ IsObject v) (name : String) :
    v.step? (.member name) = none := by
  cases v with
  | object members => exact absurd ⟨members, rfl⟩ h
  | _ => rfl

/-- What is listed about a value that should be a list and is none is what it breaks: there is
nothing below it. -/
theorem mem_violationsAt_of_not_list (item : Schema) (place : List Step) {v : Json}
    (h : ∀ items, v ≠ .array items) (violation : Violation) :
    violation ∈ (list item).violationsAt place v ↔ ∃ rest, violation.place = place ++ rest ∧
      (list item).BrokenAt v rest violation.value violation.rule := by
  have hstep (step : Step) (rest : List Step) :
      (list item).within? (step :: rest) = none ∨ v.step? step = none := by
    cases step with
    | member name => exact .inl (by simp [within?])
    | item index => exact .inr (step?_eq_none_of_not_array h index)
  rw [violationsAt_of_not_list item place h, ← mem_map_iff_of_no_step place [.isList] hstep
    fun rule => by rw [breaks_iff_of_not_list h, List.mem_singleton]]
  rfl

/-- What is listed about a value that should be a record and is none is what it breaks: there is
nothing below it. -/
theorem mem_violationsAt_of_not_record (fields : List (String × Schema)) (required : List String)
    (place : List Step) {v : Json} (h : ¬ IsObject v) (violation : Violation) :
    violation ∈ (record fields required).violationsAt place v ↔ ∃ rest,
      violation.place = place ++ rest ∧
        (record fields required).BrokenAt v rest violation.value violation.rule := by
  have hstep (step : Step) (rest : List Step) :
      (record fields required).within? (step :: rest) = none ∨ v.step? step = none := by
    cases step with
    | member name => exact .inr (step?_eq_none_of_not_object h name)
    | item index => exact .inl (by simp [within?])
  rw [violationsAt_of_not_record fields required place h,
    ← mem_map_iff_of_no_step place [.isRecord] hstep
      fun rule => by rw [breaks_iff_of_not_record h, List.mem_singleton]]
  rfl

mutual

/-- **The list is complete, and nothing else is in it:** the rules that are broken at a place
reached by the schema, with the value that is there. -/
theorem mem_violationsAt_iff (schema : Schema) (hdistinct : schema.Distinct) (place : List Step)
    (v : Json) (violation : Violation) :
    violation ∈ schema.violationsAt place v ↔ ∃ rest, violation.place = place ++ rest ∧
      schema.BrokenAt v rest violation.value violation.rule := by
  cases schema with
  | text rules => exact mem_violationsAt_text_iff rules place v violation
  | list item =>
      by_cases h : ∀ items, v ≠ .array items
      · exact mem_violationsAt_of_not_list item place h violation
      · obtain ⟨items, rfl⟩ : ∃ items, v = .array items := by simpa using h
        simp only [violationsAt, List.mem_flatMap, Prod.exists, List.mem_zipIdx_iff_getElem?,
          brokenAt_list_iff, mem_violationsAt_iff item hdistinct]
        constructor
        · rintro ⟨inner, index, hinner, rest, hplace, h⟩
          exact ⟨.item index :: rest, by simp [hplace], index, inner, rest, rfl, hinner, h⟩
        · rintro ⟨_, hplace, index, inner, rest, rfl, hinner, h⟩
          exact ⟨inner, index, hinner, rest, by simp [hplace], h⟩
  | record fields required =>
      obtain ⟨hnames, -, hfields⟩ := hdistinct
      by_cases h : IsObject v
      · obtain ⟨members, rfl⟩ := h
        obtain ⟨p, x, rule⟩ := violation
        simp only [violationsAt, List.mem_append, brokenAt_record_iff, List.mem_map,
          List.mem_filter, Option.isNone_iff_eq_none, Violation.mk.injEq,
          mem_fieldViolations_iff fields hnames hfields]
        constructor
        · rintro (⟨name, rest, field, inner, hplace, h⟩ | ⟨name, ⟨hname, hnone⟩, rfl, rfl, rfl⟩)
          · exact ⟨.member name :: rest, hplace, .inl ⟨name, rest, field, inner, rfl, h⟩⟩
          · exact ⟨[], by simp, .inr ⟨rfl, rfl, name, hname, hnone, rfl⟩⟩
        · rintro ⟨_, hplace,
            ⟨name, rest, field, inner, rfl, h⟩ | ⟨rfl, rfl, name, hname, hnone, rfl⟩⟩
          · exact .inl ⟨name, rest, field, inner, hplace, h⟩
          · exact .inr ⟨name, ⟨hname, hnone⟩, by simpa using hplace.symm, rfl, rfl⟩
      · exact mem_violationsAt_of_not_record fields required place h violation

/-- What is listed about the fields of an object is what its members break, each below its name. The
names must be different, so that a lookup finds the field that the list is at. -/
theorem mem_fieldViolations_iff (fields : List (String × Schema))
    (hnames : (fields.map (·.1)).Nodup) (hdistinct : DistinctFields fields) (place : List Step)
    (members : Members) (violation : Violation) :
    violation ∈ fieldViolations fields place members ↔ ∃ name rest field inner,
      violation.place = place ++ .member name :: rest ∧ fields.lookup name = some field ∧
      Members.get? members name = some inner ∧
      field.BrokenAt inner rest violation.value violation.rule := by
  cases fields with
  | nil => simp [fieldViolations]
  | cons head fields =>
      obtain ⟨n, head⟩ := head
      have hhead (inner : Json) :=
        mem_violationsAt_iff head hdistinct.1 (place ++ [.member n]) inner violation
      rw [fieldViolations, List.mem_append,
        mem_fieldViolations_iff fields (List.nodup_cons.1 hnames).2 hdistinct.2 place members]
      constructor
      · rintro (h | ⟨name, rest, field, inner, hplace, hfield, h⟩)
        · split at h
          · rename_i inner hinner
            obtain ⟨rest, hplace, h⟩ := (hhead inner).1 h
            exact ⟨n, rest, head, inner, by simp [hplace], by simp, hinner, h⟩
          · exact absurd h (by simp)
        · exact ⟨name, rest, field, inner, hplace, lookup_cons_of_mem hnames hfield, h⟩
      · rintro ⟨name, rest, field, inner, hplace, hfield, hinner, h⟩
        rw [List.lookup_cons] at hfield
        split at hfield
        · rename_i heq
          obtain rfl : name = n := by simpa using heq
          obtain rfl := Option.some.inj hfield
          refine .inl ?_
          rw [hinner]
          exact (hhead inner).2 ⟨rest, by simp [hplace], h⟩
        · exact .inr ⟨name, rest, field, inner, hplace, hfield, hinner, h⟩

end

/-- **The violations that are listed** for a document are the rules that it breaks, at their places.
The whole document is the value at the place without a step. -/
theorem mem_violations_iff {schema : Schema} (hdistinct : schema.Distinct) {v : Json}
    {violation : Violation} : violation ∈ schema.violations v ↔
      schema.BrokenAt v violation.place violation.value violation.rule := by
  rw [violations, mem_violationsAt_iff schema hdistinct]
  simp

/-- What a violation is told apart by: its place and its rule. -/
def Violation.key (violation : Violation) : List Step × Rule := (violation.place, violation.rule)

/-- What is said of the inside of a value is said below the step that leads there. -/
theorem place_of_mem_inside (schema : Schema) (hdistinct : schema.Distinct) {place : List Step}
    {step : Step} {v : Json} {key : List Step × Rule}
    (h : key ∈ (schema.violationsAt (place ++ [step]) v).map Violation.key) :
    ∃ rest, key.1 = place ++ step :: rest := by
  obtain ⟨violation, hmem, rfl⟩ := List.mem_map.1 h
  obtain ⟨rest, hplace, -⟩ := (mem_violationsAt_iff schema hdistinct _ v violation).1 hmem
  exact ⟨rest, by rw [Violation.key, hplace, List.append_assoc, List.singleton_append]⟩

/-- The violations of the fields are below the names of fields. -/
theorem place_of_mem_fields {fields : List (String × Schema)}
    (hnames : (fields.map (·.1)).Nodup) (hdistinct : DistinctFields fields) {place : List Step}
    {members : Members} {key : List Step × Rule}
    (h : key ∈ (fieldViolations fields place members).map Violation.key) :
    ∃ name ∈ fields.map (·.1), ∃ rest, key.1 = place ++ .member name :: rest := by
  obtain ⟨violation, hmem, rfl⟩ := List.mem_map.1 h
  obtain ⟨name, rest, field, inner, hplace, hfield, -⟩ :=
    (mem_fieldViolations_iff fields hnames hdistinct place members violation).1 hmem
  obtain ⟨before, after, rfl, -⟩ := List.lookup_eq_some_iff.1 hfield
  exact ⟨name, by simp, rest, hplace⟩

mutual

/-- **No rule is listed twice** for one place. Different items and members have different places,
and a schema does not name one rule twice. -/
theorem nodup_violationsAt (schema : Schema) (hdistinct : schema.Distinct) (place : List Step)
    (v : Json) : ((schema.violationsAt place v).map Violation.key).Nodup := by
  cases schema with
  | text rules =>
      cases v with
      | string s =>
          rw [violationsAt, List.map_map]
          refine (List.Nodup.filter _ hdistinct).map fun rule other h => ?_
          exact Rule.text.inj (Prod.mk.inj h).2
      | _ => simp [violationsAt]
  | list item =>
      cases v with
      | array items =>
          rw [violationsAt, List.map_flatMap, List.nodup_flatMap]
          refine ⟨fun pair _ => nodup_violationsAt item hdistinct _ pair.1, ?_⟩
          have hindices : items.zipIdx.Pairwise fun one other => one.2 ≠ other.2 := by
            rw [← List.pairwise_map, List.zipIdx_map_snd]
            exact List.nodup_range'
          refine hindices.imp fun hne key hone hother => hne ?_
          obtain ⟨rest, hrest⟩ := place_of_mem_inside item hdistinct hone
          obtain ⟨rest', hrest'⟩ := place_of_mem_inside item hdistinct hother
          have hcons := List.append_cancel_left (hrest.symm.trans hrest')
          exact Step.item.inj (List.cons.inj hcons).1
      | _ => simp [violationsAt]
  | record fields required =>
      obtain ⟨hnames, hrequired, hfields⟩ := hdistinct
      cases v with
      | object members =>
          rw [violationsAt, List.map_append, List.map_map, List.nodup_append]
          refine ⟨nodup_fieldViolations fields hnames hfields place members, ?_, ?_⟩
          · refine (List.Nodup.filter _ hrequired).map fun name other h => ?_
            exact Rule.has.inj (Prod.mk.inj h).2
          · rintro key hkey _ hmissing rfl
            obtain ⟨name, -, rest, hrest⟩ := place_of_mem_fields hnames hfields hkey
            obtain ⟨missing, -, rfl⟩ := List.mem_map.1 hmissing
            exact absurd (List.append_cancel_left
              ((List.append_nil place).trans hrest)) (by simp)
      | _ => simp [violationsAt]

/-- Nothing is listed twice about the fields of an object, since the places of two fields part at
their names. -/
theorem nodup_fieldViolations (fields : List (String × Schema))
    (hnames : (fields.map (·.1)).Nodup) (hdistinct : DistinctFields fields) (place : List Step)
    (members : Members) : ((fieldViolations fields place members).map Violation.key).Nodup := by
  cases fields with
  | nil => simp [fieldViolations]
  | cons head fields =>
      obtain ⟨n, head⟩ := head
      obtain ⟨hn, hnames⟩ := List.nodup_cons.1 hnames
      have hrest := nodup_fieldViolations fields hnames hdistinct.2 place members
      rw [fieldViolations]
      split
      · rename_i inner _
        rw [List.map_append, List.nodup_append]
        refine ⟨nodup_violationsAt head hdistinct.1 _ inner, hrest, ?_⟩
        rintro key hkey _ hlater rfl
        obtain ⟨rest, heq⟩ := place_of_mem_inside head hdistinct.1 hkey
        obtain ⟨name, hname, rest', heq'⟩ := place_of_mem_fields hnames hdistinct.2 hlater
        have hcons := List.append_cancel_left (heq.symm.trans heq')
        exact hn (Step.member.inj (List.cons.inj hcons).1 ▸ hname)
      · exact hrest

end

/-- A field that a name leads to has different names in its records, too. -/
theorem DistinctFields.of_lookup {fields : List (String × Schema)} (h : DistinctFields fields)
    {name : String} {field : Schema} (hfield : fields.lookup name = some field) :
    field.Distinct := by
  induction fields with
  | nil => exact absurd hfield (by simp)
  | cons head fields ih =>
      rw [List.lookup_cons] at hfield
      split at hfield
      · exact Option.some.inj hfield ▸ h.1
      · exact ih h.2 hfield

/-- Every schema inside one whose records have different names has that property as well. -/
theorem Distinct.of_within {schema target : Schema} (h : schema.Distinct) {place : List Step}
    (htarget : schema.within? place = some target) : target.Distinct := by
  induction place generalizing schema with
  | nil => exact Option.some.inj htarget ▸ h
  | cons step place ih =>
      cases schema with
      | text rules => exact absurd htarget (by simp [within?])
      | list item =>
          cases step with
          | member name => exact absurd htarget (by simp [within?])
          | item index =>
              have hitem : item.Distinct := h
              exact ih hitem htarget
      | record fields required =>
          cases step with
          | item index => exact absurd htarget (by simp [within?])
          | member name =>
              obtain ⟨field, hfield, htarget⟩ := within?_record_eq_some_iff.1 htarget
              exact ih (h.2.2.of_lookup hfield) htarget

/-- What is broken below a place is broken inside the value there. -/
theorem brokenAt_append_iff {schema target : Schema} {place : List Step}
    (htarget : schema.within? place = some target) {v x : Json} (hx : v.follow? place = some x)
    {rest : List Step} {value : Json} {rule : Rule} :
    schema.BrokenAt v (place ++ rest) value rule ↔ target.BrokenAt x rest value rule := by
  simp only [BrokenAt, within?_append, Json.follow?_append, htarget, hx, Option.bind_some]

/-- **A place is named,** or one below it, exactly if the value there is not accepted. What is wrong
elsewhere in the document makes no difference. -/
theorem exists_violation_below_iff {schema target : Schema} (hdistinct : schema.Distinct)
    {place : List Step} (htarget : schema.within? place = some target) {v x : Json}
    (hx : v.follow? place = some x) :
    (∃ violation ∈ schema.violations v, place <+: violation.place) ↔ ¬ target.Accepts x := by
  have htargetDistinct := hdistinct.of_within htarget
  rw [← violationsAt_eq_nil_iff target [] x]
  constructor
  · rintro ⟨violation, hmem, rest, hrest⟩
    have hbroken := (mem_violations_iff hdistinct).1 hmem
    rw [← hrest, brokenAt_append_iff htarget hx] at hbroken
    have hinside : ⟨rest, violation.value, violation.rule⟩ ∈ target.violations x :=
      (mem_violations_iff htargetDistinct).2 hbroken
    exact List.ne_nil_of_mem hinside
  · intro hne
    obtain ⟨violation, hmem⟩ := List.exists_mem_of_ne_nil _ hne
    have hbroken := (mem_violations_iff htargetDistinct).1 hmem
    exact ⟨⟨place ++ violation.place, violation.value, violation.rule⟩,
      (mem_violations_iff hdistinct).2 ((brokenAt_append_iff htarget hx).2 hbroken),
      List.prefix_append ..⟩

/-- A rule on the type of a value. -/
def Rule.IsOfType (rule : Rule) : Prop := rule = .isText ∨ rule = .isList ∨ rule = .isRecord

/-- What is of the wrong type breaks that rule alone, and there is no way on inside it. -/
theorem Breaks.of_wrong_type {schema : Schema} {v : Json} {rule : Rule}
    (h : schema.Breaks v rule) (htype : rule.IsOfType) :
    (∀ other, schema.Breaks v other → other = rule) ∧
      ∀ step rest, schema.within? (step :: rest) = none ∨ v.step? step = none := by
  cases h with
  | text _ _ => exact absurd htype (by simp [Rule.IsOfType])
  | missing _ _ => exact absurd htype (by simp [Rule.IsOfType])
  | notText h =>
      refine ⟨fun other => (breaks_iff_of_not_text h).1, fun step rest => .inl ?_⟩
      simp [within?]
  | notList h =>
      refine ⟨fun other => (breaks_iff_of_not_list h).1, fun step rest => ?_⟩
      cases step with
      | member name => exact .inl (by simp [within?])
      | item index => exact .inr (step?_eq_none_of_not_array h index)
  | notRecord h =>
      refine ⟨fun other => (breaks_iff_of_not_record h).1, fun step rest => ?_⟩
      cases step with
      | member name => exact .inr (step?_eq_none_of_not_object h name)
      | item index => exact .inl (by simp [within?])

/-- **What is of the wrong type** is reported as that, and nothing else at it or below it: there is
nothing in it that the schema has a place for. -/
theorem eq_of_wrong_type {schema : Schema} (hdistinct : schema.Distinct) {v : Json}
    {violation other : Violation} (hmem : violation ∈ schema.violations v)
    (htype : violation.rule.IsOfType) (hother : other ∈ schema.violations v)
    (hbelow : violation.place <+: other.place) : other = violation := by
  obtain ⟨place, x, rule⟩ := violation
  obtain ⟨_, y, otherRule⟩ := other
  obtain ⟨rest, rfl⟩ := hbelow
  obtain ⟨target, htarget, hx, hbreaks⟩ := (mem_violations_iff hdistinct).1 hmem
  have hbroken := (brokenAt_append_iff htarget hx).1 ((mem_violations_iff hdistinct).1 hother)
  obtain ⟨honly, hstep⟩ := hbreaks.of_wrong_type htype
  obtain ⟨rfl, hvalue, hrule⟩ := (brokenAt_iff_of_no_step hstep).1 hbroken
  exact Violation.mk.injEq .. ▸ ⟨List.append_nil place, hvalue, honly _ hrule⟩

/-- Two places that a schema reaches are the same if their steps are called the same. -/
theorem eq_of_called_eq {schema : Schema} {place other : List Step}
    (hplace : (schema.within? place).isSome) (hother : (schema.within? other).isSome)
    (h : place.map Step.called = other.map Step.called) : place = other := by
  induction place generalizing schema other with
  | nil => exact (List.map_eq_nil_iff.1 h.symm).symm
  | cons step place ih =>
      obtain ⟨step', other, rfl, hstep, hrest⟩ := List.map_eq_cons_iff.1 h.symm
      cases schema with
      | text rules => exact absurd hplace (by simp [within?])
      | list item =>
          match step, step' with
          | .item index, .item index' =>
              obtain rfl := Step.item_called_inj hstep
              rw [ih hplace hother hrest.symm]
          | .member _, _ => exact absurd hplace (by simp [within?])
          | _, .member _ => exact absurd hother (by simp [within?])
      | record fields required =>
          match step, step' with
          | .member name, .member name' =>
              obtain rfl : name' = name := String.toList_inj.1 hstep
              obtain ⟨target, htarget⟩ := Option.isSome_iff_exists.1 hplace
              obtain ⟨target', htarget'⟩ := Option.isSome_iff_exists.1 hother
              obtain ⟨field, hfield, htarget⟩ := within?_record_eq_some_iff.1 htarget
              obtain ⟨field', hfield', htarget'⟩ := within?_record_eq_some_iff.1 htarget'
              obtain rfl := Option.some.inj (hfield.symm.trans hfield')
              rw [ih (by rw [htarget]; rfl) (by rw [htarget']; rfl) hrest.symm]
          | .item _, _ => exact absurd hplace (by simp [within?])
          | _, .item _ => exact absurd hother (by simp [within?])

end Schema
end ProcessKit
