/-
# The members of an object

`Members.get?` is the view through which members are described. `Members.insert` changes it at one
name (`get?_insert`), whatever order the members are in, so that a list of pairs gives every name
its last pair (`get?_ofList`). With no name there twice (`Members.Distinct`) every member is the one
that its name gives (`get?_eq_some_iff`). So it is in the order of the names. A whole value in that
order is `Ordered`, and so is everything inside it.

An object is kept as a list of members, and equality of values is equality of these lists. That is
why the order matters: values that were read have their members sorted by name, and two objects with
the same members are the same value then. What is made in other ways, as what a program writes out,
need not be sorted, and the view is what the two have in common.

`Ordered` goes down through arrays and objects, with one predicate for the items and one for the
members, as every function on values does. `allOrdered_iff` and `membersOrdered_iff` turn these into
statements about each item and each member.
-/

import Mathlib.Data.String.Basic
import ProcessKit.Json.Value

namespace ProcessKit
namespace Json

namespace Members

variable {members : Members} {name : String} {value : Json}

/-- There is nothing in an empty object. -/
@[simp] theorem get?_nil (name : String) : get? [] name = none := rfl

/-- The first member of a name is the one that counts. -/
@[simp] theorem get?_cons (n : String) (v : Json) (members : Members) (name : String) :
    get? ((n, v) :: members) name = if n = name then some v else get? members name := by
  rw [get?, List.find?_cons]
  by_cases h : n = name
  · rw [beq_iff_eq.2 h, if_pos h]
    rfl
  · rw [beq_eq_false_iff_ne.2 h, if_neg h]
    rfl

/-- **One member more** is seen under its name and nowhere else. A member that had the name before
is replaced. -/
theorem get?_insert (name : String) (value : Json) (members : Members) (other : String) :
    get? (insert name value members) other =
      if name = other then some value else get? members other := by
  induction members with
  | nil => rw [insert, get?_cons]
  | cons member members ih =>
      obtain ⟨n, v⟩ := member
      rw [insert]
      by_cases hlt : name < n
      · rw [if_pos hlt, get?_cons]
      rw [if_neg hlt]
      by_cases heq : name = n
      · subst heq
        rw [if_pos (beq_self_eq_true _), get?_cons, get?_cons]
        split_ifs <;> rfl
      · rw [if_neg (by simpa using heq), get?_cons, get?_cons, ih]
        -- The two names differ, so at most one of them is the one looked up.
        by_cases hn : n = other
        · rw [if_pos hn, if_pos hn, if_neg fun ho => heq (ho.trans hn.symm)]
        · rw [if_neg hn, if_neg hn]

/-- **After inserting members one after the other,** a name leads to the last one of that name, and
otherwise to what was there before. -/
theorem get?_foldl_insert (pairs : List (String × Json)) (members : Members) (name : String) :
    get? (pairs.foldl (fun members (n, v) => members.insert n v) members) name =
      ((pairs.reverse.find? (·.1 == name)).map (·.2)).or (get? members name) := by
  induction pairs generalizing members with
  | nil => rfl
  | cons pair pairs ih =>
      obtain ⟨n, v⟩ := pair
      rw [List.foldl_cons, ih, get?_insert, List.reverse_cons, List.find?_append]
      cases pairs.reverse.find? (·.1 == name) with
      | some p => rfl
      | none =>
          by_cases h : n = name
          · simp [h]
          · simp [h]

/-- **Of several pairs with one name the last one counts.** This is what makes later entries win, in
texts as well as in settings. -/
theorem get?_ofList (pairs : List (String × Json)) (name : String) :
    get? (ofList pairs) name = (pairs.reverse.find? (·.1 == name)).map (·.2) := by
  rw [ofList, get?_foldl_insert, get?_nil, Option.or_none]

/-- The value of the last pair of a name. -/
def last? {α : Type} (pairs : List (String × α)) (name : String) : Option α :=
  (pairs.reverse.find? (·.1 == name)).map (·.2)

/-- Which pair counts does not change when the values are turned into JSON one by one. -/
theorem get?_ofList_map {α : Type} (f : α → Json) (pairs : List (String × α)) (name : String) :
    get? (ofList (pairs.map fun (n, v) => (n, f v))) name = (last? pairs name).map f := by
  rw [get?_ofList, ← List.map_reverse, List.find?_map, Option.map_map, last?, Option.map_map]
  rfl

/-- What a name leads to is among the members. -/
theorem mem_of_get? (h : get? members name = some value) : (name, value) ∈ members := by
  induction members with
  | nil => exact absurd h (by simp)
  | cons member members ih =>
      obtain ⟨n, v⟩ := member
      rw [get?_cons] at h
      split_ifs at h with hn
      · obtain rfl := Option.some.inj h
        exact hn ▸ List.mem_cons_self ..
      · exact List.mem_cons_of_mem _ (ih h)

/-- No name is there twice. -/
def Distinct (members : Members) : Prop := (members.map (·.1)).Nodup

/-- Members in ascending order have different names. -/
theorem Sorted.distinct (h : Sorted members) : Distinct members :=
  List.pairwise_map.2 (h.imp ne_of_lt)

/-- Members have different names without the first one, too. -/
theorem Distinct.tail {member : String × Json} (h : Distinct (member :: members)) :
    Distinct members := (List.nodup_cons.1 h).2

/-- **With no name there twice** every member is the one that its name gives, so looking a name up
and being a member are the same. -/
theorem get?_eq_some_iff (h : Distinct members) :
    get? members name = some value ↔ (name, value) ∈ members := by
  refine ⟨mem_of_get?, fun hmem => ?_⟩
  induction members with
  | nil => exact absurd hmem (by simp)
  | cons member members ih =>
      obtain ⟨n, v⟩ := member
      rw [get?_cons]
      obtain heq | htail := List.mem_cons.1 hmem
      · obtain ⟨rfl, rfl⟩ := Prod.mk.inj heq
        exact if_pos rfl
      · have hne : n ≠ name := by
          rintro rfl
          exact (List.nodup_cons.1 h).1 (List.mem_map.2 ⟨_, htail, rfl⟩)
        rw [if_neg hne]
        exact ih h.tail htail

/-- With no name there twice every pair counts. -/
theorem get?_ofList_of_distinct {pairs : List (String × Json)} (h : Distinct pairs)
    (name : String) : get? (ofList pairs) name = get? pairs name := by
  have hreverse : Distinct pairs.reverse := by
    rw [Distinct, List.map_reverse]
    exact List.pairwise_reverse.2 (h.imp Ne.symm)
  rw [get?_ofList]
  refine Option.ext fun value => ?_
  rw [get?_eq_some_iff h, ← List.mem_reverse]
  exact get?_eq_some_iff hreverse

/-- A name leads nowhere exactly if no member has it. -/
theorem get?_eq_none_iff : get? members name = none ↔ name ∉ members.map (·.1) := by
  induction members with
  | nil => simp
  | cons member members ih =>
      obtain ⟨n, v⟩ := member
      rw [get?_cons, List.map_cons, List.mem_cons, not_or]
      split_ifs with hn
      · simp [hn]
      · rw [ih]
        exact ⟨fun h => ⟨fun hname => hn hname.symm, h⟩, And.right⟩

/-- After inserting, there is the new member, and nothing else that was not there before. -/
theorem mem_insert {n : String} {v : Json} (h : (n, v) ∈ insert name value members) :
    (n, v) = (name, value) ∨ (n, v) ∈ members := by
  induction members with
  | nil => exact Or.inl (List.mem_singleton.1 h)
  | cons member members ih =>
      obtain ⟨n', v'⟩ := member
      rw [insert] at h
      split_ifs at h with hlt heq
      · exact List.mem_cons.1 h
      · obtain hnew | htail := List.mem_cons.1 h
        · exact Or.inl hnew
        · exact Or.inr (List.mem_cons_of_mem _ htail)
      · obtain hhead | htail := List.mem_cons.1 h
        · exact Or.inr (hhead ▸ List.mem_cons_self ..)
        · exact (ih htail).imp_right (List.mem_cons_of_mem _)

/-- **One member more keeps the order.** It is put where its name belongs, by the bytes of the
names. -/
theorem Sorted.insert (h : Sorted members) (name : String) (value : Json) :
    Sorted (insert name value members) := by
  induction members with
  | nil => exact List.pairwise_singleton ..
  | cons member members ih =>
      obtain ⟨n, v⟩ := member
      obtain ⟨hbefore, htail⟩ := List.pairwise_cons.1 h
      rw [Members.insert]
      split_ifs with hlt heq
      · refine List.pairwise_cons.2 ⟨fun member hmem => ?_, h⟩
        obtain rfl | hmem := List.mem_cons.1 hmem
        · exact hlt
        · exact hlt.trans (hbefore member hmem)
      · exact List.pairwise_cons.2 ⟨beq_iff_eq.1 heq ▸ hbefore, htail⟩
      · have hgt : n < name := lt_of_le_of_ne (not_lt.1 hlt) fun h => heq (beq_iff_eq.2 h.symm)
        refine List.pairwise_cons.2 ⟨fun member hmem => ?_, ih htail⟩
        obtain hnew | hmem := mem_insert hmem
        · exact (Prod.mk.inj hnew).1 ▸ hgt
        · exact hbefore member hmem

/-- Inserting members one after the other puts them into order. -/
theorem sorted_ofList (pairs : List (String × Json)) : Sorted (ofList pairs) := by
  refine List.foldlRecOn pairs _ List.Pairwise.nil fun members h pair _ => ?_
  exact h.insert pair.1 pair.2

end Members

/-- Items are ordered when each of them is. -/
theorem allOrdered_iff {items : List Json} : AllOrdered items ↔ ∀ v ∈ items, v.Ordered := by
  induction items with
  | nil => simp [AllOrdered]
  | cons v items ih => rw [AllOrdered, ih, List.forall_mem_cons]

/-- Members are ordered when each of their values is. -/
theorem membersOrdered_iff {members : List (String × Json)} :
    MembersOrdered members ↔ ∀ member ∈ members, member.2.Ordered := by
  induction members with
  | nil => simp [MembersOrdered]
  | cons member members ih => rw [MembersOrdered, ih, List.forall_mem_cons]

end Json
end ProcessKit
