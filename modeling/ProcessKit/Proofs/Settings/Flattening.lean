/-
# What a flattened document says

A leaf of a document is something other than a table that one name or more lead to. `leafPaths`
lists the leaves with their names in the order in which flattening comes upon them. That is all of
them (`mem_leafPaths`), in the order of the lists of names (`leafPaths_sorted`), so that of several
leaves with one dotted key the greatest is the one that counts (`layer_of_leaves`).

Leaves come to share a key when a name has a dot in it: `{"a": {"b": 1}, "a.b": 2}` has two leaves
and one key. Which of the two counts is settled by the order of the members, which are sorted by the
bytes of their names. Flattening goes through them in this order and a later leaf replaces an
earlier one, so it is the last leaf of a key that counts, and in a sorted list the last one is the
greatest.

The order of lists of names compares name by name, and not the joined keys: a dot in a name does not
weigh more than any other character. That texts and their bytes are in the same order is taken from
the module about the order of texts.
-/

import Mathlib.Data.List.Nodup
import ProcessKit.Proofs.Settings.Layers
import ProcessKit.Proofs.Text.Order

namespace ProcessKit

open Json (Members)

namespace Json

/-- What names lead to, each of them the name of a member. -/
def at? : Json → List String → Option Json
  | v, [] => some v
  | v, name :: path => (v.get? name).bind fun inner => inner.at? path

/-- **A leaf of a value:** something other than an object, that one name or more lead to. -/
structure IsLeaf (v : Json) (path : List String) (leaf : Json) : Prop where
  named : path ≠ []
  leads : v.at? path = some leaf
  plain : ∀ members, leaf ≠ .object members

end Json

namespace Settings

mutual

/-- What is no table in a value, with the names that lead to it, in order. -/
def leafPaths : Json → List (List String × Json)
  | .object members => memberPaths members
  | v => [([], v)]

/-- What is no table below some members, with the names that lead to it, in order. -/
def memberPaths : List (String × Json) → List (List String × Json)
  | [] => []
  | (name, v) :: rest =>
    (leafPaths v).map (fun (path, leaf) => (name :: path, leaf)) ++ memberPaths rest

end

/-- A dotted key can be written before or after its first segment is put in front: the segments are
joined by dots either way. -/
theorem intercalate_keyIn (table : Option String) (name : String) (path : List String) :
    ".".intercalate (keyIn table name :: path) =
      ".".intercalate (table.toList ++ name :: path) := by
  cases table with
  | none => rfl
  | some table => simp [keyIn, String.append_assoc]

mutual

/-- The leaves of a value, under their dotted keys, are its leaf paths joined by dots. So what is
known of the paths carries over to the keys. -/
theorem leaves_eq (key : String) (v : Json) :
    leaves key v = (leafPaths v).map fun (path, leaf) => (".".intercalate (key :: path), leaf) := by
  cases v with
  | object members => exact memberLeaves_eq (some key) members
  | _ => simp [leaves, leafPaths]

/-- **Flattening comes upon the leaves in this order,** and joins their names by dots. -/
theorem memberLeaves_eq (table : Option String) (members : List (String × Json)) :
    memberLeaves table members = (memberPaths members).map fun (path, leaf) =>
      (".".intercalate (table.toList ++ path), leaf) := by
  cases members with
  | nil => rfl
  | cons member rest =>
      obtain ⟨name, v⟩ := member
      rw [memberLeaves, memberPaths, List.map_append, List.map_map, memberLeaves_eq table rest,
        leaves_eq]
      simp only [intercalate_keyIn]
      rfl

end

/-- A leaf path of a table starts with the name of a member, and goes on with a leaf path of that
one. -/
theorem mem_memberPaths {members : List (String × Json)} {path : List String} {leaf : Json} :
    (path, leaf) ∈ memberPaths members ↔
      ∃ name rest v, path = name :: rest ∧ (name, v) ∈ members ∧ (rest, leaf) ∈ leafPaths v := by
  induction members with
  | nil => simp [memberPaths]
  | cons member members ih =>
      obtain ⟨n, w⟩ := member
      rw [memberPaths, List.mem_append, ih]
      constructor
      · rintro (h | ⟨name, rest, v, rfl, hmem, hleaf⟩)
        · obtain ⟨⟨rest, leaf'⟩, hleaf, heq⟩ := List.mem_map.1 h
          obtain ⟨rfl, rfl⟩ := Prod.mk.inj heq
          exact ⟨n, rest, w, rfl, List.mem_cons_self .., hleaf⟩
        · exact ⟨name, rest, v, rfl, List.mem_cons_of_mem _ hmem, hleaf⟩
      · rintro ⟨name, rest, v, rfl, hmem, hleaf⟩
        obtain heq | hmem := List.mem_cons.1 hmem
        · obtain ⟨rfl, rfl⟩ := Prod.mk.inj heq
          exact Or.inl (List.mem_map.2 ⟨(rest, leaf), hleaf, rfl⟩)
        · exact Or.inr ⟨name, rest, v, rfl, hmem, hleaf⟩

/-- **All leaves are listed,** and nothing else. A leaf is what names lead to and is no table, so
empty tables have none. -/
theorem mem_leafPaths {v : Json} (h : v.Ordered) {path : List String} {leaf : Json} :
    (path, leaf) ∈ leafPaths v ↔
      v.at? path = some leaf ∧ ∀ members, leaf ≠ .object members := by
  induction path generalizing v with
  | nil =>
      cases v with
      | object members =>
          simp only [leafPaths, mem_memberPaths, Json.at?]
          constructor
          · rintro ⟨name, rest, v, heq, -⟩
            exact absurd heq (by simp)
          · rintro ⟨heq, hplain⟩
            exact absurd (Option.some.inj heq).symm (hplain members)
      | _ => simp +contextual [leafPaths, Json.at?, eq_comm]
  | cons name path ih =>
      cases v with
      | object members =>
          obtain ⟨hsorted, hmembers⟩ := h
          simp only [leafPaths, mem_memberPaths, Json.at?, Json.get?, Option.bind_eq_some_iff,
            Members.get?_eq_some_iff hsorted.distinct]
          constructor
          · rintro ⟨_, _, v, heq, hmem, hleaf⟩
            obtain ⟨rfl, rfl⟩ := List.cons.inj heq
            obtain ⟨hleads, hplain⟩ := (ih (Json.membersOrdered_iff.1 hmembers _ hmem)).1 hleaf
            exact ⟨⟨v, hmem, hleads⟩, hplain⟩
          · rintro ⟨⟨v, hmem, hleads⟩, hplain⟩
            exact ⟨name, path, v, rfl, hmem,
              (ih (Json.membersOrdered_iff.1 hmembers _ hmem)).2 ⟨hleads, hplain⟩⟩
      | _ => simp [leafPaths, Json.at?, Json.get?]

mutual

/-- The leaf paths of an ordered value come in the order of their segments, so none comes twice. -/
theorem leafPaths_sorted {v : Json} (h : v.Ordered) :
    (leafPaths v).Pairwise fun a b => a.1 < b.1 := by
  cases v with
  | object members => exact memberPaths_sorted h.1 h.2
  | _ => exact List.pairwise_singleton ..

/-- **The leaves are listed in the order of their names,** since members are sorted by name: first
by the name of the member, and below one member by what follows. -/
theorem memberPaths_sorted {members : List (String × Json)} (h : Members.Sorted members)
    (hmembers : Json.MembersOrdered members) :
    (memberPaths members).Pairwise fun a b => a.1 < b.1 := by
  cases members with
  | nil => exact List.Pairwise.nil
  | cons member rest =>
      obtain ⟨name, v⟩ := member
      obtain ⟨hfirst, hrest⟩ := List.pairwise_cons.1 h
      rw [memberPaths, List.pairwise_append]
      refine ⟨?_, memberPaths_sorted hrest hmembers.2, ?_⟩
      · refine List.pairwise_map.2 ((leafPaths_sorted hmembers.1).imp fun hlt => ?_)
        exact List.cons_lt_cons_iff.2 (Or.inr ⟨rfl, hlt⟩)
      · rintro _ hfront ⟨_, leaf'⟩ hback
        obtain ⟨⟨path, leaf⟩, -, rfl⟩ := List.mem_map.1 hfront
        obtain ⟨later, path', w, rfl, hmem, -⟩ := mem_memberPaths.1 hback
        exact List.cons_lt_cons_iff.2 (Or.inl (hfirst _ hmem))

end

/-- **In a list in strict order,** the last item of a kind is the greatest of that kind. It is found
first from the end. -/
theorem find?_reverse_eq_some_iff {α β : Type} [LinearOrder α] {items : List (α × β)}
    (h : items.Pairwise fun a b => a.1 < b.1) (p : α × β → Bool) (x : α × β) :
    items.reverse.find? p = some x ↔
      x ∈ items ∧ p x = true ∧ ∀ item ∈ items, p item = true → item.1 ≤ x.1 := by
  have hgreatest {x item : α × β} (hfind : items.reverse.find? p = some x) (hitem : item ∈ items)
      (hp : p item = true) : item.1 ≤ x.1 := by
    obtain ⟨-, later, earlier, hsplit, hlater⟩ := List.find?_eq_some_iff_append.1 hfind
    have hsorted := List.pairwise_reverse.2 h
    rw [hsplit, List.pairwise_append] at hsorted
    rw [← List.mem_reverse, hsplit] at hitem
    obtain hmem | hmem := List.mem_append.1 hitem
    · exact absurd hp (by simpa using hlater item hmem)
    · obtain rfl | hmem := List.mem_cons.1 hmem
      · exact le_rfl
      · exact ((List.pairwise_cons.1 hsorted.2.1).1 item hmem).le
  constructor
  · intro hfind
    exact ⟨List.mem_reverse.1 (List.mem_of_find?_eq_some hfind), List.find?_some hfind,
      fun item hitem hp => hgreatest hfind hitem hp⟩
  · rintro ⟨hmem, hp, hle⟩
    obtain ⟨y, hfind⟩ := Option.isSome_iff_exists.1
      (List.find?_isSome.2 ⟨x, List.mem_reverse.2 hmem, hp⟩)
    have hmem' := List.mem_reverse.1 (List.mem_of_find?_eq_some hfind)
    have hsame : y.1 = x.1 :=
      le_antisymm (hle y hmem' (List.find?_some hfind)) (hgreatest hfind hmem hp)
    -- No two items of the list are equal in what orders them.
    have hnodup : (items.map (·.1)).Nodup := List.pairwise_map.2 (h.imp ne_of_lt)
    exact hfind.trans (congrArg some (List.inj_on_of_nodup_map hnodup hmem' hmem hsame))

/-- A key has the value of the last leaf whose names make up the key. -/
theorem get?_flatten_paths (members : Members) (key : String) :
    (flatten members).get? key = ((memberPaths members).reverse.find?
      fun (path, _) => ".".intercalate path == key).map (·.2) := by
  rw [get?_flatten, memberLeaves_eq, ← List.map_reverse, List.find?_map, Option.map_map]
  rfl

section

variable {members : Members} (h : (Json.object members).Ordered)

include h

/-- What a leaf of a table is, said by the list of them: the paths that the flattening runs through
are the leaf paths and no others. -/
theorem isLeaf_iff {path : List String} {leaf : Json} :
    (Json.object members).IsLeaf path leaf ↔ (path, leaf) ∈ memberPaths members := by
  rw [← leafPaths, mem_leafPaths h]
  constructor
  · exact fun hleaf => ⟨hleaf.leads, hleaf.plain⟩
  · rintro ⟨hleads, hplain⟩
    refine ⟨?_, hleads, hplain⟩
    rintro rfl
    exact hplain members (Option.some.inj hleads).symm

/-- **A key is there** when the names of a leaf make it up, joined by dots. More than one leaf may
do so. -/
theorem exists_get?_flatten_iff {key : String} :
    (∃ v, (flatten members).get? key = some v) ↔
      ∃ path leaf, (Json.object members).IsLeaf path leaf ∧ ".".intercalate path = key := by
  rw [get?_flatten_paths]
  simp only [← Option.isSome_iff_exists, Option.isSome_map, List.find?_isSome, List.mem_reverse,
    Prod.exists, beq_iff_eq, isLeaf_iff h]

/-- **It has the value of the greatest** of these leaves, in the order of the lists of names. -/
theorem get?_flatten_eq_some_iff {key : String} {v : Json} :
    (flatten members).get? key = some v ↔
      ∃ path, (Json.object members).IsLeaf path v ∧ ".".intercalate path = key ∧
        ∀ path' v', (Json.object members).IsLeaf path' v' → ".".intercalate path' = key →
          path' ≤ path := by
  have hlast := find?_reverse_eq_some_iff (memberPaths_sorted h.1 h.2)
    fun (path, _) => ".".intercalate path == key
  simp only [get?_flatten_paths, Option.map_eq_some_iff, hlast, isLeaf_iff h, beq_iff_eq,
    Prod.exists, Prod.forall]
  constructor
  · rintro ⟨path, leaf, hpath, rfl⟩
    exact ⟨path, hpath⟩
  · rintro ⟨path, hpath⟩
    exact ⟨path, v, hpath, rfl⟩

/-- A leaf is not lost when no other one has its dotted key. -/
theorem get?_flatten_of_unique {path : List String} {leaf : Json}
    (hleaf : (Json.object members).IsLeaf path leaf)
    (hunique : ∀ path' leaf', (Json.object members).IsLeaf path' leaf' →
      ".".intercalate path' = ".".intercalate path → path' = path) :
    (flatten members).get? (".".intercalate path) = some leaf :=
  (get?_flatten_eq_some_iff h).2 ⟨path, hleaf, rfl, fun path' leaf' hleaf' heq =>
    (hunique path' leaf' hleaf' heq).le⟩

end

/-- **What the layer of a document holds.** Pushing a document puts one layer on top of those that
are there, with every key once. In it

* a key has a value exactly if the names of a leaf, joined by dots, make it up;
* its value is that of the greatest such leaf, in the order of the lists of names, where names are
  compared by their bytes;
* so a leaf counts if no other one has its dotted key;
* no value is an object.

What is no object is a leaf, however it is made up, so that an array is kept whole. An empty object
is none and holds none. -/
theorem layer_of_leaves (settings : Settings) {members : Members}
    (h : (Json.object members).Ordered) :
    let document := Json.object members
    ∃ layer : Members, settings.pushDocument document = .ok ⟨layer :: settings.layers⟩ ∧
      layer.Sorted ∧
      (∀ key, (∃ v, layer.get? key = some v) ↔
        ∃ path leaf, document.IsLeaf path leaf ∧ ".".intercalate path = key) ∧
      (∀ key v, layer.get? key = some v ↔
        ∃ path, document.IsLeaf path v ∧ ".".intercalate path = key ∧
          ∀ path' leaf, document.IsLeaf path' leaf → ".".intercalate path' = key →
            path'.map Utf8.encode ≤ path.map Utf8.encode) ∧
      (∀ path leaf, document.IsLeaf path leaf →
        (∀ path' leaf', document.IsLeaf path' leaf' →
          ".".intercalate path' = ".".intercalate path → path' = path) →
        layer.get? (".".intercalate path) = some leaf) ∧
      ∀ key v, layer.get? key = some v → ∀ inner, v ≠ .object inner := by
  intro document
  have hbytes {path path' : List String} :
      path'.map Utf8.encode ≤ path.map Utf8.encode ↔ path' ≤ path :=
    (not_congr Utf8.map_encode_lt_map_encode_iff).trans not_lt
  refine ⟨flatten members, rfl, ?_, fun key => exists_get?_flatten_iff h, fun key v => ?_,
    fun path leaf => get?_flatten_of_unique h, fun key v hv => ?_⟩
  · exact flatten_eq members ▸ Members.sorted_ofList _
  · simp only [hbytes]
    exact get?_flatten_eq_some_iff h
  · obtain ⟨path, hleaf, -⟩ := (get?_flatten_eq_some_iff h).1 hv
    exact hleaf.plain

/-- A document in which `a.b` is told twice, by a table and by a name with a dot. -/
def dottedDocument : Members :=
  [("a", .object [("b", .bool false), ("c", .array [.object [("b", .null)]])]),
    ("a.b", .bool true), ("d", .object [])]

/-- The name with the dot counts, the array stays whole, and there is no key for the empty table. -/
theorem dottedDocument_layer :
    ∃ layer : Members, ({} : Settings).pushDocument (.object dottedDocument) = .ok ⟨[layer]⟩ ∧
      layer.get? "a.b" = some (.bool true) ∧
      layer.get? "a.c" = some (.array [.object [("b", .null)]]) ∧
      ¬ ∃ v, layer.get? "d" = some v := by
  have hordered : (Json.object dottedDocument).Ordered := by
    simp only [dottedDocument, Json.Ordered, Json.MembersOrdered, Json.AllOrdered, Members.Sorted,
      String.lt_iff_toList_lt]
    decide
  have hleaves (path : List String) (leaf : Json) :
      (Json.object dottedDocument).IsLeaf path leaf ↔ path = ["a", "b"] ∧ leaf = .bool false ∨
        path = ["a", "c"] ∧ leaf = .array [.object [("b", .null)]] ∨
        path = ["a.b"] ∧ leaf = .bool true := by
    rw [isLeaf_iff hordered]
    simp [dottedDocument, memberPaths, leafPaths]
  obtain ⟨layer, hpush, -, hkeys, hvalues, hunique, -⟩ := layer_of_leaves {} hordered
  simp only [hleaves] at hkeys hvalues hunique
  refine ⟨layer, hpush, (hvalues _ _).2 ⟨["a.b"], ?_⟩, hunique ["a", "c"] _ ?_ ?_, ?_⟩
  · refine ⟨by simp, by simp, ?_⟩
    rintro path' leaf (⟨rfl, -⟩ | ⟨rfl, -⟩ | ⟨rfl, -⟩) hkey
    · decide
    · exact absurd hkey (by decide)
    · decide
  · simp
  · rintro path' leaf (⟨rfl, -⟩ | ⟨rfl, -⟩ | ⟨rfl, -⟩) hkey
    · exact absurd hkey (by decide)
    · rfl
    · exact absurd hkey (by decide)
  · rw [hkeys]
    rintro ⟨path, leaf, ⟨rfl, -⟩ | ⟨rfl, -⟩ | ⟨rfl, -⟩, hkey⟩
    · exact absurd hkey (by decide)
    · exact absurd hkey (by decide)
    · exact absurd hkey (by decide)

end Settings
end ProcessKit
