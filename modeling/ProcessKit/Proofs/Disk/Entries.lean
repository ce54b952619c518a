/-
# What a disk holds after a change

`Disk.get?` sees a disk as a map from places to entries, and each change of a disk is one equation
about that view: an entry is set at one place (`get?_set`), a tree is gone (`get?_eraseTree`), or a
tree is at another place (`get?_moveTree`). `Disk.tree` is the part of the view at and below a
place.

Each operation that a cache needs is put together from these three, so the proofs about operations
work with the view alone. The list may hold a place more than once, in which case the first entry
counts; setting one takes out the others, and so do erasing and moving. The root is no entry of the
list. It is always there (`get?_nil`), which is why the equations ask for a place other than the
root.

`moved` says where a place of a moved tree comes to be, and `moved_append` that the names below the
source stay as they are. `IsDir`, `IsFile` and `Unlinked` are what the later statements say about a
single place.
-/

import Mathlib.Tactic.SplitIfs
import ProcessKit.Disk.Basic

namespace ProcessKit
namespace Disk

variable {disk disk' : Disk} {place source target : Place}

/-- What a disk holds at and below a place, by the way from that place. -/
def tree (disk : Disk) (place : Place) : Place → Option Entry := fun rel => disk.get? (place ++ rel)

/-- Whether a place holds a directory. -/
def IsDir (disk : Disk) (place : Place) : Prop := ∃ mode, disk.get? place = some (.dir mode)

/-- Whether a place holds a file. -/
def IsFile (disk : Disk) (place : Place) : Prop :=
  ∃ bytes mode, disk.get? place = some (.file bytes mode)

/-- Whether a place holds no symbolic link. -/
def Unlinked (disk : Disk) (place : Place) : Prop :=
  ∀ target, disk.get? place ≠ some (.link target)

/-- The root of a tree is at the place of the tree. -/
theorem tree_nil (disk : Disk) (place : Place) : disk.tree place [] = disk.get? place :=
  congrArg disk.get? (List.append_nil place)

/-- **A way into a tree** starts with a name, and goes on from the entry of that name. -/
theorem tree_cons (disk : Disk) (place : Place) (name : String) (rel : Place) :
    disk.tree place (name :: rel) = disk.tree (place ++ [name]) rel := by
  rw [tree, tree, List.append_assoc, List.singleton_append]

/-- **What is at the root of a tree** is part of it, so equal trees have the same there, at whatever
places they are. -/
theorem get?_of_tree (h : disk'.tree target = disk.tree source) :
    disk'.get? target = disk.get? source := by
  rw [← tree_nil, h, tree_nil]

/-- A directory stays one where its tree stays the same. -/
theorem IsDir.of_tree (h : disk.IsDir source) (htree : disk'.tree target = disk.tree source) :
    disk'.IsDir target := by
  rw [IsDir, get?_of_tree htree]
  exact h

/-- A directory is not a symbolic link, so nothing leads away from it. -/
theorem IsDir.unlinked (h : disk.IsDir place) : disk.Unlinked place := by
  obtain ⟨mode, hmode⟩ := h
  intro target hlink
  rw [hmode] at hlink
  exact absurd (Option.some.inj hlink) (by simp)

/-- A file is not a symbolic link either. -/
theorem IsFile.unlinked (h : disk.IsFile place) : disk.Unlinked place := by
  obtain ⟨bytes, mode, hmode⟩ := h
  intro target hlink
  rw [hmode] at hlink
  exact absurd (Option.some.inj hlink) (by simp)

/-- The root directory is always there. -/
theorem get?_nil (disk : Disk) : disk.get? [] = some (.dir .newDir) := rfl

/-- Apart from the root, which is always there, an entry is what the list of entries has for its
place. -/
theorem get?_of_ne (h : place ≠ []) : disk.get? place = disk.entries.lookup place := if_neg h

/-- **A disk without links** has none at any place. -/
theorem unlinked_of_entries (h : ∀ item ∈ disk.entries, ∀ target, item.2 ≠ .link target)
    (place : Place) : disk.Unlinked place := by
  intro target hlink
  by_cases hnil : place = []
  · rw [hnil, get?_nil] at hlink
    exact absurd (Option.some.inj hlink) (by simp)
  · rw [get?_of_ne hnil, List.lookup_eq_some_iff] at hlink
    obtain ⟨front, rest, hentries, -⟩ := hlink
    exact h (place, .link target) (by rw [hentries]; simp) target rfl

/-- Leaving out entries leaves out the places that the test refuses. -/
theorem lookup_filter (f : Place → Bool) (entries : List (Place × Entry)) (p : Place) :
    (entries.filter fun item => f item.1).lookup p = if f p then entries.lookup p else none := by
  induction entries with
  | nil => split_ifs <;> rfl
  | cons item entries ih =>
      obtain ⟨q, e⟩ := item
      rw [List.filter_cons, List.lookup_cons]
      by_cases hq : p = q
      · subst hq
        split_ifs with hf
        · rw [List.lookup_cons, beq_self_eq_true]
        · rw [ih, if_neg hf]
      · have hb : (p == q) = false := beq_eq_false_iff_ne.2 hq
        split_ifs with hf hp hp
        · rw [List.lookup_cons, hb, ih, if_pos hp]
        · rw [List.lookup_cons, hb, ih, if_neg hp]
        · rw [hb, ih, if_pos hp]
        · rw [ih, if_neg hp]

/-- **An entry set at a place** changes nothing anywhere else. What was there before is taken out of
the list, so that it cannot come back. -/
theorem get?_set (h : place ≠ []) (entry : Entry) (p : Place) :
    (disk.set place entry).get? p = if p = place then some entry else disk.get? p := by
  by_cases hp : p = place
  · subst hp
    rw [if_pos rfl, get?_of_ne h, set, List.lookup_cons, beq_self_eq_true]
  · rw [if_neg hp]
    by_cases hnil : p = []
    · rw [hnil, get?_nil, get?_nil]
    · rw [get?_of_ne hnil, get?_of_ne hnil, set, List.lookup_cons, beq_eq_false_iff_ne.2 hp]
      exact (lookup_filter (· != place) disk.entries p).trans (if_pos (bne_iff_ne.2 hp))

/-- The test that the removals and renames use says no where the place is not below the other one.
-/
theorem isPrefixOf_eq_false {p q : Place} (h : ¬ p <+: q) : p.isPrefixOf q = false := by
  rw [← Bool.not_eq_true, List.isPrefixOf_iff_prefix]
  exact h

/-- **A tree erased** takes exactly what is at and below its place. Places whose text begins in the
same way are not below it: a place is a list of names. -/
theorem get?_eraseTree (h : place ≠ []) (p : Place) :
    (disk.eraseTree place).get? p = if place <+: p then none else disk.get? p := by
  by_cases hnil : p = []
  · rw [hnil, get?_nil, get?_nil, if_neg (fun hp => h (List.prefix_nil.1 hp))]
  · rw [get?_of_ne hnil, get?_of_ne hnil]
    refine (lookup_filter (fun q => !place.isPrefixOf q) disk.entries p).trans ?_
    by_cases hp : place <+: p
    · rw [if_pos hp, List.isPrefixOf_iff_prefix.2 hp]
      rfl
    · rw [if_neg hp, isPrefixOf_eq_false hp]
      rfl

/-- Renaming keys finds under a new key what the one old key of it had. -/
theorem lookup_map {f : Place → Place} {entries : List (Place × Entry)} {p q : Place}
    (h : ∀ item ∈ entries, f item.1 = q ↔ item.1 = p) :
    (entries.map fun item => (f item.1, item.2)).lookup q = entries.lookup p := by
  induction entries with
  | nil => rfl
  | cons item entries ih =>
      have hitem : (q == f item.1) = (p == item.1) := by
        rw [Bool.eq_iff_iff, beq_iff_eq, beq_iff_eq, eq_comm, h item List.mem_cons_self, eq_comm]
      rw [List.map_cons, List.lookup_cons, hitem, ih fun i hi => h i (List.mem_cons_of_mem _ hi),
        List.lookup_cons]

/-- Where a place goes when a tree is moved. -/
def moved (source target p : Place) : Place :=
  if source <+: p then target ++ p.drop source.length else p

/-- A rename carries each place of the source's tree to the same place of the target's. -/
theorem moved_append (source target rel : Place) :
    moved source target (source ++ rel) = target ++ rel := by
  rw [moved, if_pos (List.prefix_append source rel), List.drop_left]

/-- **A tree moved** is at its new place, in the place of all that was there, and no longer at its
old one. Everything else stays. -/
theorem get?_moveTree (hs : source ≠ []) (ht : target ≠ []) (p : Place) :
    (disk.moveTree source target).get? p =
      if target <+: p then disk.get? (source ++ p.drop target.length)
      else if source <+: p then none else disk.get? p := by
  have hentries : (disk.moveTree source target).entries =
      (disk.entries.filter fun item => source.isPrefixOf item.1 || !target.isPrefixOf item.1).map
        fun item => (moved source target item.1, item.2) := by
    refine List.map_congr_left fun item _ => ?_
    by_cases h : source <+: item.1
    · simp [moved, h]
    · simp [moved, h]
  have hkept : ∀ item ∈ disk.entries.filter fun item =>
      source.isPrefixOf item.1 || !target.isPrefixOf item.1, target <+: item.1 →
        source <+: item.1 := by
    intro item hi hp
    have hf := (List.mem_filter.1 hi).2
    rw [List.isPrefixOf_iff_prefix.2 hp, Bool.not_true, Bool.or_false] at hf
    exact List.isPrefixOf_iff_prefix.1 hf
  have hfilter := lookup_filter (fun p => source.isPrefixOf p || !target.isPrefixOf p) disk.entries
  by_cases hnil : p = []
  · rw [hnil, get?_nil, get?_nil, if_neg (fun hp => ht (List.prefix_nil.1 hp)),
      if_neg (fun hp => hs (List.prefix_nil.1 hp))]
  rw [get?_of_ne hnil, hentries]
  split_ifs with hp hq
  · obtain ⟨rel, rfl⟩ := hp
    rw [List.drop_left, get?_of_ne (List.append_ne_nil_of_left_ne_nil hs rel), lookup_map, hfilter,
      if_pos (by rw [List.isPrefixOf_iff_prefix.2 (List.prefix_append source rel), Bool.true_or])]
    intro item hi
    refine ⟨fun h => ?_, fun h => by rw [h, moved_append]⟩
    by_cases hsource : source <+: item.1
    · obtain ⟨rel', hrel⟩ := hsource
      rw [← hrel, moved_append] at h
      rw [← hrel, List.append_cancel_left h]
    · rw [moved, if_neg hsource] at h
      exact absurd (hkept item hi (h ▸ List.prefix_append target rel)) hsource
  · refine List.lookup_eq_none_iff.2 fun item hi => bne_iff_ne.2 fun h => ?_
    obtain ⟨item', -, rfl⟩ := List.mem_map.1 hi
    rw [moved] at h
    split_ifs at h with hsource
    · exact hp (h ▸ List.prefix_append target _)
    · exact hsource (h ▸ hq)
  · rw [get?_of_ne hnil, lookup_map, hfilter, isPrefixOf_eq_false hp, Bool.not_false, Bool.or_true,
      if_pos rfl]
    intro item _
    refine ⟨fun h => ?_, fun h => by rw [moved, h, if_neg hq]⟩
    rw [moved] at h
    split_ifs at h with hsource
    · exact absurd (h ▸ List.prefix_append target _) hp
    · exact h

/-- **The names in a directory** are those at which there is something. The list that they are taken
from may name one more than once. -/
theorem mem_children {name : String} :
    name ∈ disk.children place ↔ disk.get? (place ++ [name]) ≠ none := by
  rw [get?_of_ne (List.append_ne_nil_of_right_ne_nil place (List.cons_ne_nil name [])), children,
    List.mem_filterMap]
  constructor
  · rintro ⟨⟨p, e⟩, hitem, hlast⟩ hnone
    rw [List.lookup_eq_none_iff] at hnone
    refine bne_iff_ne.1 (hnone _ hitem) ?_
    dsimp only at hlast
    split_ifs at hlast with hc
    rw [Bool.and_eq_true, decide_eq_true_iff, List.isPrefixOf_iff_prefix] at hc
    obtain ⟨hlen, rel, rfl⟩ := hc
    rw [List.length_append, Nat.add_left_cancel_iff] at hlen
    obtain ⟨last, rfl⟩ := List.length_eq_one_iff.1 hlen
    rw [List.getLast?_concat] at hlast
    rw [Option.some.inj hlast]
  · intro hthere
    obtain ⟨e, he⟩ := Option.ne_none_iff_exists'.1 hthere
    obtain ⟨front, rest, hentries, -⟩ := List.lookup_eq_some_iff.1 he
    exact ⟨(place ++ [name], e), by rw [hentries]; simp, by simp⟩

/-- **A directory is empty** when there is nothing at any name in it. -/
theorem children_isEmpty :
    (disk.children place).isEmpty = true ↔ ∀ name, disk.get? (place ++ [name]) = none := by
  rw [List.isEmpty_iff, List.eq_nil_iff_forall_not_mem]
  exact forall_congr' fun name => by rw [mem_children, Classical.not_not]

end Disk
end ProcessKit
