/-
# Removing a tree

A removal goes through a tree from the leaves to the root and stops where permission bits refuse
it. `Disk.Removable` says of which trees nothing refuses it, in terms of the bits alone: every
directory in the tree may be listed, and every directory that something is taken out of may be
changed, the one that the tree is in among them.

* `removeTree_eq_true_iff`: exactly such a tree is removed. What the bound on the depth does to
  `Disk.removeTree` is gone with this lemma, since no way on a disk is longer than `Disk.height`.
* `removeTree_of_true`: then the tree is gone, and everything else is as it was.
* `within_removeTree`: otherwise the place stays what it was, and at most something below it is
  gone.
* `not_removable_removeTree`: what a refused removal leaves cannot be removed either. A second
  attempt meets the same refusal.

Whether a tree can be removed is a matter of the tree and of the directory that it is in
(`Removable.congr`), not of the order in which a disk lists the names in a directory. How much a
refused removal takes away is a matter of that order, which is any order here.
-/

import ProcessKit.Disk.Operations
import ProcessKit.Proofs.Disk.Growing

namespace ProcessKit

/-- Whoever may change a directory may search it: the bits of the one right are among those of the
other. -/
theorem Mode.grants_search {mode : Mode} (h : mode.grants .change = true) :
    mode.grants .search = true := by
  rw [grants, beq_iff_eq] at h ⊢
  calc (mode >>> 6) &&& 0b001 = ((mode >>> 6) &&& 0b011) &&& 0b001 :=
        (Nat.and_assoc (mode >>> 6) 0b011 0b001).symm
    _ = 0b011 &&& 0b001 := congrArg (· &&& 0b001) h
    _ = 0b001 := rfl

namespace Disk

variable {disk disk' : Disk} {place p : Place} {name : String} {mode : Mode} {fuel : Nat}

/-- A directory grants a right through its bits. -/
theorem permits_of_get? (h : disk.get? place = some (.dir mode)) (right : Right) :
    disk.permits right place = mode.grants right := by
  rw [permits, h]

/-- What a directory permits is read off its own entry. -/
theorem permits_congr (h : disk'.get? place = disk.get? place) (right : Right) :
    disk'.permits right place = disk.permits right place := by
  rw [permits, permits, h]

/-- Where entries may be put and taken out, names may be looked up. -/
theorem permits_search (h : disk.permits .change place = true) :
    disk.permits .search place = true := by
  rw [permits] at h ⊢
  split at h
  · exact Mode.grants_search h
  · exact absurd h Bool.false_ne_true

/-- **What a removal meets** is a directory, which it has to go into, or anything else, which it
takes out at once. -/
theorem leaf_or_dir (hthere : disk.get? place ≠ none) :
    (∃ e, disk.get? place = some e ∧ ∀ mode, e ≠ .dir mode) ∨ disk.IsDir place := by
  obtain ⟨e, he⟩ := Option.ne_none_iff_exists'.1 hthere
  cases e with
  | dir mode => exact Or.inr ⟨mode, he⟩
  | file | link | device => exact Or.inl ⟨_, he, nofun⟩

/-- **What can be removed:** nothing in the tree at a place, nor the directory that the place is in,
refuses it. -/
inductive Removable (disk : Disk) : Place → Prop
  /-- A file, a link or a device is taken out of the directory that it is in. -/
  | leaf {place : Place} {e : Entry} (h : disk.get? place = some e) (hleaf : ∀ mode, e ≠ .dir mode)
      (hparent : disk.permits .change place.dropLast = true) : Removable disk place
  /-- A directory is listed, all that is in it is removed, and then it is taken out itself. -/
  | dir {place : Place} {mode : Mode} (h : disk.get? place = some (.dir mode))
      (hlist : mode.grants .list = true)
      (hparent : disk.permits .change place.dropLast = true)
      (hbelow : ∀ name, disk.get? (place ++ [name]) ≠ none → Removable disk (place ++ [name])) :
      Removable disk place

/-- Whatever can be removed is in a directory that may be changed. -/
theorem Removable.permits (h : disk.Removable place) :
    disk.permits .change place.dropLast = true := by
  cases h with
  | leaf _ _ hparent => exact hparent
  | dir _ _ hparent => exact hparent

/-- A directory that can be removed may be listed, and what is in it can be removed. -/
theorem Removable.of_dir (h : disk.Removable place) (hdir : disk.get? place = some (.dir mode)) :
    mode.grants .list = true ∧
      ∀ name, disk.get? (place ++ [name]) ≠ none → disk.Removable (place ++ [name]) := by
  cases h with
  | leaf he hleaf => exact absurd (Option.some.inj (he.symm.trans hdir)) (hleaf mode)
  | dir he hlist _ hbelow =>
      obtain rfl := Entry.dir.inj (Option.some.inj (he.symm.trans hdir))
      exact ⟨hlist, hbelow⟩

/-- **Whether a tree can be removed** depends on the tree and on the directory that it is in. By
induction on how it can be: every directory of the tree is looked at, and the one above. -/
theorem Removable.congr (h : disk.Removable place)
    (htree : disk'.tree place = disk.tree place)
    (hparent : disk'.permits .change place.dropLast = disk.permits .change place.dropLast) :
    disk'.Removable place := by
  induction h with
  | @leaf place e he hleaf hp =>
      exact .leaf ((get?_of_tree htree).trans he) hleaf (hparent.trans hp)
  | @dir place mode he hlist hp _ ih =>
      have hroot := get?_of_tree htree
      refine .dir (hroot.trans he) hlist (hparent.trans hp) fun name hthere => ?_
      have hname : disk'.get? (place ++ [name]) = disk.get? (place ++ [name]) :=
        congrFun htree [name]
      refine ih name (hname ▸ hthere) (funext fun rel => ?_) ?_
      · rw [← tree_cons, htree, tree_cons]
      · rw [List.dropLast_concat]
        exact permits_congr hroot .change

/-- **A directory that was to be removed is gone,** with all that was below it, or it is still there
and cannot be removed. -/
def Discarded (disk : Disk) (place : Place) : Prop :=
  (∀ rel, disk.tree place rel = none) ∨ disk.IsDir place ∧ ¬ disk.Removable place

/-- Whether a directory is gone, or cannot be removed, depends on the tree and on the directory that
it is in. -/
theorem Discarded.congr (h : disk.Discarded place) (htree : disk'.tree place = disk.tree place)
    (hparent : disk'.permits .change place.dropLast = disk.permits .change place.dropLast) :
    disk'.Discarded place := by
  obtain hgone | ⟨hdir, hkept⟩ := h
  · exact Or.inl fun rel => (congrFun htree rel).trans (hgone rel)
  · exact Or.inr ⟨hdir.of_tree htree,
      fun hremovable => hkept (hremovable.congr htree.symm hparent.symm)⟩

/-! ### What a removal leaves alone -/

/-- An entry of a directory is not above the directory. -/
theorem child_not_above (place : Place) (name : String) : ¬ place ++ [name] <+: place := by
  intro h
  have hle := h.length_le
  rw [List.length_append, List.length_singleton] at hle
  omega

/-- Erasing a tree and then one around it is erasing the tree around it. -/
theorem eraseTree_eraseTree (h : place <+: p) :
    (disk.eraseTree p).eraseTree place = disk.eraseTree place := by
  rw [eraseTree, eraseTree, eraseTree, List.filter_filter]
  congr 2
  funext item
  change (!place.isPrefixOf item.1 && !p.isPrefixOf item.1) = !place.isPrefixOf item.1
  by_cases hplace : place.isPrefixOf item.1 = true
  · rw [hplace]
    rfl
  · have hp : p.isPrefixOf item.1 = false := isPrefixOf_eq_false fun hp =>
      hplace (List.isPrefixOf_iff_prefix.2 (h.trans hp))
    rw [hp, Bool.not_false, Bool.and_true]

/-- Erasing a tree adds nothing. -/
theorem grows_eraseTree (disk : Disk) (place : Place) : Grows (disk.eraseTree place) disk := by
  refine ⟨rfl, fun p e he => ?_⟩
  by_cases hnil : p = []
  · rw [hnil] at he ⊢
    exact he
  · rw [get?_of_ne hnil] at he ⊢
    have hfilter := lookup_filter (fun p => !place.isPrefixOf p) disk.entries p
    rw [show (disk.eraseTree place).entries.lookup p = _ from hfilter] at he
    split_ifs at he
    exact he

section

variable {I : Disk → Prop}

/-- What taking a place out keeps, if erasing the tree there does. -/
theorem unlink_keeps (h : I disk → I (disk.eraseTree place)) (hI : I disk) :
    I (disk.unlink place).2 := by
  rw [unlink]
  split_ifs
  · exact h hI
  · exact hI

/-- What removing one entry of a directory keeps, removing several of them keeps. -/
theorem removeEach_keeps {remove : Disk → Place → Bool × Disk}
    (h : ∀ disk name, I disk → I (remove disk (place ++ [name])).2) (names : List String)
    (hI : I disk) : I (removeEach remove place names disk).2 := by
  induction names generalizing disk with
  | nil => exact hI
  | cons name names ih =>
      have hone := h disk name hI
      rw [removeEach]
      cases hremove : remove disk (place ++ [name]) with
      | mk removed next =>
          rw [hremove] at hone
          cases removed with
          | true => exact ih hone
          | false => exact hone

/-- **A removal erases trees at and below its place,** and does nothing else. What each of these
steps keeps, the removal keeps, however far it comes. -/
theorem removeTree_keeps (h : ∀ disk p, place <+: p → I disk → I (disk.eraseTree p)) (fuel : Nat)
    (hI : I disk) : I (disk.removeTree fuel place).2 := by
  induction fuel generalizing disk place with
  | zero => exact hI
  | succ fuel ih =>
      have heach : I (removeEach (removeTree fuel) place (disk.children place) disk).2 :=
        removeEach_keeps (fun disk name hI => ih (fun disk p hp => h disk p
          ((List.prefix_append place [name]).trans hp)) hI) _ hI
      rw [removeTree]
      split
      · exact hI
      · split_ifs
        · cases hremove : removeEach (removeTree fuel) place (disk.children place) disk with
          | mk removed next =>
              rw [hremove] at heach
              cases removed with
              | true => exact unlink_keeps (h next place (List.prefix_refl place)) heach
              | false => exact heach
        · exact hI
      · exact unlink_keeps (h disk place (List.prefix_refl place)) hI

end

/-- **A removal changes nothing around the tree:** without the tree, the disk is the same before and
after it. This says so for lists of entries, not only for what they show. -/
theorem eraseTree_removeTree (fuel : Nat) (disk : Disk) (place : Place) :
    (disk.removeTree fuel place).2.eraseTree place = disk.eraseTree place :=
  removeTree_keeps (I := fun next => next.eraseTree place = disk.eraseTree place)
    (fun _ _ hp h => (eraseTree_eraseTree hp).trans h) fuel rfl

/-- **A removal adds nothing:** whatever is on the disk after it was there before. Read backwards,
the disk grows into what it was. -/
theorem grows_removeTree (fuel : Nat) (disk : Disk) (place : Place) :
    Grows (disk.removeTree fuel place).2 disk :=
  removeTree_keeps (I := fun next => Grows next disk)
    (fun next p _ h => (grows_eraseTree next p).trans h) fuel (.refl disk)

/-- A removal leaves every place outside the tree as it was. -/
theorem get?_removeTree (fuel : Nat) (disk : Disk) (h : ¬ place <+: p) :
    (disk.removeTree fuel place).2.get? p = disk.get? p := by
  have hne : place ≠ [] := by
    rintro rfl
    exact h List.nil_prefix
  have herased := congrArg (fun disk => disk.get? p) (eraseTree_removeTree fuel disk place)
  rwa [get?_eraseTree hne, get?_eraseTree hne, if_neg h, if_neg h] at herased

/-- Removing entries of a directory leaves the directory itself as it was. -/
theorem get?_removeEach (fuel : Nat) (names : List String) (disk : Disk) :
    (removeEach (removeTree fuel) place names disk).2.get? place = disk.get? place :=
  removeEach_keeps (I := fun next => next.get? place = disk.get? place)
    (fun next name h => (get?_removeTree fuel next (child_not_above place name)).trans h) names rfl

/-- Removing entries of a directory leaves the one around it as it was. -/
theorem get?_removeEach_dropLast (fuel : Nat) (names : List String) (disk : Disk) :
    (removeEach (removeTree fuel) place names disk).2.get? place.dropLast =
      disk.get? place.dropLast :=
  removeEach_keeps (I := fun next => next.get? place.dropLast = disk.get? place.dropLast)
    (fun next name h => (get?_removeTree fuel next fun hpre => child_not_above place name
      (hpre.trans (List.dropLast_prefix place))).trans h) names rfl

/-- Removing entries of a directory changes nothing around the directory. -/
theorem eraseTree_removeEach (fuel : Nat) (names : List String) (disk : Disk) :
    (removeEach (removeTree fuel) place names disk).2.eraseTree place = disk.eraseTree place :=
  removeEach_keeps (I := fun next => next.eraseTree place = disk.eraseTree place)
    (fun next name h => by
      rw [← h, ← eraseTree_eraseTree (List.prefix_append place [name]), eraseTree_removeTree,
        eraseTree_eraseTree (List.prefix_append place [name])]) names rfl

/-! ### A removal that is not refused -/

/-- What was taken out is gone. -/
theorem unlink_of_true (h : (disk.unlink place).1 = true) :
    (disk.unlink place).2 = disk.eraseTree place := by
  rw [unlink] at h ⊢
  split_ifs at h ⊢
  rfl

/-- What was not taken out is still there. -/
theorem unlink_of_false (h : (disk.unlink place).1 = false) :
    (disk.unlink place).2 = disk ∧ disk.permits .change place.dropLast = false := by
  rw [unlink] at h ⊢
  split_ifs at h ⊢ with hchange
  exact ⟨rfl, Bool.eq_false_iff.2 hchange⟩

/-- A place is taken out of a directory that may be changed. -/
theorem unlink_eq_true_iff : (disk.unlink place).1 = true ↔
    disk.permits .change place.dropLast = true := by
  rw [unlink]
  split_ifs with hchange
  · exact iff_of_true rfl hchange
  · exact iff_of_false nofun hchange

/-- **What was removed is gone,** with all that was below it. A directory is taken out after what
was in it, and erasing it would have taken that along anyway. -/
theorem removeTree_of_true (hthere : disk.get? place ≠ none)
    (h : (disk.removeTree fuel place).1 = true) :
    (disk.removeTree fuel place).2 = disk.eraseTree place := by
  cases fuel with
  | zero => exact absurd (Option.isNone_iff_eq_none.1 h) hthere
  | succ fuel =>
      have heach :
          (removeEach (removeTree fuel) place (disk.children place) disk).2.eraseTree place =
            disk.eraseTree place :=
        eraseTree_removeEach fuel (disk.children place) disk
      rw [removeTree] at h ⊢
      split at h
      · exact absurd ‹_› hthere
      · split_ifs at h ⊢
        cases hremove : removeEach (removeTree fuel) place (disk.children place) disk with
        | mk removed next =>
            rw [hremove] at heach h
            cases removed with
            | true => exact (unlink_of_true h).trans heach
            | false => exact absurd h Bool.false_ne_true
      · exact unlink_of_true h

/-! ### How deep a removal goes -/

/-- Every way from a place to an entry below it has fewer names than `fuel`. -/
def DepthLt (disk : Disk) (place : Place) (fuel : Nat) : Prop :=
  ∀ rel, disk.tree place rel ≠ none → rel.length < fuel

/-- The longest place is at least as long as any other. -/
theorem length_le_longest {entries : List (Place × Entry)} {item : Place × Entry}
    (hitem : item ∈ entries) :
    item.1.length ≤ entries.foldr (fun item longest => max item.1.length longest) 0 := by
  induction entries with
  | nil => exact absurd hitem List.not_mem_nil
  | cons first entries ih =>
      rw [List.foldr_cons]
      obtain rfl | hitem := List.mem_cons.1 hitem
      · exact Nat.le_max_left _ _
      · exact Nat.le_trans (ih hitem) (Nat.le_max_right _ _)

/-- No way is longer than the disk is high. -/
theorem depthLt_height (disk : Disk) (place : Place) : disk.DepthLt place (disk.height + 1) := by
  intro rel hthere
  by_cases hnil : place ++ rel = []
  · rw [(List.append_eq_nil_iff.1 hnil).2]
    exact Nat.succ_pos _
  · rw [tree, get?_of_ne hnil] at hthere
    obtain ⟨e, he⟩ := Option.ne_none_iff_exists'.1 hthere
    obtain ⟨front, rest, hsplit, -⟩ := List.lookup_eq_some_iff.1 he
    have hmem : (place ++ rel, e) ∈ disk.entries := by
      rw [hsplit]
      exact List.mem_append_right front List.mem_cons_self
    have hle := length_le_longest hmem
    rw [List.length_append] at hle
    exact Nat.lt_succ_of_le (Nat.le_of_add_left_le hle)

/-- Where something is, the way to the place itself is one, with no names. -/
theorem DepthLt.pos (h : disk.DepthLt place fuel) (hthere : disk.get? place ≠ none) : 0 < fuel :=
  h [] (by rwa [tree_nil])

/-- One directory further down there is one name less to go. -/
theorem DepthLt.child (h : disk.DepthLt place (fuel + 1)) (name : String) :
    disk.DepthLt (place ++ [name]) fuel := by
  intro rel hthere
  refine Nat.lt_of_succ_lt_succ (h (name :: rel) ?_)
  rwa [tree_cons]

/-- A removal elsewhere, or further down, makes no way longer. -/
theorem DepthLt.removeTree (h : disk.DepthLt place fuel) (fuel' : Nat) (p : Place) :
    (disk.removeTree fuel' p).2.DepthLt place fuel := by
  intro rel hthere
  obtain ⟨e, he⟩ := Option.ne_none_iff_exists'.1 hthere
  refine h rel ?_
  rw [tree, (grows_removeTree fuel' disk p).get? _ e he]
  simp

/-! ### What is removed -/

/-- Removing a directory that is there. -/
theorem removeTree_dir (h : disk.get? place = some (.dir mode)) (fuel : Nat) :
    disk.removeTree (fuel + 1) place =
      if mode.grants .list && disk.permits .search place.dropLast then
        match removeEach (removeTree fuel) place (disk.children place) disk with
        | (true, disk) => disk.unlink place
        | (false, disk) => (false, disk)
      else (false, disk) := by
  rw [removeTree]
  generalize disk.get? place = e at h
  subst h
  rfl

/-- Removing something else that is there. -/
theorem removeTree_leaf {e : Entry} (h : disk.get? place = some e) (hleaf : ∀ mode, e ≠ .dir mode)
    (fuel : Nat) : disk.removeTree (fuel + 1) place = disk.unlink place := by
  rw [removeTree, h]
  cases e with
  | dir mode => exact absurd rfl (hleaf mode)
  | file | link | device => rfl

/-- Another entry of a directory does not get into the way of a removal. -/
theorem removable_eraseTree_sibling {other : String} (hne : name ≠ other) :
    (disk.eraseTree (place ++ [other])).Removable (place ++ [name]) ↔
      disk.Removable (place ++ [name]) := by
  have hget (p : Place) (hp : ¬ place ++ [other] <+: p) :
      (disk.eraseTree (place ++ [other])).get? p = disk.get? p := by
    rw [get?_eraseTree (by simp), if_neg hp]
  have htree : (disk.eraseTree (place ++ [other])).tree (place ++ [name]) =
      disk.tree (place ++ [name]) := by
    funext rel
    refine hget _ ?_
    rw [List.append_assoc, List.prefix_append_right_inj]
    exact fun hp => hne (List.cons_prefix_cons.1 hp).1.symm
  have hparent := permits_congr (hget place (child_not_above place other)) .change
  constructor
  · exact fun h => h.congr htree.symm (by rw [List.dropLast_concat, hparent])
  · exact fun h => h.congr htree (by rw [List.dropLast_concat, hparent])

/-- Where there is nothing, nothing has to be removed. -/
theorem removeTree_of_none (h : disk.get? place = none) (fuel : Nat) :
    disk.removeTree fuel place = (true, disk) := by
  cases fuel with
  | zero => rw [removeTree, h, Option.isNone_none]
  | succ fuel => rw [removeTree, h]

/-- **The entries of a directory are removed** when each of them can be, given that this holds of
single entries. Those removed before do not matter. -/
theorem removeEach_eq_true_iff
    (hone : ∀ (disk : Disk) (name : String), disk.get? (place ++ [name]) ≠ none →
      disk.DepthLt (place ++ [name]) fuel →
      ((disk.removeTree fuel (place ++ [name])).1 = true ↔ disk.Removable (place ++ [name])))
    (names : List String) (hdepth : disk.DepthLt place (fuel + 1)) :
    (removeEach (removeTree fuel) place names disk).1 = true ↔
      ∀ name ∈ names, disk.get? (place ++ [name]) ≠ none → disk.Removable (place ++ [name]) := by
  induction names generalizing disk with
  | nil => exact iff_of_true rfl fun name hname => absurd hname List.not_mem_nil
  | cons name names ih =>
      rw [removeEach, List.forall_mem_cons]
      by_cases hthere : disk.get? (place ++ [name]) = none
      · rw [removeTree_of_none hthere, and_iff_right fun hthere' => absurd hthere hthere']
        exact ih hdepth
      · have hiff := hone disk name hthere (hdepth.child name)
        have hgone := @removeTree_of_true disk (place ++ [name]) fuel hthere
        have hdepth' := hdepth.removeTree fuel (place ++ [name])
        cases hremove : disk.removeTree fuel (place ++ [name]) with
        | mk removed next =>
            rw [hremove] at hiff hgone hdepth'
            cases removed with
            | false => exact iff_of_false nofun fun h => absurd (hiff.2 (h.1 hthere)) nofun
            | true =>
                obtain rfl : next = disk.eraseTree (place ++ [name]) := hgone rfl
                have hself : disk.Removable (place ++ [name]) := hiff.1 rfl
                dsimp only
                rw [ih hdepth', and_iff_right fun _ => hself]
                -- The others are as they were, and a name that comes twice is gone.
                refine forall₂_congr fun other hother => ?_
                by_cases hsame : other = name
                · subst hsame
                  refine iff_of_true (fun hthere' => absurd ?_ hthere') fun _ => hself
                  rw [get?_eraseTree (by simp), if_pos (List.prefix_refl _)]
                · rw [removable_eraseTree_sibling hsame, get?_eraseTree (by simp), if_neg]
                  rw [List.prefix_append_right_inj]
                  exact fun hp => hsame (List.cons_prefix_cons.1 hp).1.symm

/-- **A tree is removed** exactly when it can be. By induction on the fuel, which is enough for
every place on the disk; the order in which names are listed plays no part. -/
theorem removeTree_eq_true_iff (hthere : disk.get? place ≠ none)
    (hdepth : disk.DepthLt place fuel) :
    (disk.removeTree fuel place).1 = true ↔ disk.Removable place := by
  induction fuel generalizing disk place with
  | zero => exact absurd (hdepth.pos hthere) (Nat.lt_irrefl 0)
  | succ fuel ih =>
      obtain ⟨e, he, hleaf⟩ | ⟨mode, he⟩ := leaf_or_dir hthere
      · rw [removeTree_leaf he hleaf, unlink_eq_true_iff]
        exact ⟨.leaf he hleaf, Removable.permits⟩
      have heach : (removeEach (removeTree fuel) place (disk.children place) disk).1 = true ↔
          ∀ name, disk.get? (place ++ [name]) ≠ none → disk.Removable (place ++ [name]) := by
        refine (removeEach_eq_true_iff (fun disk name => ih) _ hdepth).trans ?_
        simp only [mem_children]
        exact forall_congr' fun name => ⟨fun h hthere => h hthere hthere, fun h _ => h⟩
      -- The directory around the place is not touched while the place is emptied.
      have hparent : (removeEach (removeTree fuel) place (disk.children place) disk).2.permits
          .change place.dropLast = disk.permits .change place.dropLast := by
        refine permits_congr ?_ .change
        exact get?_removeEach_dropLast fuel _ disk
      rw [removeTree_dir he]
      constructor
      · intro h
        split_ifs at h with hgrants
        cases hremove : removeEach (removeTree fuel) place (disk.children place) disk with
        | mk removed next =>
            rw [hremove] at h heach hparent
            cases removed with
            | false => exact absurd h Bool.false_ne_true
            | true =>
                exact .dir he (Bool.and_eq_true_iff.1 hgrants).1
                  (hparent ▸ unlink_eq_true_iff.1 h) (heach.1 rfl)
      · intro h
        obtain ⟨hlist, hbelow⟩ := h.of_dir he
        rw [if_pos (Bool.and_eq_true_iff.2 ⟨hlist, permits_search h.permits⟩)]
        cases hremove : removeEach (removeTree fuel) place (disk.children place) disk with
        | mk removed next =>
            rw [hremove] at heach hparent
            obtain rfl : removed = true := heach.2 hbelow
            exact unlink_eq_true_iff.2 (hparent.trans h.permits)

/-- A directory in which every directory may be listed and changed can be removed, given that the
one that it is in may be changed. -/
theorem removable_of_grants (hthere : disk.get? place ≠ none)
    (hparent : disk.permits .change place.dropLast = true)
    (hgrants : ∀ rel mode, disk.tree place rel = some (.dir mode) →
      mode.grants .list = true ∧ mode.grants .change = true) : disk.Removable place := by
  obtain ⟨fuel, hdepth⟩ : ∃ fuel, disk.DepthLt place fuel := ⟨_, depthLt_height disk place⟩
  induction fuel generalizing place with
  | zero => exact absurd (hdepth.pos hthere) (Nat.lt_irrefl 0)
  | succ fuel ih =>
      obtain ⟨e, he, hleaf⟩ | ⟨mode, he⟩ := leaf_or_dir hthere
      · exact .leaf he hleaf hparent
      obtain ⟨hlist, hchange⟩ := hgrants [] mode (by rwa [tree_nil])
      refine .dir he hlist hparent fun name hname => ih hname ?_ ?_ (hdepth.child name)
      · rwa [List.dropLast_concat, permits_of_get? he]
      · intro rel mode hmode
        exact hgrants (name :: rel) mode (by rwa [tree_cons])

/-! ### A removal that is refused -/

/-- When removing entries of a directory is refused, it is so at one of them, which is there. -/
theorem exists_of_removeEach_false {names : List String}
    (h : (removeEach (removeTree fuel) place names disk).1 = false)
    (hdepth : disk.DepthLt place (fuel + 1)) :
    ∃ (met : Disk) (name : String), met.get? (place ++ [name]) ≠ none ∧
      met.DepthLt place (fuel + 1) ∧ met.removeTree fuel (place ++ [name]) =
        (false, (removeEach (removeTree fuel) place names disk).2) := by
  induction names generalizing disk with
  | nil => exact absurd h.symm Bool.false_ne_true
  | cons name names ih =>
      have hdepth' := hdepth.removeTree fuel (place ++ [name])
      rw [removeEach] at h ⊢
      cases hremove : disk.removeTree fuel (place ++ [name]) with
      | mk removed next =>
          rw [hremove] at h hdepth'
          cases removed with
          | true => exact ih h hdepth'
          | false =>
              refine ⟨disk, name, fun hnone => ?_, hdepth, hremove⟩
              rw [removeTree_of_none hnone] at hremove
              exact absurd (congrArg Prod.fst hremove) Bool.false_ne_true.symm

/-- **What a refused removal leaves** is what it was at its own place, and cannot be removed. -/
theorem not_removable_removeTree (hthere : disk.get? place ≠ none)
    (hdepth : disk.DepthLt place fuel) (h : (disk.removeTree fuel place).1 = false) :
    (disk.removeTree fuel place).2.get? place = disk.get? place ∧
      ¬ (disk.removeTree fuel place).2.Removable place := by
  induction fuel generalizing disk place with
  | zero => exact absurd (hdepth.pos hthere) (Nat.lt_irrefl 0)
  | succ fuel ih =>
      obtain ⟨e, he, hleaf⟩ | ⟨mode, he⟩ := leaf_or_dir hthere
      · rw [removeTree_leaf he hleaf] at h ⊢
        obtain ⟨hsame, hrefused⟩ := unlink_of_false h
        rw [hsame]
        exact ⟨rfl, fun hr => absurd hr.permits (by simp [hrefused])⟩
      have hsame := @get?_removeEach place fuel (disk.children place) disk
      rw [removeTree_dir he] at h ⊢
      split_ifs at h ⊢ with hgrants
      · cases hremove : removeEach (removeTree fuel) place (disk.children place) disk with
        | mk removed next =>
            rw [hremove] at h hsame
            cases removed with
            | true =>
                obtain ⟨hsame', hrefused⟩ := unlink_of_false h
                dsimp only at hsame ⊢
                rw [hsame']
                exact ⟨hsame, fun hr => absurd hr.permits (by simp [hrefused])⟩
            | false =>
                -- The entry at which it was refused is still there, and refuses again.
                obtain ⟨met, name, hthere', hdepth', hname⟩ := exists_of_removeEach_false
                  (congrArg Prod.fst hremove) hdepth
                obtain ⟨hsame', hrefuses⟩ :=
                  ih hthere' (hdepth'.child name) (congrArg Prod.fst hname)
                rw [hname, hremove] at hsame' hrefuses
                refine ⟨hsame, fun hr => hrefuses ((hr.of_dir (hsame.trans he)).2 name ?_)⟩
                rw [hsame']
                exact hthere'
      · refine ⟨rfl, fun hr => hgrants ?_⟩
        exact Bool.and_eq_true_iff.2 ⟨(hr.of_dir he).1, permits_search hr.permits⟩

/-- **A refused removal of a directory** is work in it: something below it may be gone. The
directory itself is the last thing that would have been taken out. -/
theorem within_removeTree (hdir : disk.IsDir place) (hdepth : disk.DepthLt place fuel)
    (h : (disk.removeTree fuel place).1 = false) :
    Within place disk (disk.removeTree fuel place).2 := by
  obtain ⟨mode, hmode⟩ := hdir
  obtain ⟨hsame, -⟩ := not_removable_removeTree (by rw [hmode]; simp) hdepth h
  exact ⟨(grows_removeTree fuel disk place).current.symm, fun p hp => get?_removeTree fuel disk hp,
    ⟨mode, hmode⟩, mode, hsame.trans hmode⟩

end Disk
end ProcessKit
