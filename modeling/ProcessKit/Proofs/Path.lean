/-
# Joining a name to a path

A file name is a text without a slash that is neither empty nor one of the two dots. Joining one to
a path puts exactly one piece behind those of the path, save for empty pieces at the path's end
(`pieces_join`), leaves no slash at the end (`withoutFinalSlashes_join`), and is undone by
`Path.parent?` where the path itself ends in a name (`parent?_join`). The result takes one more step
than the path (`components_join`), so it tells which name was joined to what (`same_join_iff`).

A path is a text, and is cut at its slashes in two ways. The pieces are what stands between slashes,
and empty ones count. The components are what the operating system makes of a path: empty pieces and
single dots are dropped, so that two texts can be the same path (`Path.same`). What is proved of
components tells where a path leads, and what is proved of pieces and texts tells how it is written.

Whether a text is a name is decided by looking at its components: it has exactly one, and that one
is the text itself (`components_eq_name_iff`). This is how the path of a tarball is checked
(`Tarball.entryName_eq`).
-/

import Mathlib.Tactic.SplitIfs
import ProcessKit.Cache.Basic

namespace ProcessKit

/-- What makes a text the name of an entry. -/
theorem isEntryName_iff {name : String} :
    isEntryName name = true ↔ name ≠ "" ∧ name ≠ "." ∧ name ≠ ".." ∧ '/' ∉ name.toList := by
  simp [isEntryName, and_assoc]

namespace Path

/-- Splitting at slashes gives at least one piece: a text without a slash is the only one, and the
empty text gives one empty piece. -/
theorem splitSlash_ne_nil (cs : List Char) : splitSlash cs ≠ [] := by
  cases cs with
  | nil => simp [splitSlash]
  | cons c cs =>
      unfold splitSlash
      split_ifs
      · simp
      · split <;> simp

/-- A text without a slash is not split. -/
theorem splitSlash_of_not_mem {cs : List Char} (h : '/' ∉ cs) : splitSlash cs = [cs] := by
  induction cs with
  | nil => rfl
  | cons c cs ih =>
      rw [List.mem_cons, not_or] at h
      rw [splitSlash, if_neg (Ne.symm h.1), ih h.2]

/-- A slash ends one run of pieces and starts the next. -/
theorem splitSlash_append (xs ys : List Char) :
    splitSlash (xs ++ '/' :: ys) = splitSlash xs ++ splitSlash ys := by
  induction xs with
  | nil => simp [splitSlash]
  | cons c xs ih =>
      rw [List.cons_append, splitSlash, splitSlash, ih]
      by_cases hc : c = '/'
      · rw [if_pos hc, if_pos hc, List.cons_append]
      · rw [if_neg hc, if_neg hc]
        obtain ⟨piece, rest, hx⟩ := List.exists_cons_of_ne_nil (splitSlash_ne_nil xs)
        rw [hx, List.cons_append]
        rfl

/-- There is no slash in a piece. -/
theorem not_mem_of_mem_splitSlash {cs piece : List Char} (h : piece ∈ splitSlash cs) :
    '/' ∉ piece := by
  induction cs generalizing piece with
  | nil =>
      rw [splitSlash, List.mem_singleton] at h
      rw [h]
      exact List.not_mem_nil
  | cons c cs ih =>
      obtain ⟨first, rest, hsplit⟩ := List.exists_cons_of_ne_nil (splitSlash_ne_nil cs)
      rw [splitSlash] at h
      split_ifs at h with hc
      · rcases List.mem_cons.1 h with rfl | hrest
        · exact List.not_mem_nil
        · exact ih hrest
      · rw [hsplit] at h ih
        rcases List.mem_cons.1 h with rfl | hrest
        · rw [List.mem_cons, not_or]
          exact ⟨fun heq => hc heq.symm, ih List.mem_cons_self⟩
        · exact ih (List.mem_cons_of_mem _ hrest)

/-- **A step of a path that is a name** is the name of an entry: it has no slash in it, is not empty
and is not one of the dots. -/
theorem isEntryName_of_mem_components {p : Path} {name : String} (h : .name name ∈ p.components) :
    isEntryName name = true := by
  have hstep : .name name ∈ (pieces p.text).filterMap fun piece =>
      if piece = "" ∨ piece = "." then none
      else if piece = ".." then some Component.up
      else some (.name piece) := by
    rw [components] at h
    split_ifs at h
    · exact (List.mem_cons.1 h).resolve_left (by simp)
    · exact (List.mem_cons.1 h).resolve_left (by simp)
    · exact h
  obtain ⟨piece, hpiece, hname⟩ := List.mem_filterMap.1 hstep
  split_ifs at hname with hstay hup
  · exact absurd hname (by simp)
  · obtain rfl : piece = name := by simpa using hname
    obtain ⟨cs, hcs, rfl⟩ := List.mem_map.1 hpiece
    rw [not_or] at hstay
    refine isEntryName_iff.2 ⟨hstay.1, hstay.2, hup, ?_⟩
    rw [String.toList_ofList]
    exact not_mem_of_mem_splitSlash hcs

variable {name : String}

/-- A name starts at no root directory. -/
theorem isAbsolute_name (h : isEntryName name = true) : (Path.mk name).isAbsolute = false := by
  obtain ⟨-, -, -, hs⟩ := isEntryName_iff.1 h
  rw [isAbsolute, beq_eq_false_iff_ne]
  exact fun hc => hs (List.mem_of_head? hc)

/-- **The names of entries** are the texts that are their own only step, and that step a name. This
is the test that the program makes. -/
theorem components_eq_name_iff : (Path.mk name).components = [.name name] ↔
    isEntryName name = true := by
  refine ⟨fun h => isEntryName_of_mem_components (h ▸ List.mem_singleton.2 rfl), fun h => ?_⟩
  obtain ⟨hne, hdot, hdots, hs⟩ := isEntryName_iff.1 h
  have hpieces : pieces name = [name] := by
    rw [pieces, splitSlash_of_not_mem hs, List.map_singleton, String.ofList_toList]
  rw [components, isAbsolute_name h, if_neg Bool.false_ne_true, hpieces,
    if_neg (by simpa using hdot),
    List.filterMap_cons_some (by rw [if_neg (not_or.2 ⟨hne, hdot⟩), if_neg hdots]),
    List.filterMap_nil]

/-- **What joining a name writes:** the text of the path, with a slash behind it unless it is empty
or ends in one, and then the name. -/
theorem chars_join (h : isEntryName name = true) (p : Path) :
    ∃ front, (p.join ⟨name⟩).chars = front ++ name.toList ∧
      (front = [] ∧ p.chars = [] ∨
        ∃ f, front = f ++ ['/'] ∧ (p.chars = f ∧ f ≠ [] ∨ p.chars = front)) := by
  unfold join
  rw [isAbsolute_name h, if_neg Bool.false_ne_true]
  split_ifs with hp
  · refine ⟨p.chars, String.toList_append, ?_⟩
    rw [Bool.or_eq_true, beq_iff_eq, List.getLast?_eq_some_iff] at hp
    obtain he | ⟨f, hf⟩ := hp
    · rw [String.isEmpty_iff] at he
      have hc : p.chars = [] := by rw [chars, he, String.toList_empty]
      exact Or.inl ⟨hc, hc⟩
    · exact Or.inr ⟨f, hf, Or.inr rfl⟩
  · rw [Bool.or_eq_true, not_or, String.isEmpty_iff] at hp
    have hc : p.chars ≠ [] := fun hc => hp.1 (String.toList_eq_nil_iff.1 hc)
    refine ⟨p.chars ++ ['/'], ?_, Or.inr ⟨p.chars, rfl, Or.inl ⟨rfl, hc⟩⟩⟩
    simp [chars]

/-- **A joined name is the last piece,** behind the pieces of the path without the empty ones at its
end. -/
theorem pieces_join (h : isEntryName name = true) (p : Path) :
    ∃ ps zs, pieces p.text = ps ++ zs ∧ (∀ z ∈ zs, z = "") ∧
      pieces (p.join ⟨name⟩).text = ps ++ [name] := by
  obtain ⟨-, -, -, hs⟩ := isEntryName_iff.1 h
  have hname : (splitSlash name.toList).map String.ofList = [name] := by
    rw [splitSlash_of_not_mem hs, List.map_singleton, String.ofList_toList]
  have hempty : (splitSlash []).map String.ofList = [""] := rfl
  obtain ⟨front, hj, ⟨rfl, hp⟩ | ⟨f, rfl, hp⟩⟩ := chars_join h p
  · refine ⟨[], [""], ?_, by simp, ?_⟩
    · rw [pieces, show p.text.toList = [] from hp, hempty, List.nil_append]
    · rw [pieces, show (p.join ⟨name⟩).text.toList = name.toList from hj, hname, List.nil_append]
  · have hjoined : pieces (p.join ⟨name⟩).text = (splitSlash f).map String.ofList ++ [name] := by
      rw [pieces, show (p.join ⟨name⟩).text.toList = f ++ '/' :: name.toList by
        rw [← List.append_cons] at hj; exact hj, splitSlash_append, List.map_append, hname]
    obtain ⟨hp, -⟩ | hp := hp
    · refine ⟨_, [], ?_, by simp, hjoined⟩
      rw [pieces, show p.text.toList = f from hp, List.append_nil]
    · refine ⟨_, [""], ?_, by simp, hjoined⟩
      rw [pieces, show p.text.toList = f ++ ['/'] from hp, splitSlash_append, List.map_append,
        hempty]

/-- Joining a name to a path keeps where it starts. -/
theorem isAbsolute_join (h : isEntryName name = true) (p : Path) :
    (p.join ⟨name⟩).isAbsolute = p.isAbsolute := by
  obtain ⟨front, hj, ⟨rfl, hp⟩ | ⟨f, rfl, hp⟩⟩ := chars_join h p
  · rw [isAbsolute, isAbsolute, hj, hp]
    exact isAbsolute_name h
  · rw [isAbsolute, isAbsolute, hj]
    obtain ⟨hp, hf⟩ | hp := hp
    · obtain ⟨c, cs, rfl⟩ := List.exists_cons_of_ne_nil hf
      rw [hp]
      rfl
    · rw [hp]
      cases f <;> rfl

/-- **Joining a name to a path** takes one more step, to that name. It never replaces the path,
since a name does not begin with a slash. -/
theorem components_join (h : isEntryName name = true) (p : Path) :
    (p.join ⟨name⟩).components = p.components ++ [.name name] := by
  obtain ⟨hne, hdot, hdots, -⟩ := isEntryName_iff.1 h
  obtain ⟨ps, zs, hp, hz, hj⟩ := pieces_join h p
  let step (piece : String) : Option Component :=
    if piece = "" ∨ piece = "." then none
    else if piece = ".." then some .up
    else some (.name piece)
  have hsteps : (pieces (p.join ⟨name⟩).text).filterMap step =
      (pieces p.text).filterMap step ++ [.name name] := by
    have hname : step name = some (.name name) := by
      rw [show step name = _ from if_neg (not_or.2 ⟨hne, hdot⟩), if_neg hdots]
    have hempty : zs.filterMap step = [] :=
      List.filterMap_eq_nil_iff.2 fun z hmem => if_pos (Or.inl (hz z hmem))
    rw [hj, hp, List.filterMap_append, List.filterMap_append, hempty, List.append_nil,
      List.filterMap_cons_some hname, List.filterMap_nil]
  have hhead : (pieces (p.join ⟨name⟩).text).head? = some "." ↔
      (pieces p.text).head? = some "." := by
    rw [hj, hp]
    cases ps with
    | nil =>
        cases zs with
        | nil => simpa using hdot
        | cons z zs => simpa [hz z (List.mem_cons_self ..)] using hdot
    | cons piece ps => exact Iff.rfl
  rw [components, components, isAbsolute_join h]
  split_ifs with habs hhere hhere' hhere'
  · exact congrArg (Component.root :: ·) hsteps
  · exact congrArg (Component.here :: ·) hsteps
  · exact absurd (hhead.1 hhere) hhere'
  · exact absurd (hhead.2 hhere') hhere
  · exact hsteps

/-- **A path tells which name was joined to which path,** up to the way in which that path was
written, as with a slash at its end. -/
theorem same_join_iff {other : String} (h : isEntryName name = true)
    (ho : isEntryName other = true) {p q : Path} :
    (p.join ⟨name⟩).same (q.join ⟨other⟩) = true ↔ p.same q = true ∧ name = other := by
  rw [same, same, beq_iff_eq, beq_iff_eq, components_join h, components_join ho,
    List.append_singleton_inj, Component.name.injEq]

/-- A joined name ends in a character other than a slash. -/
theorem exists_chars_join (h : isEntryName name = true) (p : Path) :
    ∃ cs c, (p.join ⟨name⟩).chars = cs ++ [c] ∧ c ≠ '/' := by
  obtain ⟨hne, -, -, hs⟩ := isEntryName_iff.1 h
  obtain ⟨front, hj, -⟩ := chars_join h p
  have hn : name.toList ≠ [] := fun hc => hne (String.toList_eq_nil_iff.1 hc)
  refine ⟨front ++ name.toList.dropLast, name.toList.getLast hn, ?_, ?_⟩
  · rw [hj, List.append_assoc, List.dropLast_concat_getLast]
  · exact fun hc => hs (hc ▸ List.getLast_mem hn)

/-- A path that ends in a name is not empty. -/
theorem text_join_ne (h : isEntryName name = true) (p : Path) : (p.join ⟨name⟩).text ≠ "" := by
  obtain ⟨cs, c, hc, -⟩ := exists_chars_join h p
  intro ht
  rw [chars, ht, String.toList_empty] at hc
  exact List.append_ne_nil_of_right_ne_nil cs (List.cons_ne_nil c []) hc.symm

/-- There is no slash behind a joined name. -/
theorem withoutFinalSlashes_join (h : isEntryName name = true) (p : Path) :
    (p.join ⟨name⟩).withoutFinalSlashes = p.join ⟨name⟩ := by
  obtain ⟨cs, c, hc, hslash⟩ := exists_chars_join h p
  have hd : ((p.join ⟨name⟩).chars.reverse.dropWhile (· == '/')).reverse =
      (p.join ⟨name⟩).chars := by
    rw [hc, List.reverse_append, List.reverse_singleton, List.singleton_append,
      List.dropWhile_cons_of_neg (by simpa using hslash), List.reverse_cons, List.reverse_reverse]
  rw [withoutFinalSlashes, hd]
  split
  · rename_i he
    rw [hc] at he
    exact absurd he (by simp)
  · exact congrArg Path.mk String.ofList_toList

/-- Trimming the end of a path stops at a name. -/
theorem trimEnd_name (h : isEntryName name = true) (front : List Char) (fuel : Nat) :
    trimEnd fuel (front ++ name.toList).reverse = (front ++ name.toList).reverse := by
  obtain ⟨hne, hdot, -, hs⟩ := isEntryName_iff.1 h
  -- The first character of the reversed name is no slash, and where it is a dot, the next one is
  -- in the name as well.
  have hslash : ∀ rest, (front ++ name.toList).reverse ≠ '/' :: rest := by
    intro rest hc
    rw [List.reverse_append, List.append_eq_cons_iff] at hc
    obtain ⟨hnil, -⟩ | ⟨cs, hcs, -⟩ := hc
    · exact hne (String.toList_eq_nil_iff.1 (List.reverse_eq_nil_iff.1 hnil))
    · exact hs (List.mem_reverse.1 (hcs ▸ List.mem_cons_self))
  have hdots : ∀ rest, (front ++ name.toList).reverse ≠ '.' :: '/' :: rest := by
    intro rest hc
    rw [List.reverse_append, List.append_eq_cons_iff] at hc
    obtain ⟨hnil, -⟩ | ⟨cs, hcs, hrest⟩ := hc
    · exact hne (String.toList_eq_nil_iff.1 (List.reverse_eq_nil_iff.1 hnil))
    · cases cs with
      | nil =>
          refine hdot (String.toList_inj.1 ?_)
          rw [← List.reverse_reverse name.toList, hcs]
          rfl
      | cons c cs =>
          obtain rfl : '/' = c := (List.cons.inj hrest).1
          exact hs (List.mem_reverse.1 (by rw [hcs]; simp))
  cases fuel with
  | zero => rfl
  | succ fuel =>
      rw [trimEnd]
      · exact hslash _
      · exact hslash
      · exact hdots

/-- **The directory of a joined name** is the path that it was joined to, without the slashes at the
end of that path. -/
theorem parent?_join {dir : String} (hd : isEntryName dir = true) (h : isEntryName name = true)
    (p : Path) : ((p.join ⟨dir⟩).join ⟨name⟩).parent? = some (p.join ⟨dir⟩) := by
  obtain ⟨hne, hdot, hdots, hs⟩ := isEntryName_iff.1 h
  obtain ⟨front, hp, -⟩ := chars_join hd p
  -- The path with the name behind one slash, since the directory's name ends in none.
  have hj : ((p.join ⟨dir⟩).join ⟨name⟩).chars = front ++ dir.toList ++ '/' :: name.toList := by
    obtain ⟨cs, c, hc, hslash⟩ := exists_chars_join hd p
    obtain ⟨front', hj, ⟨-, hnil⟩ | ⟨f, rfl, ⟨hf, -⟩ | hf⟩⟩ := chars_join h (p.join ⟨dir⟩)
    · rw [hc] at hnil
      exact absurd hnil (by simp)
    · rw [hj, ← hf, hp, ← List.append_cons]
    · rw [hc] at hf
      exact absurd (List.append_inj_right' hf rfl) (by simpa using hslash)
  have hlast : ((p.join ⟨dir⟩).join ⟨name⟩).components.getLast? = some (.name name) := by
    obtain ⟨ps, -, -, -, hps⟩ := pieces_join h (p.join ⟨dir⟩)
    rw [components, hps, List.filterMap_append, List.filterMap_cons_some
      (by rw [if_neg (not_or.2 ⟨hne, hdot⟩), if_neg hdots]), List.filterMap_nil]
    split_ifs
    · rw [← List.cons_append, List.getLast?_concat]
    · rw [← List.cons_append, List.getLast?_concat]
    · rw [List.getLast?_concat]
  have htrim : trimEnd ((p.join ⟨dir⟩).join ⟨name⟩).chars.length
      ((p.join ⟨dir⟩).join ⟨name⟩).chars.reverse =
      name.toList.reverse ++ '/' :: (front ++ dir.toList).reverse := by
    rw [hj, List.append_cons, trimEnd_name h, List.reverse_append, List.reverse_append]
    rfl
  have hdrop : (name.toList.reverse ++ '/' :: (front ++ dir.toList).reverse).dropWhile (· != '/') =
      '/' :: (front ++ dir.toList).reverse := by
    rw [List.dropWhile_append_of_pos, List.dropWhile_cons_of_neg (by simp)]
    intro c hc
    rw [bne_iff_ne]
    exact fun he => hs (he ▸ List.mem_reverse.1 hc)
  have hdir : front ++ dir.toList ≠ [] := by
    rw [← hp]
    exact fun hc => text_join_ne hd p (String.toList_eq_nil_iff.1 hc)
  rw [parent?]
  split
  · rename_i hc
    rw [hc] at hlast
    exact absurd hlast (by simp)
  · rename_i hc
    rw [hc] at hlast
    exact absurd hlast (by simp)
  · dsimp only
    rw [htrim, hdrop, List.length_cons, trimEnd]
    · rw [trimEnd_name hd, List.reverse_reverse, ← hp, chars, String.ofList_toList]
    · exact fun hc => hdir (List.reverse_eq_nil_iff.1 hc)

end Path

/-- **The check of a tarball's path** lets exactly the names of entries through: no separators, no
dots, nothing that leads up or away. -/
theorem Tarball.entryName_eq (tarball : Tarball) :
    tarball.entryName =
      if isEntryName tarball.path then .ok tarball.path else .error tarball.refusal := by
  rw [entryName]
  by_cases hname : isEntryName tarball.path = true
  · rw [Path.components_eq_name_iff.2 hname, if_pos hname]
    exact if_pos rfl
  · rw [if_neg hname]
    split
    · rename_i name hstep
      refine if_neg ?_
      rintro rfl
      exact hname (Path.components_eq_name_iff.1 hstep)
    · rfl

/-- A tarball has a target directory when its path is a name. -/
theorem Cache.targetDir_eq (cache : Cache) (tarball : Tarball) :
    cache.targetDir tarball =
      if isEntryName tarball.path then .ok (cache.target tarball.path)
      else .error tarball.refusal := by
  rw [targetDir, Tarball.entryName_eq]
  split_ifs <;> rfl

/-- A tarball has a target exactly when its path is a name, and then it is the directory of that
name in the cache. -/
theorem Cache.targetDir_eq_ok_iff {cache : Cache} {tarball : Tarball} {target : Path} :
    cache.targetDir tarball = .ok target ↔
      isEntryName tarball.path = true ∧ cache.target tarball.path = target := by
  rw [targetDir_eq]
  split_ifs with hname
  · rw [Except.ok.injEq, and_iff_right hname]
  · simp [hname]

end ProcessKit
