/-
# What the operations do to an entry of an area

Each operation on the path of an entry `name` of a directory `area` of `home` is described by what
it does at the place `home ++ [area, name]`: which answer it gives (`kind?_eq_dir_iff`), which one
place it changes (`createDirAll_entryPath`, `writeFile?_entryPath`), or which tree it takes away or
moves (`removeDirAll_entryPath`, `rename?_entryPath`). Removing a directory may be refused on the
way; what it has changed by then is below the directory (`removeDirAll_refused`).

The lemmas have the same three assumptions. The path to `home` leads there whatever is inside, the
area is no symbolic link (both are `HasArea`), and the entry itself is none. Where a lemma says that
an operation succeeds, it also takes a path that can be followed at all (`Reaches`): there are
limits to the length of a path and of a name.

Making a directory with those above it changes two places at most, since the cache itself is there:
the area and the entry may be new (`MadeDir`). A removal that goes through leaves nothing at the
entry or below it, and a second one after a refusal meets the same refusal
(`not_removable_removeDirAll`).
-/

import ProcessKit.Proofs.Disk.Removal

namespace ProcessKit
namespace Disk

variable {disk disk' : Disk} {home : Place} {dir : Path} {area name : String}

/-- The kind of thing at an entry. -/
theorem kind?_of_reaches (h : disk.HasArea dir home area) (hname : isEntryName name = true)
    (hr : disk.Reaches home dir area name) (hl : disk.Unlinked (home ++ [area, name])) :
    disk.kind? (entryPath dir area name) =
      match disk.get? (home ++ [area, name]) with
      | some (.dir _) => some .dir
      | some (.file ..) => some .file
      | some _ => some .other
      | none => none := by
  rw [kind?, find_of_reaches h hname hr true fun _ => hl]
  cases disk.get? (home ++ [area, name]) with
  | none => rfl
  | some e => cases e <;> rfl

/-- A name below a directory of the cache that is not reached leads nowhere, if no symbolic link is
there: nothing is seen at its path. -/
theorem kind?_of_not_reaches (h : disk.HasArea dir home area) (hname : isEntryName name = true)
    (hr : ¬ disk.Reaches home dir area name) (hl : disk.Unlinked (home ++ [area, name])) :
    disk.kind? (entryPath dir area name) = none := by
  obtain ⟨-, hf⟩ | ⟨-, hf⟩ | ⟨hr', -⟩ | ⟨hr', -⟩ := find_cases h hname true fun _ => hl
  · rw [kind?, hf]
  · rw [kind?, hf]
  · exact absurd hr' hr
  · exact absurd hr' hr

/-- **An entry is found to be a directory** when its path can be followed and it is one. Both
directions are needed: a look tells what is there, and what is there will be seen. -/
theorem kind?_eq_dir_iff (h : disk.HasArea dir home area) (hname : isEntryName name = true)
    (hl : disk.Unlinked (home ++ [area, name])) :
    disk.kind? (entryPath dir area name) = some .dir ↔
      disk.Reaches home dir area name ∧ disk.IsDir (home ++ [area, name]) := by
  by_cases hr : disk.Reaches home dir area name
  · rw [kind?_of_reaches h hname hr hl, and_iff_right hr, IsDir]
    cases disk.get? (home ++ [area, name]) with
    | none => simp
    | some e => cases e <;> simp
  · rw [kind?_of_not_reaches h hname hr hl]
    simp [hr]

/-- **An entry is found to be a file** when its path can be followed and it is one. A device is
found to be neither. -/
theorem kind?_eq_file_iff (h : disk.HasArea dir home area) (hname : isEntryName name = true)
    (hl : disk.Unlinked (home ++ [area, name])) :
    disk.kind? (entryPath dir area name) = some .file ↔
      disk.Reaches home dir area name ∧ disk.IsFile (home ++ [area, name]) := by
  by_cases hr : disk.Reaches home dir area name
  · rw [kind?_of_reaches h hname hr hl, and_iff_right hr, IsFile]
    cases disk.get? (home ++ [area, name]) with
    | none => simp
    | some e => cases e <;> simp
  · rw [kind?_of_not_reaches h hname hr hl]
    simp [hr]

/-- A directory that a path leads to is removed as the tree that it is. -/
theorem removeDirAll_of_reaches (h : disk.HasArea dir home area) (hname : isEntryName name = true)
    (hr : disk.Reaches home dir area name) (hdir : disk.IsDir (home ++ [area, name])) :
    disk.removeDirAll (entryPath dir area name) =
      disk.removeTree (disk.height + 1) (home ++ [area, name]) := by
  obtain ⟨mode, hmode⟩ := hdir
  rw [removeDirAll, find_of_reaches h hname hr false (absurd · (by simp)), hmode]
  exact if_neg (by simp)

/-- **Removing an entry** takes the tree of a directory or a link away, and does nothing else, if it
succeeds. -/
theorem removeDirAll_entryPath (h : disk.HasArea dir home area) (hname : isEntryName name = true)
    (hd : (disk.removeDirAll (entryPath dir area name)).1 = true) :
    (disk.removeDirAll (entryPath dir area name)).2 = disk.eraseTree (home ++ [area, name]) := by
  rw [removeDirAll] at hd ⊢
  obtain ⟨-, hf⟩ | ⟨-, hf⟩ | ⟨-, -, hf⟩ | ⟨-, e, he, hf⟩ :=
    find_cases h hname false (absurd · (by simp))
  · simp [hf] at hd
  · simp [hf] at hd
  · simp [hf] at hd
  · cases e with
    | dir mode =>
        simp only [hf, if_neg (show home ++ [area, name] ≠ [] by simp)] at hd ⊢
        exact removeTree_of_true (by simp [he]) hd
    | file => simp [hf] at hd
    | link =>
        simp only [hf] at hd ⊢
        exact unlink_of_true hd
    | device => simp [hf] at hd

/-- **A refused removal of an entry** changes at most what is below a directory. Either nothing has
changed at all, or the directory is still there. -/
theorem removeDirAll_refused (h : disk.HasArea dir home area) (hname : isEntryName name = true)
    (hd : (disk.removeDirAll (entryPath dir area name)).1 = false) :
    (disk.removeDirAll (entryPath dir area name)).2 = disk ∨
      Within (home ++ [area, name]) disk (disk.removeDirAll (entryPath dir area name)).2 := by
  rw [removeDirAll] at hd ⊢
  obtain ⟨-, hf⟩ | ⟨-, hf⟩ | ⟨-, -, hf⟩ | ⟨-, e, he, hf⟩ :=
    find_cases h hname false (absurd · (by simp))
  · exact Or.inl (by rw [hf])
  · exact Or.inl (by rw [hf])
  · exact Or.inl (by rw [hf])
  · cases e with
    | dir mode =>
        simp only [hf, if_neg (show home ++ [area, name] ≠ [] by simp)] at hd ⊢
        exact Or.inr (within_removeTree ⟨mode, he⟩ (depthLt_height _ _) hd)
    | file => exact Or.inl (by rw [hf])
    | link =>
        simp only [hf] at hd ⊢
        exact Or.inl (unlink_of_false hd).1
    | device => exact Or.inl (by rw [hf])

section

variable (h : disk.HasArea dir home area) (hname : isEntryName name = true)
  (hr : disk.Reaches home dir area name) (hdir : disk.IsDir (home ++ [area, name]))

include h hname hr hdir

/-- A directory that a path leads to is removed exactly when nothing in it refuses that. -/
theorem removeDirAll_eq_true_iff : (disk.removeDirAll (entryPath dir area name)).1 = true ↔
    disk.Removable (home ++ [area, name]) := by
  rw [removeDirAll_of_reaches h hname hr hdir]
  obtain ⟨mode, hmode⟩ := hdir
  exact removeTree_eq_true_iff (by simp [hmode]) (depthLt_height _ _)

/-- What is left of a directory that a path leads to, when its removal is refused, cannot be removed
either. -/
theorem not_removable_removeDirAll
    (hd : (disk.removeDirAll (entryPath dir area name)).1 = false) :
    ¬ (disk.removeDirAll (entryPath dir area name)).2.Removable (home ++ [area, name]) := by
  rw [removeDirAll_of_reaches h hname hr hdir] at hd ⊢
  obtain ⟨mode, hmode⟩ := hdir
  exact (not_removable_removeTree (by simp [hmode]) (depthLt_height _ _) hd).2

end

/-- **Writing an entry** makes it a file, unless it is a device: that takes what is written and
stays as it is. -/
theorem writeFile?_entryPath (h : disk.HasArea dir home area) (hname : isEntryName name = true)
    (hl : disk.Unlinked (home ++ [area, name])) {bytes : Bytes}
    (hd : disk.writeFile? (entryPath dir area name) bytes = some disk') :
    disk.Reaches home dir area name ∧
      ((∃ mode, disk' = disk.set (home ++ [area, name]) (.file bytes mode)) ∨
        disk' = disk ∧ disk.get? (home ++ [area, name]) = some .device) := by
  rw [writeFile?] at hd
  obtain ⟨-, hf⟩ | ⟨-, hf⟩ | ⟨hr, -, hf⟩ | ⟨hr, e, he, hf⟩ := find_cases h hname true fun _ => hl
  · simp [hf] at hd
  · simp [hf] at hd
  · rw [hf] at hd
    exact ⟨hr, Or.inl ⟨_, (Option.some.inj hd).symm⟩⟩
  · refine ⟨hr, ?_⟩
    cases e with
    | dir => simp [hf] at hd
    | file bytes' mode =>
        rw [hf] at hd
        exact Or.inl ⟨mode, (Option.some.inj hd).symm⟩
    | link => simp [hf] at hd
    | device =>
        rw [hf] at hd
        exact Or.inr ⟨(Option.some.inj hd).symm, he⟩

/-- Two entries of an area are not below each other. -/
theorem not_prefix_of_ne (home : Place) (area : String) {other : String} (hne : name ≠ other)
    (rel : Place) : ¬ home ++ [area, name] <+: home ++ area :: other :: rel := by
  rw [List.prefix_append_right_inj]
  intro hp
  rw [List.cons_prefix_cons, List.cons_prefix_cons] at hp
  exact hne hp.2.1

/-- **Renaming an entry** moves its whole tree. A directory takes the place of nothing or of an
empty directory only. -/
theorem rename?_entryPath {other : String} (h : disk.HasArea dir home area)
    (hname : isEntryName name = true) (hother : isEntryName other = true) (hne : name ≠ other)
    (hdir : disk.IsDir (home ++ [area, name]))
    (hd : disk.rename? (entryPath dir area name) (entryPath dir area other) = some disk') :
    disk.Reaches home dir area other ∧
      disk' = disk.moveTree (home ++ [area, name]) (home ++ [area, other]) ∧
      (disk.get? (home ++ [area, other]) = none ∨
        disk.IsDir (home ++ [area, other]) ∧
          ∀ x, disk.get? (home ++ [area, other, x]) = none) := by
  obtain ⟨mode, hmode⟩ := hdir
  have hpre : (home ++ [area, name]).isPrefixOf (home ++ [area, other]) = false :=
    isPrefixOf_eq_false (not_prefix_of_ne home area hne [])
  have hplace : home ++ [area, name] ≠ home ++ [area, other] := fun heq =>
    hne (by simpa using heq)
  rw [rename?] at hd
  obtain ⟨-, hf⟩ | ⟨-, hf⟩ | ⟨-, -, hf⟩ | ⟨-, e, he, hf⟩ :=
    find_cases h hname false (absurd · (by simp))
  · simp [hf] at hd
  · simp [hf] at hd
  · simp [hf] at hd
  obtain rfl : Entry.dir mode = e := Option.some.inj (hmode.symm.trans he)
  obtain ⟨-, hg⟩ | ⟨-, hg⟩ | ⟨hr, hnone, hg⟩ | ⟨hr, e, he', hg⟩ :=
    find_cases h hother false (absurd · (by simp))
  · simp [hf, hg] at hd
  · simp [hf, hg] at hd
  · simp only [hf, hg, hpre, Bool.false_eq_true, if_false] at hd
    exact ⟨hr, (Option.some.inj hd).symm, Or.inl hnone⟩
  · simp only [hf, hg, hplace, hpre, Bool.false_eq_true, if_false] at hd
    cases e with
    | dir mode' =>
        dsimp only at hd
        split at hd
        · rename_i hempty
          rw [Bool.and_eq_true, children_isEmpty] at hempty
          refine ⟨hr, (Option.some.inj hd).symm, Or.inr ⟨⟨mode', he'⟩, fun x => ?_⟩⟩
          rw [← hempty.1 x, List.append_assoc]
          rfl
        · exact absurd hd (by simp)
    | file => exact absurd hd (by simp)
    | link => exact absurd hd (by simp)
    | device => exact absurd hd (by simp)

/-- What making an entry a directory may change: the area and the entry may be new directories. -/
structure MadeDir (home : Place) (area name : String) (disk disk' : Disk) : Prop where
  current : disk'.current = disk.current
  frame : ∀ p, p ≠ home ++ [area] → p ≠ home ++ [area, name] → disk'.get? p = disk.get? p
  newArea : disk'.get? (home ++ [area]) = disk.get? (home ++ [area]) ∨
    disk.get? (home ++ [area]) = none ∧ disk'.IsDir (home ++ [area])
  newEntry : disk'.get? (home ++ [area, name]) = disk.get? (home ++ [area, name]) ∨
    disk.get? (home ++ [area, name]) = none ∧ disk'.IsDir (home ++ [area, name])

/-- A directory that is there already is made without a change. -/
theorem MadeDir.refl (home : Place) (area name : String) (disk : Disk) :
    MadeDir home area name disk disk := ⟨rfl, fun _ _ _ => rfl, Or.inl rfl, Or.inl rfl⟩

/-- A new area. -/
theorem MadeDir.ofArea (h : disk.get? (home ++ [area]) = none) :
    MadeDir home area name disk (disk.set (home ++ [area]) (.dir .newDir)) := by
  have hset := @get?_set disk _ (ne_nil_of_below (below_append home area [])) (.dir .newDir)
  refine ⟨rfl, fun p hp _ => by rw [hset, if_neg hp], Or.inr ⟨h, .newDir, ?_⟩, Or.inl ?_⟩
  · rw [hset, if_pos rfl]
  · rw [hset, if_neg fun heq => by simp at heq]

/-- A new entry after what was made before. -/
theorem MadeDir.of_set {disk₁ : Disk} (h : MadeDir home area name disk disk₁)
    (hd : disk' = disk₁ ∨ disk₁.get? (home ++ [area, name]) = none ∧
      disk' = disk₁.set (home ++ [area, name]) (.dir .newDir)) :
    MadeDir home area name disk disk' := by
  obtain rfl | ⟨hnone, rfl⟩ := hd
  · exact h
  have hset := @get?_set disk₁ _ (ne_nil_of_below (below_append home area [name]))
    (.dir .newDir)
  have harea : (disk₁.set (home ++ [area, name]) (.dir .newDir)).get? (home ++ [area]) =
      disk₁.get? (home ++ [area]) := by rw [hset, if_neg fun heq => by simp at heq]
  refine ⟨h.current, fun p hp hp' => ?_, ?_, ?_⟩
  · rw [hset, if_neg hp', h.frame p hp hp']
  · rw [harea, IsDir, harea]
    exact h.newArea
  · refine Or.inr ⟨?_, .newDir, by rw [hset, if_pos rfl]⟩
    obtain heq | ⟨hnone', -⟩ := h.newEntry
    · rw [← heq, hnone]
    · exact hnone'

/-- What is looked at when a directory is made in one that a path leads to. -/
theorem LeadsTo.makeDir_join (h : disk.LeadsTo dir home) (hname : isEntryName name = true)
    (hl : disk.Unlinked (home ++ [name])) :
    disk.makeDir (dir.join ⟨name⟩) =
      if unusable (dir.join ⟨name⟩) then .refused
      else if 255 < name.utf8ByteSize then .refused
      else
        match disk.get? (home ++ [name]) with
        | none => .made (disk.set (home ++ [name]) (.dir .newDir))
        | some _ => .refused := by
  rw [makeDir, Path.withoutFinalSlashes_join hname, h.find_join hname hl]
  split_ifs
  · rfl
  · rfl
  · cases disk.get? (home ++ [name]) <;> rfl

/-- **Making a directory** in one that a path leads to does nothing but that, and tells whether it
is there. -/
theorem LeadsTo.createDirAll_join (h : disk.LeadsTo dir home) (hname : isEntryName name = true)
    (hl : disk.Unlinked (home ++ [name])) (fuel : Nat) :
    ∃ disk', disk.makeDirs (fuel + 1) (dir.join ⟨name⟩) =
        (decide (disk'.kind? (dir.join ⟨name⟩) = some .dir), disk') ∧
      (disk' = disk ∨
        disk.get? (home ++ [name]) = none ∧ disk' = disk.set (home ++ [name]) (.dir .newDir) ∧
          disk'.kind? (dir.join ⟨name⟩) = some .dir) := by
  have hbelow : Below home (home ++ [name]) := below_append home name []
  have hget := @get?_set disk _ (ne_nil_of_below hbelow) (.dir .newDir) (home ++ [name])
  rw [if_pos rfl] at hget
  rw [makeDirs, if_neg (Path.text_join_ne hname dir), h.makeDir_join hname hl]
  by_cases hun : unusable (dir.join ⟨name⟩) = true
  · rw [if_pos hun]
    exact ⟨disk, rfl, Or.inl rfl⟩
  rw [if_neg hun]
  by_cases hlong : 255 < name.utf8ByteSize
  · rw [if_pos hlong]
    exact ⟨disk, rfl, Or.inl rfl⟩
  rw [if_neg hlong]
  cases hentry : disk.get? (home ++ [name]) with
  | some e => exact ⟨disk, rfl, Or.inl rfl⟩
  | none =>
      have hnew : (disk.set (home ++ [name]) (.dir .newDir)).LeadsTo dir home :=
        h.congr (.set hbelow (.dir .newDir))
      have hk : (disk.set (home ++ [name]) (.dir .newDir)).kind? (dir.join ⟨name⟩) = some .dir := by
        rw [kind?, hnew.find_join hname (IsDir.unlinked ⟨_, hget⟩), if_neg hun, if_neg hlong, hget]
      refine ⟨_, ?_, Or.inr ⟨rfl, rfl, hk⟩⟩
      rw [hk]
      rfl

/-- **Making an area** does nothing but that, and tells whether it is there. The directory that it
is made in is there already. -/
theorem createDirAll_area (h : disk.HasArea dir home area) (fuel : Nat) :
    ∃ disk', disk.makeDirs (fuel + 1) (dir.join ⟨area⟩) =
        (decide (disk'.kind? (dir.join ⟨area⟩) = some .dir), disk') ∧
      (disk' = disk ∨
        disk.get? (home ++ [area]) = none ∧ disk' = disk.set (home ++ [area]) (.dir .newDir) ∧
          disk'.kind? (dir.join ⟨area⟩) = some .dir) :=
  h.leads.createDirAll_join h.isName h.unlinked fuel

/-- **Making a directory of a cache** by its path is making it at its place: it is set there if the
place is free, and refused if something else is there. -/
theorem makeDir_entryPath (h : disk.HasArea dir home area) (hname : isEntryName name = true) :
    disk.makeDir (entryPath dir area name) =
      match disk.slot home (entryPath dir area name) area name with
      | .free place _ => .made (disk.set place (.dir .newDir))
      | .missing => .noParent
      | _ => .refused := by
  have hplain : (entryPath dir area name).withoutFinalSlashes = entryPath dir area name :=
    Path.withoutFinalSlashes_join hname (dir.join ⟨area⟩)
  have hfind := find_entryPath h hname false (absurd · (by simp))
  rw [makeDir, hplain]
  cases hslot : disk.slot home (entryPath dir area name) area name <;> rw [hfind, hslot]

/-- A single attempt at making an entry a directory. -/
theorem makeDir_attempt (h : disk.HasArea dir home area) (hname : isEntryName name = true) :
    ∃ disk', (match disk.makeDir (entryPath dir area name) with
        | .made disk' => (true, disk')
        | _ => (decide (disk.kind? (entryPath dir area name) = some .dir), disk)) =
          (decide (disk'.kind? (entryPath dir area name) = some .dir), disk') ∧
      (disk' = disk ∨ disk.get? (home ++ [area, name]) = none ∧
        disk' = disk.set (home ++ [area, name]) (.dir .newDir)) := by
  have hbelow : Below home (home ++ [area, name]) := below_append home area [name]
  have hne : home ++ [area] ≠ home ++ [area, name] := fun heq => by simp at heq
  have harea : (disk.set (home ++ [area, name]) (.dir .newDir)).get? (home ++ [area]) =
      disk.get? (home ++ [area]) := by rw [get?_set (ne_nil_of_below hbelow), if_neg hne]
  have hnew : (disk.set (home ++ [area, name]) (.dir .newDir)).IsDir (home ++ [area, name]) :=
    ⟨.newDir, by rw [get?_set (ne_nil_of_below hbelow), if_pos rfl]⟩
  rw [makeDir_entryPath h hname, ← find_entryPath h hname false (absurd · (by simp))]
  obtain ⟨-, hf⟩ | ⟨-, hf⟩ | ⟨hr, hnone, hf⟩ | ⟨-, e, -, hf⟩ :=
    find_cases h hname false (absurd · (by simp))
  · rw [hf]
    exact ⟨disk, rfl, Or.inl rfl⟩
  · rw [hf]
    exact ⟨disk, rfl, Or.inl rfl⟩
  · rw [hf]
    refine ⟨_, Prod.ext (decide_eq_true ?_).symm rfl, Or.inr ⟨hnone, rfl⟩⟩
    have h' := h.congr (.set hbelow (.dir .newDir)) (by rw [Unlinked, harea]; exact h.unlinked)
    refine (kind?_eq_dir_iff h' hname hnew.unlinked).2 ⟨hr.congr ?_, hnew⟩
    rw [IsDir, harea]
    exact hr.area
  · rw [hf]
    exact ⟨disk, rfl, Or.inl rfl⟩

/-- **Making an entry a directory** makes the area and then the entry, each if there is nothing at
its place, and tells whether the entry is a directory then. -/
theorem createDirAll_steps (h : disk.HasArea dir home area) (hname : isEntryName name = true)
    (hl : disk.Unlinked (home ++ [area, name])) :
    ∃ disk₁ disk', disk.createDirAll (entryPath dir area name) =
        (decide (disk'.kind? (entryPath dir area name) = some .dir), disk') ∧
      (disk₁ = disk ∨ disk.get? (home ++ [area]) = none ∧
        disk₁ = disk.set (home ++ [area]) (.dir .newDir)) ∧
      (disk' = disk₁ ∨ disk₁.get? (home ++ [area, name]) = none ∧
        disk' = disk₁.set (home ++ [area, name]) (.dir .newDir)) := by
  have hbelow : Below home (home ++ [area]) := below_append home area []
  obtain ⟨disk₂, hattempt, hd₂⟩ := makeDir_attempt h hname
  have htext : (entryPath dir area name).text ≠ "" := Path.text_join_ne hname _
  rw [createDirAll, makeDirs, if_neg htext]
  rw [makeDir_entryPath h hname, ← find_entryPath h hname false (absurd · (by simp))] at hattempt ⊢
  obtain ⟨-, hf⟩ | ⟨harea, hf⟩ | ⟨-, -, hf⟩ | ⟨-, e, -, hf⟩ :=
    find_cases h hname false (absurd · (by simp))
  · rw [hf] at hattempt ⊢
    exact ⟨disk, disk₂, hattempt, Or.inl rfl, hd₂⟩
  · rw [hf]
    have hparent : (entryPath dir area name).parent? = some (dir.join ⟨area⟩) :=
      Path.parent?_join h.isName hname dir
    obtain ⟨disk₁, hdirs, hd₁⟩ := createDirAll_area h ((entryPath dir area name).chars.length)
    dsimp only
    rw [hparent]
    dsimp only
    rw [hdirs]
    obtain rfl | ⟨-, rfl, hkind⟩ := hd₁
    · have hnone : disk₁.kind? (dir.join ⟨area⟩) ≠ some .dir := by
        rw [kind?, find_area h, harea]
        split_ifs <;> simp
      refine ⟨disk₁, disk₁, ?_, Or.inl rfl, Or.inl rfl⟩
      have hentry : disk₁.kind? (entryPath dir area name) ≠ some .dir := fun hk =>
        absurd (((kind?_eq_dir_iff h hname hl).1 hk).1.area) (by simp [IsDir, harea])
      rw [decide_eq_false hnone, decide_eq_false hentry]
      rfl
    · have hget : (disk.set (home ++ [area]) (.dir .newDir)).get? (home ++ [area]) =
          some (.dir .newDir) := by rw [get?_set (ne_nil_of_below hbelow), if_pos rfl]
      have h₁ := h.congr (.set hbelow (.dir .newDir)) (IsDir.unlinked ⟨_, hget⟩)
      obtain ⟨disk₃, hattempt₃, hd₃⟩ := makeDir_attempt h₁ hname
      refine ⟨_, disk₃, ?_, Or.inr ⟨harea, rfl⟩, hd₃⟩
      rw [hkind]
      exact hattempt₃
  · rw [hf] at hattempt ⊢
    exact ⟨disk, disk₂, hattempt, Or.inl rfl, hd₂⟩
  · rw [hf] at hattempt ⊢
    exact ⟨disk, disk₂, hattempt, Or.inl rfl, hd₂⟩

/-- **Making an entry a directory** does nothing but that, and tells whether it is one. The area may
be made on the way, even if the entry cannot be. -/
theorem createDirAll_entryPath (h : disk.HasArea dir home area) (hname : isEntryName name = true)
    (hl : disk.Unlinked (home ++ [area, name])) :
    ∃ disk', disk.createDirAll (entryPath dir area name) =
        (decide (disk'.kind? (entryPath dir area name) = some .dir), disk') ∧
      MadeDir home area name disk disk' := by
  obtain ⟨disk₁, disk', hmade, hd₁, hd'⟩ := createDirAll_steps h hname hl
  refine ⟨disk', hmade, .of_set ?_ hd'⟩
  obtain rfl | ⟨hnone, rfl⟩ := hd₁
  · exact .refl home area name disk₁
  · exact .ofArea hnone

/-- What a disk holds once a free entry of an area is a new directory, and the area is there. -/
def withNewDir (disk : Disk) (home : Place) (area name : String) : Place → Option Entry := fun p =>
  if p = home ++ [area, name] then some (.dir .newDir)
  else if p = home ++ [area] then some ((disk.get? p).getD (.dir .newDir))
  else disk.get? p

/-- **Making a directory of a free entry** makes that and the area, if it is missing. -/
theorem createDirAll_new (h : disk.HasArea dir home area) (hname : isEntryName name = true)
    (hnone : disk.get? (home ++ [area, name]) = none)
    (hok : disk.createDirAll (entryPath dir area name) = (true, disk')) :
    disk'.current = disk.current ∧ disk'.get? = disk.withNewDir home area name ∧
      disk'.Reaches home dir area name := by
  have hl : disk.Unlinked (home ++ [area, name]) := fun _ hlink => by simp [hnone] at hlink
  have hplaces : home ++ [area] ≠ home ++ [area, name] := fun heq => by simp at heq
  have hsetArea := @get?_set disk _ (ne_nil_of_below (below_append home area [])) (.dir .newDir)
  obtain ⟨disk₁, disk₂, hmade, hd₁, hd₂⟩ := createDirAll_steps h hname hl
  obtain ⟨hkind, rfl⟩ := Prod.mk.inj (hok.symm.trans hmade)
  have hkind := of_decide_eq_true hkind.symm
  have hagree₁ : AgreeOutside home disk disk₁ := by
    obtain rfl | ⟨-, rfl⟩ := hd₁
    · exact .refl home disk₁
    · exact .set (below_append home area []) _
  have harea₁ : disk₁.Unlinked (home ++ [area]) := by
    obtain rfl | ⟨-, rfl⟩ := hd₁
    · exact h.unlinked
    · exact IsDir.unlinked ⟨.newDir, by rw [hsetArea, if_pos rfl]⟩
  have hentry₁ : disk₁.get? (home ++ [area, name]) = none := by
    obtain rfl | ⟨-, rfl⟩ := hd₁
    · exact hnone
    · rw [hsetArea, if_neg hplaces.symm, hnone]
  have h₁ : disk₁.HasArea dir home area := h.congr hagree₁ harea₁
  -- The entry was free before the last step, so that step must have made it.
  obtain rfl | ⟨-, rfl⟩ := hd₂
  · obtain ⟨-, mode, hmode⟩ := (kind?_eq_dir_iff h₁ hname fun _ hlink => by
      simp [hentry₁] at hlink).1 hkind
    exact absurd hmode (by simp [hentry₁])
  have hset := @get?_set disk₁ _ (ne_nil_of_below (below_append home area [name])) (.dir .newDir)
  have hreaches : (disk₁.set (home ++ [area, name]) (.dir .newDir)).Reaches home dir area name := by
    refine ((kind?_eq_dir_iff (h₁.congr (.set (below_append home area [name]) _) ?_) hname
      (IsDir.unlinked ⟨.newDir, ?_⟩)).1 hkind).1
    · rw [Unlinked, hset, if_neg hplaces]
      exact harea₁
    · rw [hset, if_pos rfl]
  refine ⟨hagree₁.current, funext fun p => ?_, hreaches⟩
  rw [hset, withNewDir]
  by_cases hp : p = home ++ [area, name]
  · rw [if_pos hp, if_pos hp]
  rw [if_neg hp, if_neg hp]
  by_cases ha : p = home ++ [area]
  · subst ha
    rw [if_pos rfl]
    obtain rfl | ⟨hfree, rfl⟩ := hd₁
    · obtain ⟨mode, hmode⟩ := hreaches.area
      rw [hset, if_neg hplaces] at hmode
      rw [hmode]
      rfl
    · rw [hsetArea, if_pos rfl, hfree]
      rfl
  · rw [if_neg ha]
    obtain rfl | ⟨-, rfl⟩ := hd₁
    · rfl
    · rw [hsetArea, if_neg ha]

/-- A free entry that its path can be followed to can be made a directory. -/
theorem createDirAll_of_reaches (h : disk.HasArea dir home area) (hname : isEntryName name = true)
    (hr : disk.Reaches home dir area name) (hnone : disk.get? (home ++ [area, name]) = none) :
    disk.createDirAll (entryPath dir area name) =
      (true, disk.set (home ++ [area, name]) (.dir .newDir)) := by
  have hfind := find_of_reaches h hname hr false (absurd · (by simp))
  rw [hnone] at hfind
  have htext : (entryPath dir area name).text ≠ "" := Path.text_join_ne hname _
  rw [createDirAll, makeDirs, if_neg htext, makeDir_entryPath h hname,
    ← find_entryPath h hname false (absurd · (by simp)), hfind]

end Disk
end ProcessKit
