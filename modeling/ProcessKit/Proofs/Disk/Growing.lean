/-
# Disks that grow

A disk grows when every entry stays as it is and others may be added. A path that leads to an entry
leads there as well on a disk that has grown (`Grows.find`), so what exists goes on to exist
(`Grows.kind?`). Making directories lets a disk grow, whether all of them could be made or not
(`grows_createDirAll`).

The converse does not hold. A path that led nowhere may lead to an entry afterwards, and this is
where two commands can differ of which only one has made a directory. The same relation serves
removals, read backwards: a disk from which a tree was taken grows into the one from before.
-/

import ProcessKit.Proofs.Disk.Alike

namespace ProcessKit
namespace Disk

variable {disk disk' disk'' : Disk} {place : Place} {path : Path}

/-- **A disk that has grown** into another one, where every entry is still the same. -/
structure Grows (disk disk' : Disk) : Prop where
  current : disk'.current = disk.current
  get? : ∀ place e, disk.get? place = some e → disk'.get? place = some e

/-- A disk that stays as it is has grown by nothing. -/
theorem Grows.refl (disk : Disk) : Grows disk disk := ⟨rfl, fun _ _ => id⟩

/-- Growing twice is growing. -/
theorem Grows.trans (h : Grows disk disk') (h' : Grows disk' disk'') : Grows disk disk'' :=
  ⟨h'.current.trans h.current, fun place e he => h'.get? place e (h.get? place e he)⟩

/-- An entry at a place where there was nothing. -/
theorem grows_set (h : disk.get? place = none) (entry : Entry) :
    Grows disk (disk.set place entry) := by
  refine ⟨rfl, fun p e he => ?_⟩
  rw [get?_set (ne_nil_of_get? h), if_neg, he]
  rintro rfl
  exact absurd (h.symm.trans he) (by simp)

/-! ### Where a path leads -/

/-- A way to an entry stays one, given that this holds behind a link. -/
theorem Grows.walkFrom (h : Grows disk disk') {followLast : Bool} {atLink atLink' : AtLink}
    {e : Entry}
    (hlink : ∀ start xs, atLink start xs = .entry place e → atLink' start xs = .entry place e)
    {here : Place} {steps : List String}
    (hwalk : disk.walkFrom followLast atLink here steps = .entry place e) :
    disk'.walkFrom followLast atLink' here steps = .entry place e := by
  induction steps generalizing here with
  | nil =>
      rw [Disk.walkFrom] at hwalk ⊢
      split at hwalk
      · rename_i hhere
        rw [h.get? _ _ hhere]
        exact hwalk
      · exact absurd hwalk (by simp)
  | cons step rest ih =>
      rw [Disk.walkFrom] at hwalk ⊢
      by_cases hstay : step = "" ∨ step = "."
      · rw [if_pos hstay] at hwalk ⊢
        exact ih hwalk
      by_cases hup : step = ".."
      · rw [if_neg hstay, if_pos hup] at hwalk ⊢
        exact ih hwalk
      by_cases hlong : 255 < step.utf8ByteSize
      · rw [if_neg hstay, if_neg hup, if_pos hlong] at hwalk
        exact absurd hwalk (by simp)
      rw [if_neg hstay, if_neg hup, if_neg hlong] at hwalk ⊢
      cases hentry : disk.get? (here ++ [step]) with
      | none =>
          simp only [hentry] at hwalk
          split at hwalk <;> exact absurd hwalk (by simp)
      | some entry =>
          rw [h.get? _ _ hentry]
          rw [hentry] at hwalk
          cases entry with
          | dir mode => exact ih hwalk
          | file bytes mode => exact hwalk
          | device => exact hwalk
          | link target =>
              dsimp only at hwalk ⊢
              by_cases hlast : (rest = [] && !followLast) = true
              · rw [if_pos hlast] at hwalk ⊢
                exact hwalk
              by_cases hempty : target = ""
              · rw [if_neg hlast, if_pos hempty] at hwalk
                exact absurd hwalk (by simp)
              rw [if_neg hlast, if_neg hempty] at hwalk ⊢
              exact hlink _ _ hwalk

/-- A walk that ended at an entry ends there still, after more was added to the disk: nothing on its
way was changed or removed. -/
theorem Grows.walk (h : Grows disk disk') {followLast : Bool} {e : Entry} {links : Nat}
    {here : Place} {steps : List String}
    (hwalk : disk.walk followLast links here steps = .entry place e) :
    disk'.walk followLast links here steps = .entry place e := by
  induction links generalizing here steps with
  | zero => exact h.walkFrom (fun _ _ hblocked => absurd hblocked (by simp)) hwalk
  | succ links ih => exact h.walkFrom (fun _ _ hlink => ih hlink) hwalk

/-- **A path that leads to an entry** leads there on a disk that has grown, through the same links.
One that led nowhere may lead somewhere now. -/
theorem Grows.find (h : Grows disk disk') {followLast : Bool} {e : Entry}
    (hfind : disk.find followLast path = .entry place e) :
    disk'.find followLast path = .entry place e := by
  rw [Disk.find] at hfind ⊢
  rw [h.current]
  split at hfind
  · exact absurd hfind (by simp)
  split at hfind
  · exact absurd hfind (by simp)
  rename_i hempty hunusable
  rw [if_neg hempty, if_neg hunusable]
  exact h.walk hfind

/-- **What exists** exists on a disk that has grown, and is of the same kind. So a look that found
something finds it again. -/
theorem Grows.kind? (h : Grows disk disk') {kind : Kind} (hkind : disk.kind? path = some kind) :
    disk'.kind? path = some kind := by
  rw [Disk.kind?] at hkind ⊢
  cases hfind : disk.find true path with
  | entry place e =>
      rw [h.find hfind]
      rw [hfind] at hkind
      exact hkind
  | free | missing | blocked =>
      rw [hfind] at hkind
      exact absurd hkind (by simp)

/-! ### Making directories -/

/-- Making a directory takes nothing away. -/
theorem grows_makeDir (h : disk.makeDir path = .made disk') : Grows disk disk' := by
  rw [makeDir] at h
  split at h
  · rename_i hfind
    obtain rfl := MakeDir.made.inj h
    exact grows_set (get?_of_find_free hfind) _
  · exact absurd h (by simp)
  · exact absurd h (by simp)

/-- The directories above come first, and the last one is made on what they leave. -/
theorem grows_makeDirs (disk : Disk) (fuel : Nat) (path : Path) :
    Grows disk (disk.makeDirs fuel path).2 := by
  induction fuel generalizing disk path with
  | zero => exact .refl disk
  | succ fuel ih =>
      rw [makeDirs]
      split_ifs
      · exact .refl disk
      cases hmake : disk.makeDir path with
      | made made => exact grows_makeDir hmake
      | refused => exact .refl disk
      | noParent =>
          dsimp only
          cases path.parent? with
          | none => exact .refl disk
          | some parent =>
              dsimp only
              refine (ih disk parent).trans ?_
              split_ifs
              · exact .refl _
              cases hmake' : (disk.makeDirs fuel parent).2.makeDir path with
              | made made => exact grows_makeDir hmake'
              | noParent | refused => exact .refl _

/-- **Making a directory** with those above it only adds entries, even where it fails: those made
before the failure stay. -/
theorem grows_createDirAll (disk : Disk) (path : Path) : Grows disk (disk.createDirAll path).2 :=
  grows_makeDirs disk (path.chars.length + 2) path

end Disk
end ProcessKit
