/-
# What one step may do to a cache

`Change` lists what a single step of a process that unpacks one tarball may do to the disk. Its
cases are all that later proofs know about the steps: a target once there stays there, a target with
something in it keeps its tree (`Change.target`), a marker is set only beside a target
(`Change.marker`), and nothing else of the cache is touched (`Change.frame_extracted`,
`Change.frame_markers`).

There are seven cases. A step only looks, prepares the staging directory, works in it, removes it,
moves it to the target, makes the directory of the markers, or marks. The one that publishes carries
what must hold before: the target is missing or an empty directory, and the tree that is moved there
is a finished one. What it means to be finished is left open here (`Finished`); the protocol fills
it in with the calls of the tool that have come back.

No case is about another tarball. So the same facts serve a process that is alone, processes that
share a tarball, and tarballs that lie next to each other, and what a step leaves alone is said by
places, not by names (`Change.frame`).
-/

import ProcessKit.Proofs.Cache.Layout

namespace ProcessKit
namespace Cache

open Disk

/-- What one step of a process does to the disk while it unpacks the tarball `name`. `Finished`
holds of the trees that may be published. -/
inductive Change (home : Place) (name : String) (processId : Nat)
    (Finished : (Place → Option Entry) → Prop) (disk : Disk) : Disk → Prop
  /-- The step only looks. -/
  | look : Change home name processId Finished disk disk
  /-- The areas and the staging directory are made, as far as they are missing. -/
  | prepare {disk' : Disk}
      (h : MadeDir home "extracted" (stagingName name processId) disk disk') :
      Change home name processId Finished disk disk'
  /-- Something happens in the staging directory. -/
  | work {disk' : Disk} (h : Within (stagingAt home name processId) disk disk') :
      Change home name processId Finished disk disk'
  /-- The staging directory is removed. -/
  | discard : Change home name processId Finished disk
      (disk.eraseTree (stagingAt home name processId))
  /-- The staging directory becomes the target, which was missing or empty. -/
  | publish (hs : disk.IsDir (stagingAt home name processId))
      (ht : disk.get? (targetAt home name) = none ∨ disk.IsDir (targetAt home name) ∧
        ∀ x, disk.get? (home ++ ["extracted", name, x]) = none)
      (hf : Finished (disk.tree (stagingAt home name processId))) :
      Change home name processId Finished disk
        (disk.moveTree (stagingAt home name processId) (targetAt home name))
  /-- The directory of the markers is made. -/
  | makeMarkers (h : disk.get? (markersAt home) = none) :
      Change home name processId Finished disk (disk.set (markersAt home) (.dir .newDir))
  /-- A target is marked. -/
  | mark (h : disk.IsDir (targetAt home name)) (bytes : Bytes) (mode : Mode) :
      Change home name processId Finished disk (disk.set (markerAt home name) (.file bytes mode))

variable {home : Place} {name : String} {processId : Nat}
  {Finished : (Place → Option Entry) → Prop} {disk disk' : Disk}

/-- The directory of the published trees is below the cache. -/
theorem below_extractedAt (home : Place) : Below home (extractedAt home) :=
  below_append home "extracted" []

/-- The directory of the markers is below the cache. -/
theorem below_markersAt (home : Place) : Below home (markersAt home) :=
  below_append home "markers" []

/-- The target of a tarball is below the cache, so all of its tree is. -/
theorem below_targetAt (home : Place) (name : String) : Below home (targetAt home name) :=
  below_append home "extracted" [name]

/-- The marker of a tarball is below the cache, in the directory of the markers. -/
theorem below_markerAt (home : Place) (name : String) : Below home (markerAt home name) :=
  below_append home "markers" [name ++ ".complete"]

/-- **A step changes nothing** but the two areas, the tarball's target, staging directory and
marker. This is the one place where the cases are gone through for what they leave alone. -/
theorem Change.frame (h : Change home name processId Finished disk disk') {p : Place}
    (hx : p ≠ extractedAt home) (hm : p ≠ markersAt home) (hk : p ≠ markerAt home name)
    (hs : ¬ stagingAt home name processId <+: p) (ht : ¬ targetAt home name <+: p) :
    disk'.get? p = disk.get? p := by
  cases h with
  | look => rfl
  | prepare h =>
      refine h.frame p hx ?_
      rintro rfl
      exact hs (List.prefix_refl _)
  | work h => exact h.get? p hs
  | discard => rw [get?_eraseTree (ne_nil_of_below (below_targetAt home _)), if_neg hs]
  | publish => rw [get?_moveTree (ne_nil_of_below (below_targetAt home _))
      (ne_nil_of_below (below_targetAt home _)), if_neg ht, if_neg hs]
  | makeMarkers => rw [get?_set (ne_nil_of_below (below_markersAt home)), if_neg hm]
  | mark => rw [get?_set (ne_nil_of_below (below_markerAt home name)), if_neg hk]

/-- A step changes nothing outside the directory of the cache. -/
theorem Change.agreeOutside (h : Change home name processId Finished disk disk') :
    AgreeOutside home disk disk' := by
  constructor
  · cases h with
    | prepare h => exact h.current
    | work h => exact h.current
    | _ => rfl
  · intro p hp
    refine h.frame ?_ ?_ ?_ ?_ ?_
    · rintro rfl
      exact hp (below_extractedAt home)
    · rintro rfl
      exact hp (below_markersAt home)
    · rintro rfl
      exact hp (below_markerAt home name)
    · exact fun hpre => hp ((below_targetAt home _).extend hpre)
    · exact fun hpre => hp ((below_targetAt home _).extend hpre)

/-- A step leaves the other trees in `extracted` as they are. -/
theorem Change.frame_extracted (h : Change home name processId Finished disk disk')
    {x : String} (hname : x ≠ name) (hstaging : x ≠ stagingName name processId) :
    disk'.tree (targetAt home x) = disk.tree (targetAt home x) := by
  funext rel
  have hpath : targetAt home x ++ rel = home ++ "extracted" :: x :: rel := by
    rw [List.append_assoc]
    rfl
  rw [tree, tree, hpath]
  refine h.frame ?_ ?_ ?_ ?_ ?_
  · simp
  · simp
  · simp
  · exact not_prefix_of_ne home "extracted" (Ne.symm hstaging) rel
  · exact not_prefix_of_ne home "extracted" (Ne.symm hname) rel

/-- A step leaves the other markers as they are. -/
theorem Change.frame_markers (h : Change home name processId Finished disk disk')
    {x : String} (hname : x ≠ name) :
    disk'.get? (markerAt home x) = disk.get? (markerAt home x) := by
  refine h.frame ?_ ?_ (fun heq => hname (markerAt_inj heq)) ?_ ?_
  · simp
  · simp
  · rw [List.prefix_append_right_inj]
    simp
  · rw [List.prefix_append_right_inj]
    simp

/-- A place at most two steps inside the cache that is at or below an entry is that entry. -/
theorem eq_of_prefix_of_shallow {p : Place} {area x : String} (hp : p.length ≤ home.length + 2)
    (h : home ++ [area, x] <+: p) : p = home ++ [area, x] :=
  (h.eq_of_length_le (by simpa using hp)).symm

/-- **What a step puts** at most two steps inside the cache is a directory or a file: no entry of an
area becomes a link or a device. Deeper down, in a staging directory, the tool may put anything. -/
theorem Change.shallow (h : Change home name processId Finished disk disk') {p : Place}
    (hp : p.length ≤ home.length + 2) :
    disk'.get? p = disk.get? p ∨ disk'.get? p = none ∨ disk'.IsDir p ∨ disk'.IsFile p := by
  have hstaging := ne_nil_of_below (below_targetAt home (stagingName name processId))
  cases h with
  | look => exact Or.inl rfl
  | prepare h =>
      by_cases hx : p = extractedAt home
      · subst hx
        obtain heq | ⟨-, hdir⟩ := h.newArea
        · exact Or.inl heq
        · exact Or.inr (Or.inr (Or.inl hdir))
      by_cases hs : p = stagingAt home name processId
      · subst hs
        obtain heq | ⟨-, hdir⟩ := h.newEntry
        · exact Or.inl heq
        · exact Or.inr (Or.inr (Or.inl hdir))
      exact Or.inl (h.frame p hx hs)
  | work h =>
      by_cases hs : stagingAt home name processId <+: p
      · rw [eq_of_prefix_of_shallow hp hs]
        exact Or.inr (Or.inr (Or.inl h.isDir'))
      · exact Or.inl (h.get? p hs)
  | discard =>
      rw [get?_eraseTree hstaging]
      split_ifs
      · exact Or.inr (Or.inl rfl)
      · exact Or.inl rfl
  | publish hs =>
      obtain ⟨mode, hmode⟩ := hs
      rw [IsDir, IsFile, get?_moveTree hstaging (ne_nil_of_below (below_targetAt home name))]
      split_ifs with ht
      · rw [eq_of_prefix_of_shallow hp ht, List.drop_length, List.append_nil, hmode]
        exact Or.inr (Or.inr (Or.inl ⟨mode, rfl⟩))
      · exact Or.inr (Or.inl rfl)
      · exact Or.inl rfl
  | makeMarkers =>
      rw [IsDir, IsFile, get?_set (ne_nil_of_below (below_markersAt home))]
      split_ifs
      · exact Or.inr (Or.inr (Or.inl ⟨_, rfl⟩))
      · exact Or.inl rfl
  | mark =>
      rw [IsDir, IsFile, get?_set (ne_nil_of_below (below_markerAt home name))]
      split_ifs
      · exact Or.inr (Or.inr (Or.inr ⟨_, _, rfl⟩))
      · exact Or.inl rfl

/-- No step makes a symbolic link at most two steps inside the cache. -/
theorem Change.unlinked (h : Change home name processId Finished disk disk') {p : Place}
    (hp : p.length ≤ home.length + 2) (hl : disk.Unlinked p) : disk'.Unlinked p := by
  obtain heq | hnone | hdir | hfile := h.shallow hp
  · rw [Unlinked, heq]
    exact hl
  · rw [Unlinked, hnone]
    exact fun _ hlink => absurd hlink (by simp)
  · exact hdir.unlinked
  · exact hfile.unlinked

/-- No step makes a device at most two steps inside the cache. -/
theorem Change.ne_device (h : Change home name processId Finished disk disk') {p : Place}
    (hp : p.length ≤ home.length + 2) (hd : disk.get? p ≠ some .device) :
    disk'.get? p ≠ some .device := by
  obtain heq | hnone | ⟨mode, hdir⟩ | ⟨bytes, mode, hfile⟩ := h.shallow hp
  · rw [heq]
    exact hd
  · rw [hnone]
    simp
  · rw [hdir]
    simp
  · rw [hfile]
    simp

/-- An area changes only when it is made. -/
theorem Change.area (h : Change home name processId Finished disk disk') (area : String) :
    disk'.get? (home ++ [area]) = disk.get? (home ++ [area]) ∨
      disk.get? (home ++ [area]) = none ∧ disk'.IsDir (home ++ [area]) := by
  have hdeep : ∀ x, ¬ targetAt home x <+: home ++ [area] := fun x hpre => by
    simpa using hpre.length_le
  have hmarker : home ++ [area] ≠ markerAt home name := by simp
  cases h with
  | prepare h =>
      by_cases hx : home ++ [area] = extractedAt home
      · rw [hx]
        exact h.newArea
      · exact Or.inl (h.frame _ hx (by simp))
  | makeMarkers h =>
      by_cases hm : home ++ [area] = markersAt home
      · rw [hm]
        refine Or.inr ⟨h, .newDir, ?_⟩
        rw [get?_set (ne_nil_of_below (below_markersAt home)), if_pos rfl]
      · rw [get?_set (ne_nil_of_below (below_markersAt home)), if_neg hm]
        exact Or.inl rfl
  | look => exact Or.inl rfl
  | work h => exact Or.inl (h.get? _ (hdeep _))
  | discard =>
      rw [get?_eraseTree (ne_nil_of_below (below_targetAt home _)), if_neg (hdeep _)]
      exact Or.inl rfl
  | publish =>
      rw [get?_moveTree (ne_nil_of_below (below_targetAt home _))
        (ne_nil_of_below (below_targetAt home _)), if_neg (hdeep _), if_neg (hdeep _)]
      exact Or.inl rfl
  | mark =>
      rw [get?_set (ne_nil_of_below (below_markerAt home name)), if_neg hmarker]
      exact Or.inl rfl

/-- What a step of a tarball's protocol changes leaves the two directories of a cache what they are:
neither the directory of the trees nor that of the markers is ever replaced. -/
theorem Change.area_isDir (h : Change home name processId Finished disk disk') {area : String}
    (hd : disk.IsDir (home ++ [area])) : disk'.IsDir (home ++ [area]) := by
  obtain heq | ⟨hnone, -⟩ := h.area area
  · rw [IsDir, heq]
    exact hd
  · obtain ⟨mode, hmode⟩ := hd
    rw [hnone] at hmode
    exact absurd hmode (by simp)

/-- **The target changes only by being published:** before, it is missing or an empty directory,
and afterwards its tree is a finished one. -/
theorem Change.target (h : Change home name processId Finished disk disk') :
    disk'.tree (targetAt home name) = disk.tree (targetAt home name) ∨
      (disk.get? (targetAt home name) = none ∨ disk.IsDir (targetAt home name) ∧
        ∀ x, disk.get? (home ++ ["extracted", name, x]) = none) ∧
      disk'.IsDir (targetAt home name) ∧ Finished (disk'.tree (targetAt home name)) := by
  have hname : name ≠ stagingName name processId := (stagingName_ne name processId).symm
  have hother : ∀ rel, ¬ stagingAt home name processId <+: targetAt home name ++ rel := by
    intro rel hpre
    refine not_prefix_of_ne home "extracted" hname.symm rel ?_
    rwa [List.append_assoc] at hpre
  cases h with
  | look => exact Or.inl rfl
  | prepare h =>
      left
      funext rel
      refine h.frame _ ?_ ?_
      · simp
      · intro heq
        exact hother rel (heq ▸ List.prefix_refl _)
  | work h =>
      left
      funext rel
      exact h.get? _ (hother rel)
  | discard =>
      left
      funext rel
      rw [tree, get?_eraseTree (ne_nil_of_below (below_targetAt home _)), if_neg (hother rel)]
      rfl
  | publish hs ht hf =>
      right
      have htree : (disk.moveTree (stagingAt home name processId) (targetAt home name)).tree
          (targetAt home name) = disk.tree (stagingAt home name processId) := by
        funext rel
        rw [tree, get?_moveTree (ne_nil_of_below (below_targetAt home _))
          (ne_nil_of_below (below_targetAt home _)), if_pos (List.prefix_append _ rel),
          List.drop_left]
        rfl
      exact ⟨ht, hs.of_tree htree, htree ▸ hf⟩
  | makeMarkers =>
      left
      funext rel
      rw [tree, get?_set (ne_nil_of_below (below_markersAt home)), if_neg (by simp)]
      rfl
  | mark =>
      left
      funext rel
      rw [tree, get?_set (ne_nil_of_below (below_markerAt home name)), if_neg (by simp)]
      rfl

/-- A target once there stays there. -/
theorem Change.target_isDir (h : Change home name processId Finished disk disk')
    (hd : disk.IsDir (targetAt home name)) : disk'.IsDir (targetAt home name) := by
  obtain htree | ⟨-, hdir, -⟩ := h.target
  · exact hd.of_tree htree
  · exact hdir

/-- **The marker changes only by being set,** beside a target. It is a file then, whatever it was
before, and no step takes it away. -/
theorem Change.marker (h : Change home name processId Finished disk disk') :
    disk'.get? (markerAt home name) = disk.get? (markerAt home name) ∨
      disk.IsDir (targetAt home name) ∧ disk'.IsFile (markerAt home name) := by
  have hapart : ∀ x, ¬ targetAt home x <+: markerAt home name := fun x hpre => by
    rw [List.prefix_append_right_inj] at hpre
    simp at hpre
  cases h with
  | look => exact Or.inl rfl
  | prepare h => exact Or.inl (h.frame _ (by simp) (by simp))
  | work h => exact Or.inl (h.get? _ (hapart _))
  | discard =>
      rw [get?_eraseTree (ne_nil_of_below (below_targetAt home _)), if_neg (hapart _)]
      exact Or.inl rfl
  | publish =>
      rw [get?_moveTree (ne_nil_of_below (below_targetAt home _))
        (ne_nil_of_below (below_targetAt home _)), if_neg (hapart _), if_neg (hapart _)]
      exact Or.inl rfl
  | makeMarkers =>
      rw [get?_set (ne_nil_of_below (below_markersAt home)), if_neg (by simp)]
      exact Or.inl rfl
  | mark h bytes mode =>
      refine Or.inr ⟨h, bytes, mode, ?_⟩
      rw [get?_set (ne_nil_of_below (below_markerAt home name)), if_pos rfl]

/-- A marker that is written stays a file: a step of the protocol can only write it once more, with
the same or with other contents. -/
theorem Change.marker_isFile (h : Change home name processId Finished disk disk')
    (hf : disk.IsFile (markerAt home name)) : disk'.IsFile (markerAt home name) := by
  obtain heq | ⟨-, hfile⟩ := h.marker
  · rw [IsFile, heq]
    exact hf
  · exact hfile

end Cache
end ProcessKit
