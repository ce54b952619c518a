/-
# The protocol of a cache

Processes that unpack the same tarball into one cache share its target and its marker, and each has
a staging directory of its own. `protocol` says what a step of each of them may do: a `Change` of
the disk, by way of its own staging directory only. What a process knows about its own staging
directory cannot be spoilt by the others (`stable_staged`, `stable_ready`), and what it knows about
the target and the marker cannot be spoilt by anyone (`lasting_target`, `lasting_marked`).

These are the two kinds of knowledge that the proofs about single requests work with. A process
learns that its staging directory is there when it makes it, that it is filled when the tool comes
back, and that the target is there when it looks or when its rename succeeds. Each of these facts is
written as a predicate on what is shared (`Staged`, `Ready`, `InExtracted`, `Marked`), and has one
lemma here that says who can spoil it.

Removing a staging directory has two ends, and `Discards` is the list of them: it is gone, or
permission bits refuse to remove it, and then at most something in it is missing and what is left
cannot be removed by the next attempt either. Every proof about a removal takes these two cases, and
none of them opens the removal itself.
-/

import ProcessKit.Proofs.Cache.Change
import ProcessKit.Proofs.Host.Interleaving

namespace ProcessKit
namespace Cache

open Disk

variable {dir : Path} {home : Place} {name : String} {processId : Nat} {disk disk' : Disk}

/-- The directory of a cache, with no symbolic link where a tarball is unpacked and marked. -/
structure Plain (dir : Path) (home : Place) (name : String) (disk : Disk) : Prop where
  leads : disk.LeadsTo dir home
  extracted : disk.Unlinked (extractedAt home)
  markers : disk.Unlinked (markersAt home)
  target : disk.Unlinked (targetAt home name)
  staging : ∀ processId, disk.Unlinked (stagingAt home name processId)
  marker : disk.Unlinked (markerAt home name)

/-- What is unpacked is in an area of the cache. -/
theorem Plain.hasExtracted (h : Plain dir home name disk) : disk.HasArea dir home "extracted" :=
  ⟨h.leads, isEntryName_extracted, by decide, h.extracted⟩

/-- The markers are in an area of the cache. -/
theorem Plain.hasMarkers (h : Plain dir home name disk) : disk.HasArea dir home "markers" :=
  ⟨h.leads, isEntryName_markers, by decide, h.markers⟩

/-- When a target is seen to be there. -/
theorem Plain.kind?_target {cache : Cache} (h : Plain cache.dir home name disk)
    (hname : isEntryName name = true) :
    disk.kind? (cache.target name) = some .dir ↔
      disk.Reaches home cache.dir "extracted" name ∧ disk.IsDir (targetAt home name) :=
  kind?_eq_dir_iff h.hasExtracted hname h.target

/-- When a marker is seen to be there. -/
theorem Plain.kind?_marker {cache : Cache} (h : Plain cache.dir home name disk)
    (hname : isEntryName name = true) :
    disk.kind? (cache.marker name) = some .file ↔
      disk.Reaches home cache.dir "markers" (name ++ ".complete") ∧
        disk.IsFile (markerAt home name) :=
  kind?_eq_file_iff h.hasMarkers (isEntryName_marker hname) h.marker

/-- A cache directory without links in it is plain. -/
theorem plain_of_unlinked (hleads : disk.LeadsTo dir home)
    (h : ∀ place, home <+: place → disk.Unlinked place) : Plain dir home name disk :=
  have hinside : ∀ rel, disk.Unlinked (home ++ rel) := fun rel => h _ (List.prefix_append home rel)
  ⟨hleads, hinside _, hinside _, hinside _, fun _ => hinside _, hinside _⟩

/-- The cache `/c` of process 1. -/
def firstCache : Cache := ⟨⟨"/c"⟩, 1⟩

/-- A machine with the empty directory `/c`. -/
def emptyCache : Machine := { disk := ⟨[(["c"], .dir .newDir)], []⟩, calls := [] }

/-- The empty directory `/c` is a cache without symbolic links. -/
theorem plain_emptyCache (name : String) : Plain ⟨"/c"⟩ ["c"] name emptyCache.disk := by
  refine plain_of_unlinked ?_ fun _ _ => unlinked_of_entries (by simp [emptyCache]) _
  exact (leadsTo_root _).join (show isEntryName "c" = true by decide) (by decide) ⟨.newDir, rfl⟩

/-- **A step of any process, on any tarball, makes no symbolic link** where another one is unpacked
and marked. So a cache that is plain for all names stays so, whoever works in it. -/
theorem Change.plain {other : String} {Finished : (Place → Option Entry) → Prop}
    (hc : Change home other processId Finished disk disk') (h : Plain dir home name disk) :
    Plain dir home name disk' :=
  ⟨h.leads.congr hc.agreeOutside, hc.unlinked (by simp) h.extracted,
    hc.unlinked (by simp) h.markers, hc.unlinked (by simp) h.target,
    fun processId => hc.unlinked (by simp) (h.staging processId), hc.unlinked (by simp) h.marker⟩

/-- The calls of the tool by one process that came back. -/
def ownReturns (processId : Nat) (returned : List Return) : List Return :=
  returned.filter (·.processId == processId)

/-- The process has had an archive unpacked in `dest`, and that was its last call. -/
def Extracted (dest : Path) (processId : Nat) (returned : List Return) : Prop :=
  ∃ front r archive, ownReturns processId returned = front ++ [r] ∧
    r.call = .extract archive dest ∧ r.result = .ok ()

/-- **The process has unpacked a tree:** it had an archive unpacked in `dest` and then all of it
made accessible, both calls went well, and `tree` is what was in `dest` after them. -/
def Unpacked (dest : Path) (processId : Nat) (returned : List Return)
    (tree : Place → Option Entry) : Prop :=
  ∃ r r' archive, [r, r'] <:+: ownReturns processId returned ∧
    r.call = .extract archive dest ∧ r.result = .ok () ∧
    r'.call = .grantAccess dest ∧ r'.result = .ok () ∧ r'.tree = tree

/-- Where a process unpacks the tarball `name`. -/
abbrev stagingPath (dir : Path) (name : String) (processId : Nat) : Path :=
  (Cache.mk dir processId).staging name

/-! ### Removing a staging directory -/

/-- **What removing the staging directory comes to:** it is gone; or the removal is refused, which
takes away at most something below it and leaves a directory that cannot be removed. -/
inductive Discards (dir : Path) (home : Place) (name : String) (processId : Nat) (disk : Disk) :
    Bool × Disk → Prop
  /-- The staging directory is gone. -/
  | gone : Discards dir home name processId disk
      (true, disk.eraseTree (stagingAt home name processId))
  /-- There is none to be removed, or permission bits refuse to remove all of it. -/
  | refused {disk' : Disk}
      (hkept : disk' = disk ∨ Within (stagingAt home name processId) disk disk')
      (hleft : disk.Reaches home dir "extracted" (stagingName name processId) →
        disk'.IsDir (stagingAt home name processId) →
          ¬ disk'.Removable (stagingAt home name processId)) :
      Discards dir home name processId disk (false, disk')

/-- Removing the staging directory comes to one of these. -/
theorem Plain.discards (h : Plain dir home name disk) (hname : isEntryName name = true)
    (processId : Nat) : Discards dir home name processId disk
      (disk.removeDirAll (stagingPath dir name processId)) := by
  have hstaging := isEntryName_stagingName hname processId
  have hgone := @removeDirAll_entryPath disk home dir "extracted" _ h.hasExtracted hstaging
  have hrefused := @removeDirAll_refused disk home dir "extracted" _ h.hasExtracted hstaging
  have hleft := @not_removable_removeDirAll disk home dir "extracted" _ h.hasExtracted hstaging
  change Discards dir home name processId disk
    (disk.removeDirAll (entryPath dir "extracted" (stagingName name processId)))
  cases hremove : disk.removeDirAll (entryPath dir "extracted" (stagingName name processId)) with
  | mk removed disk' =>
      rw [hremove] at hgone hrefused hleft
      cases removed with
      | true =>
          obtain rfl : disk' = disk.eraseTree (stagingAt home name processId) := hgone rfl
          exact .gone
      | false =>
          have hkept : disk' = disk ∨ Within (stagingAt home name processId) disk disk' :=
            hrefused rfl
          refine .refused hkept fun hreaches hdir => hleft hreaches ?_ rfl
          obtain rfl | hwithin := hkept
          · exact hdir
          · exact hwithin.isDir

/-- Whether it is refused or not, removing the staging directory is a step that a process may
take. -/
theorem Discards.change {Finished : (Place → Option Entry) → Prop} {result : Bool × Disk}
    (h : Discards dir home name processId disk result) :
    Change home name processId Finished disk result.2 := by
  cases h with
  | gone => exact .discard
  | refused hkept =>
      obtain rfl | hwithin := hkept
      · exact .look
      · exact .work hwithin

/-- Nothing else is changed. -/
theorem Discards.frame {result : Bool × Disk} (h : Discards dir home name processId disk result)
    {p : Place} (hp : ¬ stagingAt home name processId <+: p) : result.2.get? p = disk.get? p := by
  cases h with
  | gone => rw [get?_eraseTree (ne_nil_of_below (below_targetAt home _)), if_neg hp]
  | refused hkept =>
      obtain rfl | hwithin := hkept
      · rfl
      · exact hwithin.get? p hp

/-- Nothing is left of a staging directory that was removed. -/
theorem Discards.tree_of_true {result : Bool × Disk}
    (h : Discards dir home name processId disk result) (hok : result.1 = true) (rel : Place) :
    result.2.tree (stagingAt home name processId) rel = none := by
  cases h with
  | gone =>
      rw [tree, get?_eraseTree (ne_nil_of_below (below_targetAt home _)),
        if_pos (List.prefix_append _ rel)]
  | refused => exact absurd hok Bool.false_ne_true

/-- A staging directory that a path leads to is gone then, or what is left of it cannot be
removed. -/
theorem Discards.discarded {result : Bool × Disk}
    (h : Discards dir home name processId disk result)
    (hreaches : disk.Reaches home dir "extracted" (stagingName name processId))
    (hdir : disk.IsDir (stagingAt home name processId)) :
    result.2.Discarded (stagingAt home name processId) := by
  have hgone := h.tree_of_true
  cases h with
  | gone => exact Or.inl (hgone rfl)
  | @refused disk' hkept hleft =>
      have hdir' : disk'.IsDir (stagingAt home name processId) := by
        obtain rfl | hwithin := hkept
        · exact hdir
        · exact hwithin.isDir'
      exact Or.inr ⟨hdir', hleft hreaches hdir'⟩

/-- After removing the staging directory, nothing is left of it but what cannot be removed. -/
theorem Discards.not_removable {result : Bool × Disk}
    (h : Discards dir home name processId disk result)
    (hreaches : disk.Reaches home dir "extracted" (stagingName name processId))
    (hdir : result.2.IsDir (stagingAt home name processId)) :
    ¬ result.2.Removable (stagingAt home name processId) := by
  cases h with
  | gone =>
      obtain ⟨mode, hmode⟩ := hdir
      rw [get?_eraseTree (ne_nil_of_below (below_targetAt home _)),
        if_pos (List.prefix_refl _)] at hmode
      exact absurd hmode (by simp)
  | refused _ hleft => exact hleft hreaches hdir

/-! ### Steps -/

/-- What one step of a process does to what is shared. -/
structure Step (dir : Path) (home : Place) (name : String) (processId : Nat) (s s' : Shared) :
    Prop where
  change : Change home name processId
    (Unpacked (stagingPath dir name processId) processId s.returned)
    s.machine.disk s'.machine.disk
  calls : ∃ new, s'.machine.calls = s.machine.calls ++ new ∧
    ∀ call ∈ new, call.dest = stagingPath dir name processId
  returned : ∃ new, s'.returned = s.returned ++ new ∧ ∀ r ∈ new, r.processId = processId

/-- **The protocol of a cache.** -/
def protocol (dir : Path) (home : Place) (name : String) : Protocol where
  Guarantee := Step dir home name
  Sound s := Plain dir home name s.machine.disk
  sound _ _ _ hg := hg.change.plain

/-- A directory in `extracted` that can be reached. -/
def InExtracted (dir : Path) (home : Place) (x : String) (s : Shared) : Prop :=
  s.machine.disk.Reaches home dir "extracted" x ∧ s.machine.disk.IsDir (targetAt home x)

/-- A staging directory that can be reached. -/
abbrev Staged (dir : Path) (home : Place) (name : String) (processId : Nat) (s : Shared) : Prop :=
  InExtracted dir home (stagingName name processId) s

/-- No staging directory is left, or one that permission bits keep from being removed. -/
def Unstaged (home : Place) (name : String) (processId : Nat) (s : Shared) : Prop :=
  s.machine.disk.IsDir (stagingAt home name processId) →
    s.machine.disk.IsDir (extractedAt home) ∧
      ¬ s.machine.disk.Removable (stagingAt home name processId)

/-- A process has unpacked what is in its staging directory. -/
def Ready (dir : Path) (home : Place) (name : String) (processId : Nat) (s : Shared) : Prop :=
  Unpacked (stagingPath dir name processId) processId s.returned
    (s.machine.disk.tree (stagingAt home name processId))

/-- A marker that can be reached. What is written to a device leaves no file. -/
def Marked (dir : Path) (home : Place) (name : String) (s : Shared) : Prop :=
  s.machine.disk.Reaches home dir "markers" (name ++ ".complete") ∧
    (s.machine.disk.IsFile (markerAt home name) ∨
      s.machine.disk.get? (markerAt home name) = some .device)

/-- A path into an area can still be followed when the area stays a directory. -/
theorem reaches_of_change {area x other : String} {Finished : (Place → Option Entry) → Prop}
    (hc : Change home other processId Finished disk disk')
    (h : disk.Reaches home dir area x) : disk'.Reaches home dir area x :=
  h.congr (hc.area_isDir h.area)

/-- Nobody makes the path of an entry one that cannot be followed. -/
theorem lasting_reaches (area x : String) :
    (protocol dir home name).Lasting fun s => s.machine.disk.Reaches home dir area x :=
  fun _ _ _ _ hg h => reaches_of_change hg.change h

/-- Nobody spoils a target. -/
theorem lasting_target : (protocol dir home name).Lasting (InExtracted dir home name) :=
  fun _ _ _ _ hg h => ⟨reaches_of_change hg.change h.1, hg.change.target_isDir h.2⟩

/-- Nobody spoils a marker. -/
theorem lasting_marked : (protocol dir home name).Lasting (Marked dir home name) := by
  rintro _ s s' _ hg ⟨hr, hm⟩
  refine ⟨reaches_of_change hg.change hr, ?_⟩
  obtain heq | ⟨-, hfile⟩ := hg.change.marker
  · rw [IsFile, heq]
    exact hm
  · exact Or.inl hfile

/-- The others leave a process's staging directory alone. -/
theorem Step.staging {other : Nat} {s s' : Shared} (h : Step dir home name other s s')
    (hne : other ≠ processId) :
    s'.machine.disk.tree (stagingAt home name processId) =
      s.machine.disk.tree (stagingAt home name processId) :=
  h.change.frame_extracted (stagingName_ne name processId)
    fun heq => hne (stagingName_inj heq).2.symm

/-- The others leave a process its staging directory. -/
theorem stable_staged :
    (protocol dir home name).Stable processId (Staged dir home name processId) := by
  rintro s s' - ⟨hr, hd⟩ ⟨other, hne, hg⟩
  exact ⟨reaches_of_change hg.change hr, hd.of_tree (hg.staging hne)⟩

/-- Whether a staging directory is left is seen in its tree and in the directory around it. -/
theorem Unstaged.congr {s s' : Shared} (h : Unstaged home name processId s)
    (htree : s'.machine.disk.tree (stagingAt home name processId) =
      s.machine.disk.tree (stagingAt home name processId))
    (harea : s.machine.disk.IsDir (extractedAt home) →
      s'.machine.disk.get? (extractedAt home) = s.machine.disk.get? (extractedAt home)) :
    Unstaged home name processId s' := by
  intro hdir
  obtain ⟨hextracted, hkept⟩ := h (hdir.of_tree htree.symm)
  have hsame := harea hextracted
  refine ⟨?_, fun hremovable => hkept (hremovable.congr htree.symm ?_)⟩
  · rw [IsDir, hsame]
    exact hextracted
  · rw [dropLast_targetAt]
    exact permits_congr hsame.symm .change

/-- The others do not bring a staging directory back, nor make it removable. -/
theorem stable_unstaged :
    (protocol dir home name).Stable processId (Unstaged home name processId) := by
  rintro s s' - h ⟨other, hne, hg⟩
  refine h.congr (hg.staging hne) fun hextracted => ?_
  obtain hsame | ⟨hnone, -⟩ := hg.change.area "extracted"
  · exact hsame
  · obtain ⟨mode, hmode⟩ := hextracted
    exact absurd (hnone.symm.trans hmode) (by simp)

/-- The calls of the others are not one's own. -/
theorem Step.ownReturns {other : Nat} {s s' : Shared} (h : Step dir home name other s s')
    (hne : other ≠ processId) :
    ownReturns processId s'.returned = ownReturns processId s.returned := by
  obtain ⟨new, hnew, hown⟩ := h.returned
  rw [Cache.ownReturns, hnew, List.filter_append]
  refine List.append_right_eq_self.2 (List.filter_eq_nil_iff.2 fun r hr => ?_)
  rw [hown r hr]
  simpa using hne

/-- What a process had unpacked, and what its last call was, is not a matter of what the others do.
-/
theorem stable_extracted (dest : Path) :
    (protocol dir home name).Stable processId fun s => Extracted dest processId s.returned := by
  rintro s s' - h ⟨other, hne, hg⟩
  rw [Extracted, hg.ownReturns hne]
  exact h

/-- The others change nothing of what a process has unpacked in its staging directory. -/
theorem stable_ready :
    (protocol dir home name).Stable processId (Ready dir home name processId) := by
  rintro s s' - h ⟨other, hne, hg⟩
  rw [Ready, Unpacked, hg.ownReturns hne, hg.staging hne]
  exact h

end Cache
end ProcessKit
