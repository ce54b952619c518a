/-
# Tarballs that were made sure of

When making sure of a tarball succeeds, its target is there and marked. No step on any tarball
spoils that, unless it works in a staging directory of the same name (`Settled.change`), so that at
the end of a list of tarballs all of them are there (`settled_of_ensureEach`). Making sure of such a
tarball once more only looks (`Settled.ensureExtracted_again`), even where its marker is a device
that is written to again each time.

`Settled` is about places, and takes a marker for one whether it is a file or a device. That is what
makes it last: to be complete is to be settled with a file for a marker, and a device never turns
into one. What both have in common is that the archive tool is not called again, and that is what a
caller relies on.
-/

import ProcessKit.Proofs.Cache.Alone

namespace ProcessKit
namespace Cache

open Disk Relation

/-- **A tarball that was made sure of:** its target is there, and so is its marker. -/
structure Settled (dir : Path) (home : Place) (name : String) (disk : Disk) : Prop where
  isName : isEntryName name = true
  plain : Plain dir home name disk
  reaches : disk.Reaches home dir "extracted" name
  target : disk.IsDir (targetAt home name)
  markable : disk.Reaches home dir "markers" (name ++ ".complete")
  marker : disk.IsFile (markerAt home name) ∨ disk.get? (markerAt home name) = some .device

section

variable {dir : Path} {home : Place} {name other : String} {processId : Nat} {disk disk' : Disk}

/-- **No step spoils it,** on this tarball or on another one, outside a staging directory of its
name. The condition is on names alone, so it can be checked before anything is done. -/
theorem Settled.change {Finished : (Place → Option Entry) → Prop}
    (h : Settled dir home name disk) (hc : Change home other processId Finished disk disk')
    (hapart : name ≠ stagingName other processId) : Settled dir home name disk' := by
  have htarget : disk'.IsDir (targetAt home name) := by
    by_cases hne : name = other
    · subst hne
      exact hc.target_isDir h.target
    · exact h.target.of_tree (hc.frame_extracted hne hapart)
  have hmarker : disk'.IsFile (markerAt home name) ∨
      disk'.get? (markerAt home name) = some .device := by
    by_cases hne : name = other
    · subst hne
      obtain heq | ⟨-, hfile⟩ := hc.marker
      · rw [IsFile, heq]
        exact h.marker
      · exact Or.inl hfile
    · rw [IsFile, hc.frame_markers hne]
      exact h.marker
  exact ⟨h.isName, hc.plain h.plain, reaches_of_change hc h.reaches, htarget,
    reaches_of_change hc h.markable, hmarker⟩

/-- A settled tarball stays settled while another process works on any other tarball, for as many
steps as it takes. The other tarball's staging directory must not be this one's target. -/
theorem Settled.steps {s s' : Shared} (h : Settled dir home name s.machine.disk)
    (hsteps : ReflTransGen (Step dir home other processId) s s')
    (hapart : name ≠ stagingName other processId) : Settled dir home name s'.machine.disk :=
  steps_keep (K := fun s => Settled dir home name s.machine.disk)
    (fun _ _ hstep h => h.change hstep.change hapart) hsteps h

end

variable {cache : Cache} {home : Place} {name : String} {tool : Tool} {machine : Machine}
  {technology : Technology} {settings : Settings} {tarball : Tarball}

section

variable (technology settings tarball)

/-- Making sure of a tarball makes no symbolic link where any tarball is unpacked and marked. -/
theorem plain_ensureExtracted (htool : tool.Confined)
    (hs : ∀ x, Plain cache.dir home x machine.disk) (x : String) :
    Plain cache.dir home x
      ((cache.ensureExtracted technology settings tarball).run tool machine).2.disk := by
  cases hname : isEntryName tarball.path with
  | false =>
      rw [run_ensureExtracted_invalid cache tool machine technology settings tarball hname]
      exact hs x
  | true =>
      obtain ⟨returned, hsteps, -⟩ :=
        ensureExtracted_alone technology settings tarball htool hname (hs tarball.path)
      exact steps_plain hsteps (hs x)

/-- What was made sure of stays so when another tarball is. -/
theorem Settled.ensureExtracted (h : Settled cache.dir home name machine.disk)
    (htool : tool.Confined) (hs : Plain cache.dir home tarball.path machine.disk)
    (hapart : name ≠ stagingName tarball.path cache.processId) :
    Settled cache.dir home name
      ((cache.ensureExtracted technology settings tarball).run tool machine).2.disk := by
  cases hname : isEntryName tarball.path with
  | false =>
      rw [run_ensureExtracted_invalid cache tool machine technology settings tarball hname]
      exact h
  | true =>
      obtain ⟨returned, hsteps, -⟩ :=
        ensureExtracted_alone technology settings tarball htool hname hs
      exact Settled.steps h hsteps hapart

/-- What was made sure of stays so when a list of tarballs is, whichever of them fails. -/
theorem Settled.ensureEach (tarballs : List Tarball) (htool : tool.Confined)
    (hapart : ∀ tarball ∈ tarballs, name ≠ stagingName tarball.path cache.processId)
    (hs : ∀ x, Plain cache.dir home x machine.disk)
    (h : Settled cache.dir home name machine.disk) :
    Settled cache.dir home name
      ((cache.ensureEach technology settings tarballs).run tool machine).2.disk := by
  induction tarballs generalizing machine with
  | nil => exact h
  | cons tarball tarballs ih =>
      have hlater : ∀ t ∈ tarballs, name ≠ stagingName t.path cache.processId :=
        fun t ht => hapart t (List.mem_cons_of_mem _ ht)
      have hfirst := h.ensureExtracted technology settings tarball htool (hs tarball.path)
        (hapart tarball (List.mem_cons_self ..))
      have hplain := plain_ensureExtracted technology settings tarball htool hs
      rw [Cache.ensureEach, Action.run_bind]
      cases hrun : (cache.ensureExtracted technology settings tarball).run tool machine with
      | mk result machine' =>
          rw [hrun] at hfirst hplain
          cases result with
          | error error => exact hfirst
          | ok path => exact ih hlater hplain hfirst

end

/-- **Success means that a tarball is settled,** and that its base directory could be determined.
Nothing is required of the state that it was in before. -/
theorem settled_of_ensureExtracted (htool : tool.Confined)
    (hs : Plain cache.dir home tarball.path machine.disk) {path : Path}
    (hok : ((cache.ensureExtracted technology settings tarball).run tool machine).1 = .ok path) :
    Settled cache.dir home tarball.path
        ((cache.ensureExtracted technology settings tarball).run tool machine).2.disk ∧
      ∃ base, technology.baseDir settings tarball.baseVar = .ok base := by
  cases hname : isEntryName tarball.path with
  | false =>
      rw [run_ensureExtracted_invalid cache tool machine technology settings tarball hname] at hok
      exact absurd hok (by simp)
  | true =>
      obtain ⟨returned, hsteps, hends⟩ :=
        ensureExtracted_alone technology settings tarball htool hname hs
      rw [hok] at hends
      obtain ⟨-, ⟨hreaches, htarget⟩, hmarkable, hmarker⟩ := hends
      refine ⟨⟨hname, steps_plain hsteps hs, hreaches, htarget, hmarkable, hmarker⟩, ?_⟩
      cases hbase : technology.baseDir settings tarball.baseVar with
      | ok base => exact ⟨base, rfl⟩
      | error error =>
          rw [run_ensureExtracted cache tool machine technology settings tarball hname, hbase]
            at hok
          exact absurd hok (by simp)

/-- **At the end of a list of tarballs all of them are settled,** as long as none is named like the
staging directory of one of them. Each one is settled by its own turn and kept so by all later ones.
-/
theorem settled_of_ensureEach {tarballs : List Tarball} (htool : tool.Confined)
    (hapart : ∀ t ∈ tarballs, ∀ t' ∈ tarballs, t.path ≠ stagingName t'.path cache.processId)
    (hs : ∀ x, Plain cache.dir home x machine.disk)
    (hok : ((cache.ensureEach technology settings tarballs).run tool machine).1 = .ok ()) :
    ∀ t ∈ tarballs, Settled cache.dir home t.path
        ((cache.ensureEach technology settings tarballs).run tool machine).2.disk ∧
      ∃ base, technology.baseDir settings t.baseVar = .ok base := by
  induction tarballs generalizing machine with
  | nil => exact fun t ht => absurd ht List.not_mem_nil
  | cons tarball tarballs ih =>
      have hlater : ∀ t ∈ tarballs, tarball.path ≠ stagingName t.path cache.processId :=
        fun t ht => hapart tarball (List.mem_cons_self ..) t (List.mem_cons_of_mem _ ht)
      have hplain := plain_ensureExtracted technology settings tarball htool hs
      have hfirst := @settled_of_ensureExtracted _ _ _ _ technology settings tarball htool
        (hs tarball.path)
      rw [ensureEach, Action.run_bind] at hok ⊢
      cases hrun : (cache.ensureExtracted technology settings tarball).run tool machine with
      | mk result machine' =>
          rw [hrun] at hok hplain hfirst
          cases result with
          | error error => exact absurd hok (by simp)
          | ok path =>
              obtain ⟨hsettled, hbase⟩ := hfirst rfl
              rintro t ht
              obtain rfl | ht := List.mem_cons.1 ht
              · exact ⟨hsettled.ensureEach technology settings tarballs htool hlater hplain, hbase⟩
              · refine ih ?_ hplain hok t ht
                exact fun t ht t' ht' =>
                  hapart t (List.mem_cons_of_mem _ ht) t' (List.mem_cons_of_mem _ ht')

/-- A marker that is a device is written to, which leaves the disk as it is. -/
theorem Settled.markComplete_device (h : Settled cache.dir home name machine.disk)
    (hdevice : machine.disk.get? (markerAt home name) = some .device) (archive : Path) :
    (cache.markComplete name archive).run tool machine = (.ok (), machine) := by
  have hname := isEntryName_marker h.isName
  have hmarkers : machine.disk.createDirAll cache.markersDir = (true, machine.disk) := by
    obtain ⟨disk', hmade, hdisk'⟩ :=
      createDirAll_area h.plain.hasMarkers (cache.markersDir.chars.length + 1)
    obtain ⟨mode, hmode⟩ := h.markable.area
    obtain rfl : disk' = machine.disk := by
      obtain heq | ⟨hnone, -⟩ := hdisk'
      · exact heq
      · exact absurd (hnone.symm.trans hmode) (by simp)
    have husable : unusable (cache.dir.join ⟨"markers"⟩) = false := by
      refine Bool.eq_false_iff.2 fun hun => ?_
      exact absurd (unusable_join (Path.isAbsolute_name hname) hun)
        (Bool.eq_false_iff.1 h.markable.usable)
    have hkind : machine.disk.kind? (cache.dir.join ⟨"markers"⟩) = some .dir := by
      rw [kind?, find_area h.plain.hasMarkers, husable, if_neg Bool.false_ne_true, hmode]
    rw [hkind] at hmade
    exact hmade
  have hwrite (bytes : Bytes) :
      machine.disk.writeFile? (cache.marker name) bytes = some machine.disk := by
    have hfind := find_of_reaches h.plain.hasMarkers hname h.markable true fun _ => h.plain.marker
    rw [hdevice] at hfind
    rw [writeFile?, show machine.disk.find true (cache.marker name) = _ from hfind]
  rw [markComplete, Action.run_bind, Action.run_createDirAll, hmarkers, if_pos rfl]
  dsimp only
  rw [Action.run_writeFile, hwrite]

/-- **Making sure of a settled tarball once more** succeeds and only logs. Where the marker is a
device it is written to again, which leaves the disk as it is. -/
theorem Settled.ensureExtracted_again (h : Settled cache.dir home tarball.path machine.disk)
    {base : Path} (hbase : technology.baseDir settings tarball.baseVar = .ok base) :
    ∃ log, (cache.ensureExtracted technology settings tarball).run tool machine =
      (.ok (cache.target tarball.path), { machine with log }) := by
  have htarget : machine.disk.kind? (cache.target tarball.path) = some .dir :=
    (h.plain.kind?_target h.isName).2 ⟨h.reaches, h.target⟩
  rw [run_ensureExtracted cache tool machine technology settings tarball h.isName, hbase, stateOn,
    if_pos htarget]
  dsimp only
  by_cases hcomplete : machine.disk.kind? (cache.marker tarball.path) = some .file
  · rw [if_pos hcomplete]
    exact ⟨_, rfl⟩
  · rw [if_neg hcomplete, settle, Action.run_bind, Action.run_log]
    dsimp only
    have hdevice : machine.disk.get? (markerAt home tarball.path) = some .device :=
      h.marker.resolve_left fun hfile =>
        hcomplete ((h.plain.kind?_marker h.isName).2 ⟨h.markable, hfile⟩)
    -- The log makes no difference to what is settled.
    have hlogged (log : List (Level × String)) (archive : Path) :
        (cache.markComplete tarball.path archive).run tool { machine with log } =
          (.ok (), { machine with log }) := by
      apply Settled.markComplete_device
      · exact h
      · exact hdevice
    rw [Action.run_bind, hlogged]
    exact ⟨_, rfl⟩

end Cache
end ProcessKit
