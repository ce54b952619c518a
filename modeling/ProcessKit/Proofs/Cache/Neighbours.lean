/-
# Tarballs next to each other

Making sure that one tarball is unpacked leaves the target and the marker of another one alone, with
one exception: a tarball that is named like the staging directory of the first one. Its target is
taken for a stale staging directory and removed, as soon as the first one has to be unpacked
(`ensureExtracted_spares_iff`).

That is an equivalence, so it tells both when a neighbour is safe and when it is not. `Collides` is
the condition: the names, a base directory for the tarball, no target of its own yet, and a removal
that takes something away. The last part is there for a tree whose permission bits refuse the
removal from its first entry on; the operation fails then, and the neighbour is unharmed.

The two directions are two lemmas. Outside a collision no change of the protocol is at or below the
other target (`unchanged_of_not_collides`). In a collision the other target is the first thing that
is removed (`changed_of_collides`). If that is refused on the way, the operation ends, and what was
taken away until then is missing. If it succeeds, the place is worked in and cleared again, and
whatever may be left there in the end is something that cannot be removed, so it is not the tree
from before, which could be.
-/

import ProcessKit.Proofs.Cache.Alone

namespace ProcessKit
namespace Cache

open Disk Relation

variable {cache : Cache} {home : Place} {tool : Tool} {machine : Machine} {other : String}

/-- **Where it matters:** the other tarball is named like the staging directory, the tarball has to
be unpacked, and removing a stale staging directory takes something of the other one's tree away, as
it does unless permission bits refuse it at once. -/
def Collides (cache : Cache) (home : Place) (technology : Technology) (settings : Settings)
    (tarball : Tarball) (other : String) (machine : Machine) : Prop :=
  other = stagingName tarball.path cache.processId ∧
    (∃ base, technology.baseDir settings tarball.baseVar = .ok base) ∧
    machine.disk.kind? (cache.target tarball.path) ≠ some .dir ∧
    (machine.disk.removeDirAll (cache.staging tarball.path)).2.tree (targetAt home other) ≠
      machine.disk.tree (targetAt home other)

/-- **A target is spared** when it stays a directory with the same tree, and its marker stays the
same. -/
structure Spared (cache : Cache) (home : Place) (other : String) (disk disk' : Disk) : Prop where
  isDir : disk'.kind? (cache.target other) = some .dir
  tree : disk'.tree (targetAt home other) = disk.tree (targetAt home other)
  marker : disk'.get? (markerAt home other) = disk.get? (markerAt home other)

/-- A staging directory that cannot be removed ends an unpacking before it has begun. -/
theorem disk_extract_of_refused (technology : Technology) (tarball : Tarball) (archive : Path)
    (hthere : machine.disk.kind? (cache.staging tarball.path) = some .dir)
    (hrefused : (machine.disk.removeDirAll (cache.staging tarball.path)).1 = false) :
    ((cache.extract technology tarball archive).run tool machine).2.disk =
      (machine.disk.removeDirAll (cache.staging tarball.path)).2 := by
  rw [extract, Action.run_bind, prepareStaging, Action.run_bind, Action.run_pathExists, hthere]
  dsimp only
  rw [Option.isSome_some, if_pos rfl, Action.run_bind, Action.run_removeDirAll, hrefused,
    if_neg Bool.false_ne_true]

section

variable (technology : Technology) (settings : Settings) (tarball : Tarball)

/-- When a tarball is unpacked that has a name and a base directory, the disk ends up as the
unpacking leaves it. -/
theorem exists_disk_extract (hname : isEntryName tarball.path = true)
    (hbase : ∃ base, technology.baseDir settings tarball.baseVar = .ok base)
    (hmissing : machine.disk.kind? (cache.target tarball.path) ≠ some .dir) :
    ∃ archive log,
      ((cache.ensureExtracted technology settings tarball).run tool machine).2.disk =
        ((cache.extract technology tarball archive).run tool { machine with log }).2.disk := by
  obtain ⟨base, hbase⟩ := hbase
  have hstate : cache.stateOn tarball.path machine.disk = .missing := if_neg hmissing
  rw [run_ensureExtracted cache tool machine technology settings tarball hname, hbase]
  dsimp only
  rw [hstate, disk_settle_missing]
  exact ⟨_, _, rfl⟩

/-- A tree that a removal leaves as it is has refused the removal. -/
theorem refused_of_kept (hname : isEntryName tarball.path = true)
    (hs : Plain cache.dir home tarball.path machine.disk)
    (hdir : machine.disk.IsDir (stagingAt home tarball.path cache.processId))
    (hkept : (machine.disk.removeDirAll (cache.staging tarball.path)).2.tree
      (stagingAt home tarball.path cache.processId) =
        machine.disk.tree (stagingAt home tarball.path cache.processId)) :
    (machine.disk.removeDirAll (cache.staging tarball.path)).1 = false := by
  have hdiscards := hs.discards hname cache.processId
  cases hremove : machine.disk.removeDirAll (cache.staging tarball.path) with
  | mk removed disk' =>
      rw [hremove] at hkept
      have hstaging :
          machine.disk.removeDirAll (stagingPath cache.dir tarball.path cache.processId) =
            (removed, disk') := hremove
      rw [hstaging] at hdiscards
      cases hdiscards with
      | refused => rfl
      | gone =>
          obtain ⟨mode, hmode⟩ := hdir
          have hroot := get?_of_tree hkept
          rw [get?_eraseTree (ne_nil_of_below (below_targetAt home _)),
            if_pos (List.prefix_refl _), hmode] at hroot
          exact absurd hroot (by simp)

/-- What is at the target and the marker of a neighbour stays unless it collides. -/
theorem unchanged_of_not_collides (htool : tool.Confined)
    (hname : isEntryName tarball.path = true) (hne : other ≠ tarball.path)
    (hs : Plain cache.dir home tarball.path machine.disk)
    (hthere : machine.disk.kind? (cache.target other) = some .dir)
    (h : ¬ Collides cache home technology settings tarball other machine) :
    ((cache.ensureExtracted technology settings tarball).run tool machine).2.disk.tree
        (targetAt home other) = machine.disk.tree (targetAt home other) ∧
      ((cache.ensureExtracted technology settings tarball).run tool machine).2.disk.get?
        (markerAt home other) = machine.disk.get? (markerAt home other) := by
  obtain ⟨returned, hsteps, -⟩ := ensureExtracted_alone technology settings tarball htool hname hs
  refine ⟨?_, steps_marker hsteps hne⟩
  by_cases hstaging : other = stagingName tarball.path cache.processId
  · subst hstaging
    -- A neighbour with the staging name is safe as long as nothing has to be unpacked.
    by_cases ht : machine.disk.kind? (cache.target tarball.path) = some .dir
    · exact (ensureExtracted_of_isDir technology settings tarball hs ht).tree _
    cases hbase : technology.baseDir settings tarball.baseVar with
    | error error =>
        rw [run_ensureExtracted cache tool machine technology settings tarball hname, hbase]
    | ok base =>
        -- And when something has to be, it is safe if the removal is refused at once.
        have hkept : (machine.disk.removeDirAll (cache.staging tarball.path)).2.tree
            (stagingAt home tarball.path cache.processId) =
            machine.disk.tree (stagingAt home tarball.path cache.processId) :=
          Classical.not_not.1 fun hchanged => h ⟨rfl, ⟨base, hbase⟩, ht, hchanged⟩
        have hdir := ((kind?_eq_dir_iff hs.hasExtracted
          (isEntryName_stagingName hname cache.processId) (hs.staging cache.processId)).1 hthere).2
        obtain ⟨archive, log, hdisk⟩ := @exists_disk_extract cache tool machine technology settings
          tarball hname ⟨base, hbase⟩ ht
        rw [hdisk, @disk_extract_of_refused cache tool { machine with log } technology tarball
          archive hthere (refused_of_kept tarball hname hs hdir hkept)]
        exact hkept
  · exact steps_tree hsteps hne hstaging

/-- **A neighbour that collides** is gone, or what is there in its place cannot be removed. A tree
that could be removed is not there any more in either case. -/
theorem not_removable_of_collides (hname : isEntryName tarball.path = true) (htool : tool.Confined)
    (hs : Plain cache.dir home tarball.path machine.disk)
    (hthere : machine.disk.kind? (cache.target other) = some .dir)
    (h : Collides cache home technology settings tarball other machine)
    (hdir : ((cache.ensureExtracted technology settings tarball).run tool machine).2.disk.IsDir
      (targetAt home other)) :
    ¬ ((cache.ensureExtracted technology settings tarball).run tool machine).2.disk.Removable
      (targetAt home other) := by
  obtain ⟨rfl, hbase, ht, -⟩ := h
  have hreaches := ((kind?_eq_dir_iff hs.hasExtracted
    (isEntryName_stagingName hname cache.processId) (hs.staging cache.processId)).1 hthere).1
  obtain ⟨archive, log, hdisk⟩ :=
    @exists_disk_extract cache tool machine technology settings tarball hname hbase ht
  rw [hdisk] at hdir ⊢
  have hs' : Plain cache.dir home tarball.path { machine with log }.disk := hs
  exact (extract_alone technology tarball archive htool hname hs' hreaches hdir).2

/-- **A neighbour that collides does not keep its tree.** Where the tree could be removed it has
been, and nothing that cannot be removed is that tree; where it could not be, the tree is what the
refused removal has left of it. -/
theorem changed_of_collides (hname : isEntryName tarball.path = true) (htool : tool.Confined)
    (hs : Plain cache.dir home tarball.path machine.disk)
    (hthere : machine.disk.kind? (cache.target other) = some .dir)
    (h : Collides cache home technology settings tarball other machine) :
    ((cache.ensureExtracted technology settings tarball).run tool machine).2.disk.tree
      (targetAt home other) ≠ machine.disk.tree (targetAt home other) := by
  have hleft := not_removable_of_collides technology settings tarball hname htool hs hthere h
  obtain ⟨rfl, hbase, ht, hchanged⟩ := h
  obtain ⟨hreaches, hdir⟩ := (kind?_eq_dir_iff hs.hasExtracted
    (isEntryName_stagingName hname cache.processId) (hs.staging cache.processId)).1 hthere
  intro hsame
  cases hremoved : (machine.disk.removeDirAll (cache.staging tarball.path)).1 with
  | false =>
      obtain ⟨archive, log, hdisk⟩ :=
        @exists_disk_extract cache tool machine technology settings tarball hname hbase ht
      rw [hdisk, @disk_extract_of_refused cache tool { machine with log } technology tarball
        archive hthere hremoved] at hsame
      exact hchanged hsame
  | true =>
      have hremovable := (removeDirAll_eq_true_iff hs.hasExtracted
        (isEntryName_stagingName hname cache.processId) hreaches hdir).1 hremoved
      obtain ⟨returned, hsteps, -⟩ :=
        ensureExtracted_alone technology settings tarball htool hname hs
      refine hleft (hdir.of_tree hsame) (hremovable.congr hsame ?_)
      rw [dropLast_targetAt]
      exact permits_congr (steps_extracted hsteps hreaches.area) .change

end

/-- **Neighbours.** A target that is there stays there, with its whole tree and its marker, while
another tarball is unpacked, whatever the tool does and whether it succeeds. The one exception is a
tarball that collides: its tree is taken for a stale staging directory and removed. If there is a
directory in its place in the end, then that is one that permission bits keep from being removed. -/
theorem ensureExtracted_spares_iff (technology : Technology) (settings : Settings)
    (tarball other : Tarball) (htool : tool.Confined) (hname : isEntryName tarball.path = true)
    (hother : isEntryName other.path = true) (hne : other.path ≠ tarball.path)
    (hs : Plain cache.dir home tarball.path machine.disk)
    (hplain : Plain cache.dir home other.path machine.disk)
    (hthere : machine.disk.kind? (cache.target other.path) = some .dir) :
    let outcome := (cache.ensureExtracted technology settings tarball).run tool machine
    (Spared cache home other.path machine.disk outcome.2.disk ↔
      ¬ Collides cache home technology settings tarball other.path machine) ∧
    (Collides cache home technology settings tarball other.path machine →
      outcome.2.disk.kind? (cache.target other.path) = some .dir →
        ¬ outcome.2.disk.Removable (targetAt home other.path)) := by
  intro outcome
  obtain ⟨returned, hsteps, -⟩ := ensureExtracted_alone technology settings tarball htool hname hs
  have hplain' := steps_plain hsteps hplain
  have hiff := hplain'.kind?_target hother
  refine ⟨⟨fun hspared h => ?_, fun h => ?_⟩, fun h hdir => ?_⟩
  · exact changed_of_collides technology settings tarball hname htool hs hthere h hspared.tree
  · obtain ⟨htree, hmarker⟩ :=
      unchanged_of_not_collides technology settings tarball htool hname hne hs hthere h
    obtain ⟨hreaches, hdir⟩ := (hplain.kind?_target hother).1 hthere
    exact ⟨hiff.2 ⟨steps_reaches hsteps hreaches, hdir.of_tree htree⟩, htree, hmarker⟩
  · exact not_removable_of_collides technology settings tarball hname htool hs hthere h
      (hiff.1 hdir).2

/-- Makes sure that `x` is unpacked into the cache `/c`. -/
def ensureX : Action Path :=
  firstCache.ensureExtracted ⟨"tech", ⟨"/tech"⟩, {}⟩ {} ⟨"x", "", none⟩

/-- A machine with the cache `/c`, where the tarballs `y` and `.x.partial-1` are complete. -/
def neighbours : Machine :=
  { disk := ⟨[(["c"], .dir .newDir), (["c", "extracted"], .dir .newDir),
      (["c", "extracted", "y"], .dir .newDir),
      (["c", "extracted", "y", "cells"], .file [] .newFile),
      (["c", "extracted", ".x.partial-1"], .dir .newDir),
      (["c", "extracted", ".x.partial-1", "cells"], .file [] .newFile),
      (["c", "markers"], .dir .newDir),
      (["c", "markers", "y.complete"], .file [] .newFile),
      (["c", "markers", ".x.partial-1.complete"], .file [] .newFile)], []⟩, calls := [] }

/-- The cache of the two neighbours has no symbolic link anywhere, so it is as plain as the theorem
asks of it, for each name. -/
theorem plain_neighbours (name : String) : Plain ⟨"/c"⟩ ["c"] name neighbours.disk := by
  refine plain_of_unlinked ?_ fun _ _ => unlinked_of_entries (by simp [neighbours]) _
  exact (leadsTo_root _).join (show isEntryName "c" = true by decide) (by decide) ⟨.newDir, rfl⟩

/-- Unpacking `x` spares `y`. -/
theorem ensureX_spares :
    Spared firstCache ["c"] "y" neighbours.disk
      (ensureX.run (Tool.unpacking "cells") neighbours).2.disk := by
  have hthere : neighbours.disk.kind? (firstCache.target "y") = some .dir := by decide +kernel
  have hne : "y" ≠ stagingName "x" 1 := by decide +kernel
  have hiff := (ensureExtracted_spares_iff ⟨"tech", ⟨"/tech"⟩, {}⟩ {} ⟨"x", "", none⟩
    ⟨"y", "", none⟩ (Tool.confined_unpacking "cells") (show isEntryName "x" = true by decide)
    (show isEntryName "y" = true by decide) (show "y" ≠ "x" by decide)
    (show Plain firstCache.dir ["c"] "x" neighbours.disk from plain_neighbours "x")
    (plain_neighbours "y") hthere).1
  rw [ensureX]
  exact hiff.2 fun h => hne h.1

/-- **Unpacking `x` removes the target of the tarball `.x.partial-1`,** which was complete, and
leaves its marker. -/
theorem ensureX_removes :
    isEntryName "x" = true ∧ isEntryName ".x.partial-1" = true ∧
    neighbours.disk.kind? (firstCache.target ".x.partial-1") = some .dir ∧
    neighbours.disk.kind? (firstCache.marker ".x.partial-1") = some .file ∧
    (ensureX.run (Tool.unpacking "cells") neighbours).1.toOption = some (firstCache.target "x") ∧
    (ensureX.run (Tool.unpacking "cells") neighbours).2.disk.kind?
      (firstCache.target ".x.partial-1") = none ∧
    (ensureX.run (Tool.unpacking "cells") neighbours).2.disk.kind?
      (firstCache.marker ".x.partial-1") = some .file := by
  decide +kernel

end Cache
end ProcessKit
