/-
# What it means that files are available

`makeAvailable` looks at the installs where the document declares any, and unpacks the tarballs
where it does not. When it says that the files are available, every install has a directory
(`present_of_checkEach`), or every tarball is settled. A path that such a source alone claims then
resolves, and nothing has to be done for it any more (`available_of_makeAvailable`).

A document that declares installs, even an empty list of them, is one whose tarballs are not
unpacked. So of the two kinds of sources only one is provided for (`Provides`), and a path below the
other kind may fail to resolve, or may have a tarball unpacked, as before.

What is shown of resolving is more than that it succeeds: the disk stays as it is, the tool is not
called, and neither the tool nor the library at hand makes a difference. This rests on a settled
tarball being one that is only looked at, whatever its marker is.
-/

import ProcessKit.Proofs.Cache.Sequence
import ProcessKit.Proofs.Cache.Settled
import ProcessKit.Proofs.Results

namespace ProcessKit
namespace Technology

open Cache (Plain Settled stagingName)

variable {technology : Technology} {settings : Settings} {tool : Tool} {machine machine' : Machine}
  {install : Install} {cache : Cache}

/-- **An install is present:** its directory can be determined, and exists unless it is the
technology's own. -/
def Present (technology : Technology) (settings : Settings) (disk : Disk) (install : Install) :
    Prop :=
  ∃ root, technology.baseDir settings install.baseVar = .ok root ∧
    (install.baseVar ≠ "" → (disk.kind? root).isSome = true)

/-- An install that is found is present. -/
theorem present_of_checkInstall
    (h : (technology.checkInstall settings install).run tool machine = (.ok true, machine')) :
    Present technology settings machine.disk install ∧ machine'.disk = machine.disk := by
  rw [checkInstall] at h
  split_ifs at h with hvar
  · obtain ⟨-, rfl⟩ := Prod.mk.inj h
    refine ⟨⟨technology.path, ?_, fun hne => absurd hvar hne⟩, rfl⟩
    rw [baseDir, if_pos hvar]
  · rw [Action.run_bind, Action.run_ofExcept] at h
    cases hbase : technology.baseDir settings install.baseVar with
    | error error =>
        rw [hbase] at h
        exact absurd (Prod.mk.inj h).1 (by simp)
    | ok root =>
        rw [hbase] at h
        dsimp only at h
        rw [Action.run_bind, Action.run_pathExists] at h
        dsimp only at h
        cases hkind : (machine.disk.kind? root).isSome with
        | false =>
            rw [hkind] at h
            exact absurd (Except.ok.inj (Prod.mk.inj h).1) (by simp)
        | true =>
            rw [hkind] at h
            obtain ⟨-, rfl⟩ := Prod.mk.inj h
            exact ⟨⟨root, hbase, fun _ => hkind⟩, rfl⟩

/-- **Where all installs are found, all of them are present.** Those without a settings key are not
looked at, and are present wherever they may be. -/
theorem present_of_checkEach {installs : List Install}
    (h : ((technology.checkEach settings installs).run tool machine).1 = .ok true) :
    ∀ install ∈ installs, Present technology settings machine.disk install := by
  induction installs generalizing machine with
  | nil => exact fun install hmem => absurd hmem List.not_mem_nil
  | cons first installs ih =>
      rw [checkEach, Action.run_bind] at h
      cases hrun : (technology.checkInstall settings first).run tool machine with
      | mk result machine' =>
          rw [hrun] at h
          cases result with
          | error error => exact absurd h (by simp)
          | ok found =>
              cases found with
              | false => exact absurd (Except.ok.inj h) (by simp)
              | true =>
                  obtain ⟨hfirst, hdisk⟩ := present_of_checkInstall hrun
                  intro install hmem
                  obtain rfl | hmem := List.mem_cons.1 hmem
                  · exact hfirst
                  · exact hdisk ▸ ih h install hmem

/-- The sources that hold the files of a technology: its installs if the document declares any, and
otherwise its tarballs. -/
def Provides (technology : Technology) : Source → Prop
  | .install _ => technology.document.installs.isSome = true
  | .tarball _ => technology.document.installs = none
  | .libraryPrefix _ => False

/-- With installs declared, only these are looked at. -/
theorem makeAvailable_of_installs (cache : Cache)
    (h : technology.document.installs.isSome = true) :
    technology.makeAvailable settings cache = technology.checkInstalls settings := if_pos h

/-- **Without installs, the tarballs have been unpacked.** So all of them are settled when it says
that the files are available. -/
theorem run_makeAvailable (h : technology.document.installs = none)
    (hok : ((technology.makeAvailable settings cache).run tool machine).1 = .ok true) :
    (cache.extractAll technology settings).run tool machine =
      (.ok (), ((technology.makeAvailable settings cache).run tool machine).2) := by
  rw [makeAvailable, h] at hok ⊢
  rw [if_neg (by simp)] at hok ⊢
  split_ifs at hok ⊢ with htarballs
  · rw [Action.run_bind] at hok ⊢
    cases hrun : (cache.extractAll technology settings).run tool machine with
    | mk result machine' =>
        rw [hrun] at hok
        cases result with
        | ok => rfl
        | error error => exact absurd hok (by simp)
  · exact absurd (Except.ok.inj hok) (by simp)

section

variable {library : Option Library} {path : String} (hne : path ≠ "")
  (hrelative : path.toList.head? ≠ some '/')

include hne hrelative

/-- A present install is resolved without a look at the disk. -/
theorem resolve_of_present
    (hsource : technology.matching library (firstSegment path) = [.install install])
    {root : Path} (hroot : technology.baseDir settings install.baseVar = .ok root) :
    ∃ log, (technology.resolve settings (some cache) library path).run tool machine =
      (.ok (root.extend (laterSegments path)), { machine with log }) := by
  rw [resolve_install hne hrelative hsource, hroot]
  exact ⟨_, rfl⟩

/-- A settled tarball is resolved with nothing but looks at the disk. -/
theorem resolve_of_settled {tarball : Tarball} {home : Place}
    (hsource : technology.matching library (firstSegment path) = [.tarball tarball])
    (hsettled : Settled cache.dir home tarball.path machine.disk)
    (hbase : ∃ base, technology.baseDir settings tarball.baseVar = .ok base) :
    ∃ resolved log, (technology.resolve settings (some cache) library path).run tool machine =
      (.ok resolved, { machine with log }) := by
  obtain ⟨base, hbase⟩ := hbase
  obtain ⟨log, hagain⟩ := @Settled.ensureExtracted_again _ _ tool _ _ _ _ hsettled _ hbase
  rw [resolve_tarball hne hrelative hsource, hagain]
  exact ⟨_, _, rfl⟩

end

/-- **When the files are available, resolving is a matter of looking.** With installs declared, even
an empty list, making the files available is checking the installs, which changes nothing. Whenever
it says that they are available, every path of which an install is the only source then, or a
tarball where no installs are declared, resolves from then on, with any library at hand and whatever
the tool would do, and the disk is left as it is; the directory of an install that names a settings
key is there. -/
theorem available_of_makeAvailable (technology : Technology) (settings : Settings) (cache : Cache)
    (tool : Tool) (machine : Machine) :
    let outcome := (technology.makeAvailable settings cache).run tool machine
    (technology.document.installs.isSome = true →
      outcome = (technology.checkInstalls settings).run tool machine ∧
        outcome.2.disk = machine.disk ∧ outcome.2.calls = machine.calls) ∧
    (tool.Confined → ∀ home, (∀ name, Plain cache.dir home name machine.disk) →
      (∀ t ∈ technology.tarballs, ∀ t' ∈ technology.tarballs,
        t.path ≠ stagingName t'.path cache.processId) →
      outcome.1 = .ok true →
      ∀ (later : Machine) (laterTool : Tool) (library : Option Library) (path : String)
        (source : Source), later.disk = outcome.2.disk →
        path ≠ "" → path.toList.head? ≠ some '/' →
        technology.matching library (firstSegment path) = [source] → technology.Provides source →
        ∃ resolved log,
          (technology.resolve settings (some cache) library path).run laterTool later =
            (.ok resolved, { later with log }) ∧
          ∀ install, source = .install install → install.baseVar ≠ "" →
            ∃ root, technology.baseDir settings install.baseVar = .ok root ∧
              resolved = root.extend (laterSegments path) ∧
              (later.disk.kind? root).isSome = true) := by
  intro outcome
  refine ⟨fun h => ?_, fun htool home hs hapart hok later laterTool library path source hdisk hne
    hrelative hsource hprovides => ?_⟩
  · have hsame : outcome = (technology.checkInstalls settings).run tool machine := by
      rw [← makeAvailable_of_installs cache h]
    rw [hsame]
    exact ⟨rfl, Cache.checkEach_quiet technology settings technology.installs machine⟩
  have hdeclared : source ∈ technology.sources library :=
    (mem_matching_iff.1 (by rw [hsource]; exact List.mem_singleton.2 rfl)).1
  cases source with
  | install install =>
      have hchecked : outcome = (technology.checkInstalls settings).run tool machine := by
        rw [← makeAvailable_of_installs cache hprovides]
      rw [hchecked] at hok hdisk
      obtain ⟨root, hroot, hthere⟩ :=
        present_of_checkEach hok install (install_mem_sources.1 hdeclared)
      obtain ⟨log, hresolve⟩ := resolve_of_present hne hrelative hsource hroot
      refine ⟨_, log, hresolve, fun other heq hvar => ?_⟩
      obtain rfl := Source.install.inj heq
      refine ⟨root, hroot, rfl, ?_⟩
      rw [hdisk, checkInstalls, (Cache.checkEach_quiet technology settings _ machine).1]
      exact hthere hvar
  | tarball tarball =>
      have hunpacked := run_makeAvailable hprovides hok
      obtain ⟨hsettled, hbase⟩ := Cache.settled_of_ensureEach htool hapart hs
        (congrArg Prod.fst hunpacked) tarball (tarball_mem_sources.1 hdeclared)
      rw [show (cache.ensureEach technology settings technology.tarballs).run tool machine = _
        from hunpacked] at hsettled
      obtain ⟨resolved, log, hresolve⟩ :=
        resolve_of_settled hne hrelative hsource (hdisk ▸ hsettled) hbase
      exact ⟨resolved, log, hresolve, fun install heq => absurd heq (by simp)⟩
  | libraryPrefix p => exact hprovides.elim

/-- Once the tarball `t` has been unpacked into an empty cache, the path `t/cells` resolves, even
with a tool that would fail. -/
theorem oneTarball_available :
    let broken : Tool := fun _ machine => (.error (.commandFailed "tar"), machine)
    ∃ later, (Cache.oneTarball.makeAvailable {} Cache.firstCache).run (Tool.unpacking "cells")
        Cache.emptyCache = (.ok true, later) ∧
      ∃ resolved log,
        (Cache.oneTarball.resolve {} (some Cache.firstCache) none "t/cells").run broken later =
          (.ok resolved, { later with log }) := by
  intro broken
  have hok : ((Cache.oneTarball.makeAvailable {} Cache.firstCache).run (Tool.unpacking "cells")
      Cache.emptyCache).1 = .ok true := eq_ok_of_toOption (by decide +kernel)
  have hapart : ∀ t ∈ Cache.oneTarball.tarballs, ∀ t' ∈ Cache.oneTarball.tarballs,
      t.path ≠ stagingName t'.path Cache.firstCache.processId := by
    simpa [Cache.oneTarball, tarballs] using
      (Cache.stagingName_ne "t" Cache.firstCache.processId).symm
  have hsource : Cache.oneTarball.matching none (firstSegment "t/cells") =
      [.tarball ⟨"t", "", none⟩] := by decide
  have havailable := (available_of_makeAvailable Cache.oneTarball {} Cache.firstCache
    (Tool.unpacking "cells") Cache.emptyCache).2 (Tool.confined_unpacking "cells") ["c"]
    Cache.plain_emptyCache hapart
  cases hrun : (Cache.oneTarball.makeAvailable {} Cache.firstCache).run (Tool.unpacking "cells")
      Cache.emptyCache with
  | mk result later =>
      rw [hrun] at hok havailable
      obtain ⟨resolved, log, hresolve, -⟩ := havailable hok later broken none "t/cells" _ rfl
        (by decide) (by decide) hsource rfl
      exact ⟨later, Prod.ext hok rfl, resolved, log, hresolve⟩

end Technology
end ProcessKit
