/-
# One operation after the other

A process carries out operations on a cache, one by one. Each has a technology and settings of its
own, and each may fail. `Keeps` says what no operation spoils: a target that is there stays, with
its tree, the tool is not called for it again, and a marker stays. Every operation keeps it
(`Operation.keeps`), and so every sequence does (`keeps_runAll`). Hence a tarball is unpacked at
most once (`runAll_unpacks_once`).

The operations are those that a program has for a cache: making sure of one tarball or of all of
them, making the files of a technology available, resolving a path, checking installs, and asking
for the state or the target of a tarball. They have in common that they are put together from making
sure of tarballs and from requests that only look, so that one lemma about a single tarball
(`keeps_ensureExtracted`) carries all of them.

The state of a tarball only moves forward, from missing over incomplete to complete
(`Keeps.rank_le`). An operation that succeeds takes its tarball all the way
(`ensureExtracted_completes`), unless the marker is a device. Then the tarball is unpacked once as
well, but each operation on it finds it incomplete and marks it again (`t_unpacked_and_incomplete`).
-/

import ProcessKit.Proofs.Cache.Alone
import ProcessKit.Proofs.Results
import ProcessKit.Proofs.Technology.Resolution
import ProcessKit.Technology.Availability

namespace ProcessKit
namespace Cache

open Disk Relation

variable {cache : Cache} {home : Place} {name : String} {tool : Tool}
  {machine machine' machine'' : Machine}

/-- **What no operation spoils** about the tarball of a name. -/
structure Keeps (cache : Cache) (home : Place) (name : String) (machine machine' : Machine) :
    Prop where
  plain : ∀ x, Plain cache.dir home x machine'.disk
  target : machine.disk.kind? (cache.target name) = some .dir →
    machine'.disk.kind? (cache.target name) = some .dir ∧
    machine'.disk.tree (targetAt home name) = machine.disk.tree (targetAt home name) ∧
    ∃ new, machine'.calls = machine.calls ++ new ∧ ∀ call ∈ new, call.dest ≠ cache.staging name
  marker : machine.disk.kind? (cache.marker name) = some .file →
    machine'.disk.kind? (cache.marker name) = some .file
  device : machine.disk.get? (markerAt home name) ≠ some .device →
    machine'.disk.get? (markerAt home name) ≠ some .device

/-- What leaves the disk alone and does not call the tool keeps everything. -/
theorem Keeps.of_quiet (h : ∀ x, Plain cache.dir home x machine.disk)
    (hdisk : machine'.disk = machine.disk) (hcalls : machine'.calls = machine.calls) :
    Keeps cache home name machine machine' := by
  refine ⟨hdisk ▸ h, fun ht => ⟨hdisk ▸ ht, by rw [hdisk], [], ?_, by simp⟩,
    fun hm => hdisk ▸ hm, fun hm => hdisk ▸ hm⟩
  rw [hcalls, List.append_nil]

/-- What two calls keep, one after the other, they keep together. A whole list of calls is covered
so, call by call. -/
theorem Keeps.trans (h : Keeps cache home name machine machine')
    (h' : Keeps cache home name machine' machine'') : Keeps cache home name machine machine'' := by
  refine ⟨h'.plain, fun ht => ?_, fun hm => h'.marker (h.marker hm),
    fun hm => h'.device (h.device hm)⟩
  obtain ⟨ht', htree, hcalls⟩ := h.target ht
  obtain ⟨ht'', htree', hcalls'⟩ := h'.target ht'
  exact ⟨ht'', htree'.trans htree, calls_trans hcalls hcalls'⟩

/-- How far a state is. -/
def rank : ExtractionState → Nat
  | .missing => 0
  | .incomplete => 1
  | .complete => 2

/-- **The state of a tarball moves forward.** A target never goes away, and neither does a marker,
so no operation makes a tarball less than it was. -/
theorem Keeps.rank_le (h : Keeps cache home name machine machine') :
    rank (cache.stateOn name machine.disk) ≤ rank (cache.stateOn name machine'.disk) := by
  by_cases ht : machine.disk.kind? (cache.target name) = some .dir
  · rw [stateOn, stateOn, if_pos ht, if_pos (h.target ht).1]
    by_cases hm : machine.disk.kind? (cache.marker name) = some .file
    · exact Nat.le_of_eq (by rw [if_pos hm, if_pos (h.marker hm)])
    · rw [if_neg hm]
      split_ifs <;> decide
  · rw [stateOn, if_neg ht]
    exact Nat.zero_le _

/-- Staging directories of different tarballs are different. -/
theorem staging_ne {other : String} (hname : isEntryName name = true)
    (hother : isEntryName other = true) (hne : name ≠ other) :
    cache.staging name ≠ cache.staging other := by
  intro heq
  have hsame : (cache.staging name).same (cache.staging other) = true := by
    rw [heq]
    exact beq_self_eq_true _
  exact hne ((same_staging_iff hname hother).1 hsame).2.1

/-- Steps on a tarball keep what is known of any tarball whose tree they leave alone. -/
theorem Keeps.of_steps {other : String} {returned : List Return} (hname : isEntryName name = true)
    (hsteps : ReflTransGen (Step cache.dir home other cache.processId) ⟨machine, []⟩
      ⟨machine', returned⟩)
    (h : ∀ x, Plain cache.dir home x machine.disk)
    (htarget : machine.disk.kind? (cache.target name) = some .dir →
      machine'.disk.tree (targetAt home name) = machine.disk.tree (targetAt home name) ∧
      ∃ new, machine'.calls = machine.calls ++ new ∧
        ∀ call ∈ new, call.dest ≠ cache.staging name) :
    Keeps cache home name machine machine' := by
  have hplain : ∀ x, Plain cache.dir home x machine'.disk := fun x => steps_plain hsteps (h x)
  have hs := h name
  have hs' := hplain name
  refine ⟨hplain, fun ht => ?_, fun hm => ?_, steps_ne_device hsteps⟩
  · obtain ⟨hreaches, hdir⟩ := (hs.kind?_target hname).1 ht
    exact ⟨(hs'.kind?_target hname).2 ⟨steps_reaches hsteps hreaches, hdir.of_tree (htarget ht).1⟩,
      htarget ht⟩
  · obtain ⟨hreaches, hfile⟩ := (hs.kind?_marker hname).1 hm
    refine (hs'.kind?_marker hname).2 ⟨steps_reaches hsteps hreaches, ?_⟩
    by_cases hne : name = other
    · subst hne
      exact steps_marker_isFile hsteps hfile
    · rw [IsFile, steps_marker hsteps hne]
      exact hfile

section

variable (technology : Technology) (settings : Settings)

/-- **Unpacking one tarball** keeps what is known of every tarball that is not named like its
staging directory, itself included. -/
theorem keeps_ensureExtracted (tarball : Tarball) (htool : tool.Confined)
    (hname : isEntryName name = true) (hapart : name ≠ stagingName tarball.path cache.processId)
    (h : ∀ x, Plain cache.dir home x machine.disk) :
    Keeps cache home name machine
      ((cache.ensureExtracted technology settings tarball).run tool machine).2 := by
  cases hpath : isEntryName tarball.path with
  | false =>
      rw [run_ensureExtracted_invalid cache tool machine technology settings tarball hpath]
      exact .of_quiet h rfl rfl
  | true =>
      obtain ⟨returned, hsteps, -⟩ :=
        ensureExtracted_alone technology settings tarball htool hpath (h tarball.path)
      refine .of_steps hname hsteps h fun ht => ?_
      -- Its own target is at most marked, and the target of another one is out of its reach.
      by_cases hne : name = tarball.path
      · subst hne
        have hmarks : Marks home tarball.path machine
            ((cache.ensureExtracted technology settings tarball).run tool machine).2 :=
          ensureExtracted_of_isDir technology settings tarball (h tarball.path) ht
        exact ⟨hmarks.tree tarball.path, [], by rw [hmarks.calls, List.append_nil], by simp⟩
      · obtain ⟨new, hnew, hdest⟩ := steps_calls hsteps
        refine ⟨steps_tree hsteps hne hapart, new, hnew, fun call hcall => ?_⟩
        rw [hdest call hcall]
        exact (staging_ne hname hpath hne).symm

/-- Unpacking several tarballs does so too, whichever of them fails. -/
theorem keeps_ensureEach (tarballs : List Tarball) (htool : tool.Confined)
    (hname : isEntryName name = true)
    (hapart : ∀ tarball ∈ tarballs, name ≠ stagingName tarball.path cache.processId)
    (h : ∀ x, Plain cache.dir home x machine.disk) :
    Keeps cache home name machine
      ((cache.ensureEach technology settings tarballs).run tool machine).2 := by
  induction tarballs generalizing machine with
  | nil => exact .of_quiet h rfl rfl
  | cons tarball tarballs ih =>
      rw [ensureEach]
      refine Action.run_bind_keeps ?_ fun path machine' hfirst => hfirst.trans (ih ?_ ?_)
      · exact keeps_ensureExtracted technology settings tarball htool hname
          (hapart tarball (List.mem_cons_self ..)) h
      · exact fun other hother => hapart other (List.mem_cons_of_mem _ hother)
      · exact hfirst.plain

/-- Looking for installs leaves the disk alone and does not call the tool. -/
theorem checkEach_quiet (installs : List Install) (machine : Machine) :
    ((technology.checkEach settings installs).run tool machine).2.disk = machine.disk ∧
      ((technology.checkEach settings installs).run tool machine).2.calls = machine.calls := by
  induction installs generalizing machine with
  | nil => exact ⟨rfl, rfl⟩
  | cons install installs ih =>
      rw [Technology.checkEach, Action.run_bind, Technology.checkInstall]
      split_ifs with hvar
      · exact ih machine
      · rw [Action.run_bind, Action.run_ofExcept]
        cases technology.baseDir settings install.baseVar with
        | error error => exact ⟨rfl, rfl⟩
        | ok dir =>
            dsimp only
            rw [Action.run_bind, Action.run_pathExists]
            cases (machine.disk.kind? dir).isSome with
            | true => exact ih _
            | false => exact ⟨rfl, rfl⟩

/-- Asking for the state of a tarball leaves the disk alone and does not call the tool. -/
theorem state_quiet (cache : Cache) (tarball : Tarball) (machine : Machine) :
    ((cache.state tarball).run tool machine).2.disk = machine.disk ∧
      ((cache.state tarball).run tool machine).2.calls = machine.calls := by
  cases hname : isEntryName tarball.path with
  | false =>
      rw [state, Action.run_bind, Action.run_ofExcept, Tarball.entryName_eq, hname]
      exact ⟨rfl, rfl⟩
  | true =>
      rw [run_state hname]
      exact ⟨rfl, rfl⟩

/-- Making the files of a technology available unpacks at most its tarballs. -/
theorem keeps_makeAvailable (htool : tool.Confined) (hname : isEntryName name = true)
    (hapart : ∀ tarball ∈ technology.tarballs, name ≠ stagingName tarball.path cache.processId)
    (h : ∀ x, Plain cache.dir home x machine.disk) :
    Keeps cache home name machine
      ((technology.makeAvailable settings cache).run tool machine).2 := by
  rw [Technology.makeAvailable]
  split_ifs with hinstalls htarballs
  · obtain ⟨hdisk, hcalls⟩ := checkEach_quiet technology settings technology.installs machine
    exact .of_quiet h hdisk hcalls
  · refine Action.run_bind_keeps ?_ fun _ _ h => h
    exact keeps_ensureEach technology settings technology.tarballs htool hname hapart h
  · exact .of_quiet h rfl rfl

/-- Resolving a path unpacks at most the tarball that its first segment names. -/
theorem keeps_resolve (library : Option Library) (path : String) (htool : tool.Confined)
    (hname : isEntryName name = true)
    (hapart : ∀ tarball ∈ technology.tarballs, name ≠ stagingName tarball.path cache.processId)
    (h : ∀ x, Plain cache.dir home x machine.disk) :
    Keeps cache home name machine
      ((technology.resolve settings (some cache) library path).run tool machine).2 := by
  by_cases hsource : ∃ tarball, path ≠ "" ∧ path.toList.head? ≠ some '/' ∧
      technology.matching library (Technology.firstSegment path) = [.tarball tarball]
  · obtain ⟨tarball, hne, hrelative, hone⟩ := hsource
    have hdeclared : tarball ∈ technology.tarballs :=
      Technology.mem_tarballs_of_matching (by rw [hone]; exact List.mem_singleton.2 rfl)
    have hensure := keeps_ensureExtracted technology settings tarball htool hname
      (hapart tarball hdeclared) h
    rw [Technology.resolve_tarball hne hrelative hone]
    cases hrun : (cache.ensureExtracted technology settings tarball).run tool machine with
    | mk result machine' =>
        rw [hrun] at hensure
        cases result with
        | error error => exact hensure
        | ok target => exact ⟨hensure.plain, hensure.target, hensure.marker, hensure.device⟩
  · obtain ⟨hdisk, hcalls⟩ := Technology.resolve_quiet fun tarball _ hne hrelative hone _ =>
      hsource ⟨tarball, hne, hrelative, hone⟩
    exact .of_quiet h hdisk hcalls

end

/-- An operation on a cache. -/
inductive Operation where
  | ensureExtracted (technology : Technology) (settings : Settings) (tarball : Tarball)
  | extractAll (technology : Technology) (settings : Settings)
  | makeAvailable (technology : Technology) (settings : Settings)
  | resolve (technology : Technology) (settings : Settings) (library : Option Library)
    (path : String)
  | checkInstalls (technology : Technology) (settings : Settings)
  | state (tarball : Tarball)
  | targetDir (tarball : Tarball)

/-- The tarballs that an operation may unpack. -/
def Operation.tarballs : Operation → List Tarball
  | .ensureExtracted _ _ tarball => [tarball]
  | .extractAll technology _ => technology.tarballs
  | .makeAvailable technology _ => technology.tarballs
  | .resolve technology _ _ _ => technology.tarballs
  | .checkInstalls _ _ => []
  | .state _ => []
  | .targetDir _ => []

/-- The machine after an operation, whether it succeeds or fails. -/
def Operation.carryOut (cache : Cache) (tool : Tool) (machine : Machine) : Operation → Machine
  | .ensureExtracted technology settings tarball =>
    ((cache.ensureExtracted technology settings tarball).run tool machine).2
  | .extractAll technology settings => ((cache.extractAll technology settings).run tool machine).2
  | .makeAvailable technology settings =>
    ((technology.makeAvailable settings cache).run tool machine).2
  | .resolve technology settings library path =>
    ((technology.resolve settings (some cache) library path).run tool machine).2
  | .checkInstalls technology settings =>
    ((technology.checkInstalls settings).run tool machine).2
  | .state tarball => ((cache.state tarball).run tool machine).2
  | .targetDir tarball => ((Action.ofExcept (cache.targetDir tarball)).run tool machine).2

/-- The machine after a sequence of operations. -/
def runAll (tool : Tool) (cache : Cache) (operations : List Operation) (machine : Machine) :
    Machine :=
  operations.foldl (Operation.carryOut cache tool) machine

/-- **Every operation** keeps what is known of a tarball that is not named like a staging directory.
It does not matter whether the operation succeeds. -/
theorem Operation.keeps (operation : Operation) (htool : tool.Confined)
    (hname : isEntryName name = true)
    (hapart : ∀ tarball ∈ operation.tarballs, name ≠ stagingName tarball.path cache.processId)
    (h : ∀ x, Plain cache.dir home x machine.disk) :
    Keeps cache home name machine (operation.carryOut cache tool machine) := by
  cases operation with
  | ensureExtracted technology settings tarball =>
      exact keeps_ensureExtracted technology settings tarball htool hname
        (hapart tarball (List.mem_singleton.2 rfl)) h
  | extractAll technology settings =>
      exact keeps_ensureEach technology settings technology.tarballs htool hname hapart h
  | makeAvailable technology settings =>
      exact keeps_makeAvailable technology settings htool hname hapart h
  | resolve technology settings library path =>
      exact keeps_resolve technology settings library path htool hname hapart h
  | checkInstalls technology settings =>
      obtain ⟨hdisk, hcalls⟩ := checkEach_quiet technology settings technology.installs machine
      exact .of_quiet h hdisk hcalls
  | state tarball =>
      obtain ⟨hdisk, hcalls⟩ := state_quiet cache tarball machine
      exact .of_quiet h hdisk hcalls
  | targetDir tarball =>
      rw [carryOut, Action.run_ofExcept]
      exact .of_quiet h rfl rfl

/-- **Every sequence of operations** does so too, by induction on its length: each operation has
technologies and settings of its own, but the cache is one. -/
theorem keeps_runAll (htool : tool.Confined) (hname : isEntryName name = true)
    (operations : List Operation)
    (hapart : ∀ operation ∈ operations, ∀ tarball ∈ operation.tarballs,
      name ≠ stagingName tarball.path cache.processId)
    (h : ∀ x, Plain cache.dir home x machine.disk) :
    Keeps cache home name machine (runAll tool cache operations machine) := by
  induction operations generalizing machine with
  | nil => exact .of_quiet h rfl rfl
  | cons operation operations ih =>
      have hfirst := operation.keeps htool hname (hapart operation (List.mem_cons_self ..)) h
      exact hfirst.trans (ih (fun other hother => hapart other (List.mem_cons_of_mem _ hother))
        hfirst.plain)

/-- **Success means that a tarball is there,** whatever was there before, and that it is complete,
unless its marker is a device. -/
theorem ensureExtracted_completes (technology : Technology) (settings : Settings)
    (tarball : Tarball) (htool : tool.Confined)
    (h : Plain cache.dir home tarball.path machine.disk) {path : Path}
    (hok : ((cache.ensureExtracted technology settings tarball).run tool machine).1 = .ok path) :
    path = cache.target tarball.path ∧
      (machine.disk.get? (markerAt home tarball.path) ≠ some .device →
        (cache.state tarball).run tool
            ((cache.ensureExtracted technology settings tarball).run tool machine).2 =
          (.ok .complete,
            ((cache.ensureExtracted technology settings tarball).run tool machine).2)) := by
  cases hname : isEntryName tarball.path with
  | false =>
      rw [run_ensureExtracted_invalid cache tool machine technology settings tarball hname] at hok
      exact absurd hok (by simp)
  | true =>
      obtain ⟨returned, hsteps, hends⟩ :=
        ensureExtracted_alone technology settings tarball htool hname h
      rw [hok] at hends
      refine ⟨hends.1, fun hdevice => ?_⟩
      obtain ⟨-, htarget, hmarker⟩ :=
        hends.seen hname (steps_plain hsteps h) (steps_ne_device hsteps hdevice)
      rw [run_state hname, stateOn_eq_complete htarget hmarker]

/-- **A tarball is unpacked at most once.** In a cache without symbolic links, between any two
moments of any sequence of operations:

* the state of the tarball does not move backwards;
* if its target is there at the first moment, then the target and its tree are the same at the
  second, and the tool was not called for the tarball in between;
* an operation that makes sure that the tarball is unpacked, and succeeds, gives the path of its
  target. It leaves the tarball complete, unless its marker is a device, which takes what is
  written and keeps nothing. -/
theorem runAll_unpacks_once (operations later : List Operation) (tarball : Tarball)
    (htool : tool.Confined) (hname : isEntryName tarball.path = true)
    (hapart : ∀ operation ∈ operations ++ later, ∀ other ∈ operation.tarballs,
      tarball.path ≠ stagingName other.path cache.processId)
    (h : ∀ name, Plain cache.dir home name machine.disk) :
    let first := runAll tool cache operations machine
    let second := runAll tool cache later first
    (∃ state state', (cache.state tarball).run tool first = (.ok state, first) ∧
      (cache.state tarball).run tool second = (.ok state', second) ∧ rank state ≤ rank state') ∧
    (first.disk.kind? (cache.target tarball.path) = some .dir →
      second.disk.kind? (cache.target tarball.path) = some .dir ∧
      second.disk.tree (targetAt home tarball.path) =
        first.disk.tree (targetAt home tarball.path) ∧
      ∃ new, second.calls = first.calls ++ new ∧
        ∀ call ∈ new, call.dest ≠ cache.staging tarball.path) ∧
    ∀ technology settings again path, again.path = tarball.path →
      ((cache.ensureExtracted technology settings again).run tool second).1 = .ok path →
      path = cache.target tarball.path ∧
      (machine.disk.get? (markerAt home tarball.path) ≠ some .device →
        (cache.state tarball).run tool
            ((cache.ensureExtracted technology settings again).run tool second).2 =
          (.ok .complete,
            ((cache.ensureExtracted technology settings again).run tool second).2)) := by
  intro first second
  have hfirst := keeps_runAll htool hname operations
    (fun operation hmem => hapart operation (List.mem_append_left later hmem)) h
  have hsecond : Keeps cache home tarball.path first second := keeps_runAll htool hname later
    (fun operation hmem => hapart operation (List.mem_append_right operations hmem)) hfirst.plain
  refine ⟨⟨_, _, run_state hname, run_state hname, hsecond.rank_le⟩, hsecond.target, ?_⟩
  intro technology settings again path hagain hok
  obtain ⟨hpath, hcomplete⟩ :=
    ensureExtracted_completes technology settings again htool (hsecond.plain _) hok
  rw [run_state (hagain ▸ hname), hagain] at hcomplete
  refine ⟨hagain ▸ hpath, fun hdevice => ?_⟩
  rw [run_state hname]
  exact hcomplete (hsecond.device (hfirst.device hdevice))

/-- A technology whose only tarball is `t`. -/
def oneTarball : Technology := ⟨"tech", ⟨"/tech"⟩, { tarballs := some [⟨"t", "", none⟩] }⟩

/-- The tarball `t` is unpacked once and then only looked up: its tree stays, the tool is not called
again, and it stays complete. -/
theorem oneTarball_unpacked_once :
    let first := runAll (Tool.unpacking "cells") firstCache [.extractAll oneTarball {}] emptyCache
    let second := runAll (Tool.unpacking "cells") firstCache
      [.makeAvailable oneTarball {}, .resolve oneTarball {} none "t/cells"] first
    let third := (firstCache.ensureExtracted oneTarball {} ⟨"t", "", none⟩).run
      (Tool.unpacking "cells") second
    first.disk.kind? (firstCache.target "t") = some .dir ∧
    second.disk.tree (targetAt ["c"] "t") = first.disk.tree (targetAt ["c"] "t") ∧
    (∃ new, second.calls = first.calls ++ new ∧
      ∀ call ∈ new, call.dest ≠ firstCache.staging "t") ∧
    third.1 = .ok ⟨"/c/extracted/t"⟩ ∧
    (firstCache.state ⟨"t", "", none⟩).run (Tool.unpacking "cells") third.2 =
      (.ok .complete, third.2) := by
  have hthere : (runAll (Tool.unpacking "cells") firstCache [.extractAll oneTarball {}]
      emptyCache).disk.kind? (firstCache.target "t") = some .dir := by decide +kernel
  have hok : ((firstCache.ensureExtracted oneTarball {} ⟨"t", "", none⟩).run
      (Tool.unpacking "cells") (runAll (Tool.unpacking "cells") firstCache
        [.makeAvailable oneTarball {}, .resolve oneTarball {} none "t/cells"]
        (runAll (Tool.unpacking "cells") firstCache [.extractAll oneTarball {}]
          emptyCache))).1 = .ok ⟨"/c/extracted/t"⟩ := eq_ok_of_toOption (by decide +kernel)
  have hdevice : emptyCache.disk.get? (markerAt ["c"] "t") ≠ some .device := by decide +kernel
  have hapart : ∀ operation ∈ [Operation.extractAll oneTarball {}] ++
        [.makeAvailable oneTarball {}, .resolve oneTarball {} none "t/cells"],
      ∀ other ∈ operation.tarballs,
        (Tarball.mk "t" "" none).path ≠ stagingName other.path firstCache.processId := by
    simpa [Operation.tarballs, oneTarball, Technology.tarballs] using
      (stagingName_ne "t" firstCache.processId).symm
  obtain ⟨-, honce, hagain⟩ := runAll_unpacks_once [.extractAll oneTarball {}]
    [.makeAvailable oneTarball {}, .resolve oneTarball {} none "t/cells"] ⟨"t", "", none⟩
    (Tool.confined_unpacking "cells") (by decide) hapart plain_emptyCache
  obtain ⟨-, htree, hcalls⟩ := honce hthere
  exact ⟨hthere, htree, hcalls, hok, (hagain _ _ _ _ rfl hok).2 hdevice⟩

/-- A machine with the cache `/c`, in which nothing is unpacked and the marker of `t` is a
device. -/
def deviceCache : Machine :=
  { disk := ⟨[(["c"], .dir .newDir), (["c", "markers"], .dir .newDir),
      (["c", "markers", "t.complete"], .device)], []⟩, calls := [] }

/-- The cache whose marker is a device has no symbolic link in it: links have no part in what goes
wrong there. -/
theorem plain_deviceCache (name : String) : Plain ⟨"/c"⟩ ["c"] name deviceCache.disk := by
  refine plain_of_unlinked ?_ fun _ _ => unlinked_of_entries (by simp [deviceCache]) _
  exact (leadsTo_root _).join (show isEntryName "c" = true by decide) (by decide) ⟨.newDir, rfl⟩

/-- **A device as a marker** keeps nothing of what is written. After the tarball `t` was unpacked,
an operation that makes sure of it succeeds again, and leaves it incomplete. -/
theorem t_unpacked_and_incomplete :
    let first := runAll (Tool.unpacking "cells") firstCache [.extractAll oneTarball {}] deviceCache
    let second := (firstCache.ensureExtracted oneTarball {} ⟨"t", "", none⟩).run
      (Tool.unpacking "cells") first
    (∀ name, Plain firstCache.dir ["c"] name deviceCache.disk) ∧
    (Tool.unpacking "cells").Confined ∧
    first.disk.kind? (firstCache.target "t") = some .dir ∧
    second.1 = .ok ⟨"/c/extracted/t"⟩ ∧
    ((firstCache.state ⟨"t", "", none⟩).run (Tool.unpacking "cells") second.2).1 =
      .ok .incomplete := by
  refine ⟨plain_deviceCache, Tool.confined_unpacking "cells", ?_, ?_, ?_⟩
  · decide +kernel
  · exact eq_ok_of_toOption (by decide +kernel)
  · exact eq_ok_of_toOption (by decide +kernel)

end Cache
end ProcessKit
