/-
# A process that uses a cache alone

With nobody else at work, an action runs from a machine to a machine. `ensureExtracted_alone` says
what a whole run may do to the disk, as a sequence of changes, and `ensureExtracted_of_isDir` that a
target which is there already is at most marked: the tool is not called then.

A run of one process is the special case in which nobody else does a step, so the first of these is
read off the proof that unpacking is safe, with no argument of its own. What follows from such a
sequence is proved by one induction for each property: the cache stays plain (`steps_plain`), what
can be reached stays so (`steps_reaches`), a marker is never lost and never turned into a device
(`steps_marker_isFile`, `steps_ne_device`), a target keeps its tree (`steps_tree`), and the calls of
the tool are those for the staging directory of this tarball (`steps_calls`).

`stateOn` is the state of a tarball, told from a disk alone, and `settle` what is left to be done
from a state on. Together they make `ensureExtracted` one equation (`run_ensureExtracted`), in which
the refusal of a name, the base directory and the state stand one behind the other.
-/

import ProcessKit.Proofs.Cache.Safety

namespace ProcessKit
namespace Cache

open Disk Relation

variable {cache : Cache} {home : Place} {name : String} {tool : Tool} {machine machine' : Machine}

/-- The state of a tarball, read off the disk. -/
def stateOn (cache : Cache) (name : String) (disk : Disk) : ExtractionState :=
  if disk.kind? (cache.target name) = some .dir then
    if disk.kind? (cache.marker name) = some .file then .complete else .incomplete
  else .missing

/-- A tarball whose target and marker are there is complete. -/
theorem stateOn_eq_complete {disk : Disk} (ht : disk.kind? (cache.target name) = some .dir)
    (hm : disk.kind? (cache.marker name) = some .file) : cache.stateOn name disk = .complete := by
  rw [stateOn, if_pos ht, if_pos hm]

/-- Looking at the state of a tarball changes nothing. -/
theorem run_stateOf (cache : Cache) (name : String) :
    (cache.stateOf name).run tool machine = (.ok (cache.stateOn name machine.disk), machine) := by
  rw [stateOf, Action.run_bind, Action.run_isDir, stateOn]
  by_cases ht : machine.disk.kind? (cache.target name) = some .dir
  · rw [ht, if_pos rfl]
    dsimp only
    rw [beq_self_eq_true, Bool.not_true, if_neg Bool.false_ne_true, Action.run_bind,
      Action.run_isFile]
    by_cases hm : machine.disk.kind? (cache.marker name) = some .file
    · rw [hm, if_pos rfl]
      rfl
    · rw [if_neg hm]
      dsimp only
      rw [if_neg (by simpa using hm)]
      rfl
  · rw [if_neg ht]
    dsimp only
    rw [if_pos (by simpa using ht)]
    rfl

/-- The state of a tarball with a name is the one that the disk shows, and asking for it changes
nothing. -/
theorem run_state {tarball : Tarball} (hname : isEntryName tarball.path = true) :
    (cache.state tarball).run tool machine =
      (.ok (cache.stateOn tarball.path machine.disk), machine) := by
  rw [state, Action.run_bind, Action.run_ofExcept, Tarball.entryName_eq, if_pos hname]
  exact run_stateOf cache tarball.path

/-- What happens when a target is marked: at most its marker and the directory of the markers
change. -/
structure Marks (home : Place) (name : String) (machine machine' : Machine) : Prop where
  calls : machine'.calls = machine.calls
  get? : ∀ p, p ≠ markersAt home → p ≠ markerAt home name →
    machine'.disk.get? p = machine.disk.get? p

/-- Two changes of at most a marker and its directory are one such change. -/
theorem Marks.trans {machine'' : Machine} (h : Marks home name machine machine')
    (h' : Marks home name machine' machine'') : Marks home name machine machine'' :=
  ⟨h'.calls.trans h.calls, fun p hm hk => (h'.get? p hm hk).trans (h.get? p hm hk)⟩

/-- The log makes no difference. -/
theorem Marks.of_log {log : List (Level × String)}
    (h : Marks home name { machine with log } machine') : Marks home name machine machine' :=
  ⟨h.calls, h.get?⟩

/-- Marking leaves everything in `extracted` as it is. -/
theorem Marks.tree (h : Marks home name machine machine') (x : String) :
    machine'.disk.tree (targetAt home x) = machine.disk.tree (targetAt home x) := by
  funext rel
  refine h.get? _ ?_ ?_
  · simp
  · simp

/-- Marking leaves `extracted` itself as it is. -/
theorem Marks.extracted (h : Marks home name machine machine') :
    machine'.disk.get? (extractedAt home) = machine.disk.get? (extractedAt home) := by
  refine h.get? _ ?_ ?_
  · simp
  · simp

/-- **Marking a tarball** changes its marker and the directory of the markers at most, even if it
fails: the directory may have been made by then, and the marker not been written. -/
theorem marks_markComplete (tool : Tool) (hname : isEntryName name = true)
    (hs : Plain cache.dir home name machine.disk) (archive : Path) :
    Marks home name machine ((cache.markComplete name archive).run tool machine).2 := by
  obtain ⟨disk₁, hmade, hd₁⟩ :=
    createDirAll_area hs.hasMarkers (cache.markersDir.chars.length + 1)
  have hfirst : Marks home name machine { machine with disk := disk₁ } ∧
      Plain cache.dir home name disk₁ := by
    obtain rfl | ⟨hnone, rfl, -⟩ := hd₁
    · exact ⟨⟨rfl, fun _ _ _ => rfl⟩, hs⟩
    · refine ⟨⟨rfl, fun p hm _ => ?_⟩, ?_⟩
      · rw [get?_set (ne_nil_of_below (below_markersAt home)), if_neg hm]
      · have hc : Change home name cache.processId (fun _ => False) machine.disk
            (machine.disk.set (markersAt home) (.dir .newDir)) := .makeMarkers hnone
        exact hc.plain hs
  have hrun : machine.disk.createDirAll cache.markersDir = _ := hmade
  rw [markComplete, Action.run_bind, Action.run_createDirAll, hrun]
  by_cases hok : disk₁.kind? (cache.dir.join ⟨"markers"⟩) = some .dir
  · rw [decide_eq_true hok, if_pos rfl]
    dsimp only
    rw [Action.run_writeFile]
    cases hwrite : disk₁.writeFile? (cache.marker name) (Utf8.encode archive.text) with
    | none => exact hfirst.1
    | some disk₂ =>
        refine hfirst.1.trans ⟨rfl, fun p _ hk => ?_⟩
        obtain ⟨-, ⟨mode, rfl⟩ | ⟨rfl, -⟩⟩ := writeFile?_entryPath hfirst.2.hasMarkers
          (isEntryName_marker hname) hfirst.2.marker hwrite
        · rw [get?_set (ne_nil_of_below (below_markerAt home name)), if_neg hk]
        · rfl
  · rw [decide_eq_false hok, if_neg Bool.false_ne_true]
    exact hfirst.1

/-- What is done about a tarball in each state. -/
def settle (cache : Cache) (technology : Technology) (tarball : Tarball) (archive : Path) :
    ExtractionState → Action Path
  | .complete => return cache.target tarball.path
  | .incomplete => do
    Action.log .debug ("Adopting unmarked extraction of " ++ tarball.path ++ " at " ++
      (cache.target tarball.path).text)
    cache.markComplete tarball.path archive
    return cache.target tarball.path
  | .missing => do
    cache.extract technology tarball archive
    Action.log .info ("Extracted " ++ archive.text ++ " into " ++
      (cache.target tarball.path).text)
    return cache.target tarball.path

/-- A missing target is unpacked, and that is all that happens to the disk. -/
theorem disk_settle_missing (technology : Technology) (tarball : Tarball) (archive : Path) :
    ((cache.settle technology tarball archive .missing).run tool machine).2.disk =
      ((cache.extract technology tarball archive).run tool machine).2.disk :=
  Action.run_bind_keeps (P := fun m => m.disk =
      ((cache.extract technology tarball archive).run tool machine).2.disk)
    rfl fun _ _ h => h

section

variable (cache) (tool) (machine) (technology : Technology) (settings : Settings)
  (tarball : Tarball)

/-- A tarball whose path is no name is refused. -/
theorem run_ensureExtracted_invalid (hname : isEntryName tarball.path = false) :
    (cache.ensureExtracted technology settings tarball).run tool machine =
      (.error (.pathInvalid tarball.path "tarball path must be a single file name"), machine) := by
  rw [ensureExtracted, Action.run_bind, Action.run_ofExcept, targetDir_eq, hname,
    if_neg Bool.false_ne_true]
  rfl

/-- **What is done about a tarball** depends on its base directory and on its state. The base
directory is looked up even for a tarball that is there, so a missing setting fails the operation in
any state. -/
theorem run_ensureExtracted (hname : isEntryName tarball.path = true) :
    (cache.ensureExtracted technology settings tarball).run tool machine =
      match technology.baseDir settings tarball.baseVar with
      | .error error => (.error error, machine)
      | .ok base =>
        (cache.settle technology tarball (base.join ⟨tarball.path⟩)
          (cache.stateOn tarball.path machine.disk)).run tool
          { machine with log := machine.log ++
            [(.debug, "Extracting/verifying tarball " ++ (base.join ⟨tarball.path⟩).text)] } := by
  rw [ensureExtracted, Action.run_bind, Action.run_ofExcept, targetDir_eq, if_pos hname]
  dsimp only
  rw [Action.run_bind, Action.run_ofExcept]
  cases technology.baseDir settings tarball.baseVar with
  | error error => rfl
  | ok base =>
      dsimp only
      rw [Action.run_bind, Action.run_log]
      dsimp only
      rw [Action.run_bind, run_stateOf]
      dsimp only
      cases cache.stateOn tarball.path machine.disk <;> rfl

end

/-- **A target that is there** is at most marked, and the tool is not called. So what is in the
target is never looked at or replaced once it has been published. -/
theorem ensureExtracted_of_isDir (technology : Technology) (settings : Settings)
    (tarball : Tarball) (hs : Plain cache.dir home tarball.path machine.disk)
    (ht : machine.disk.kind? (cache.target tarball.path) = some .dir) :
    Marks home tarball.path machine
      ((cache.ensureExtracted technology settings tarball).run tool machine).2 := by
  have hsame : Marks home tarball.path machine machine := ⟨rfl, fun _ _ _ => rfl⟩
  cases hname : isEntryName tarball.path with
  | false =>
      rw [run_ensureExtracted_invalid cache tool machine technology settings tarball hname]
      exact hsame
  | true =>
      rw [run_ensureExtracted cache tool machine technology settings tarball hname]
      cases technology.baseDir settings tarball.baseVar with
      | error error => exact hsame
      | ok base =>
          dsimp only
          rw [stateOn, if_pos ht]
          split_ifs
          · exact ⟨rfl, fun _ _ _ => rfl⟩
          · rw [settle, Action.run_bind, Action.run_log]
            dsimp only
            refine Action.run_bind_keeps (P := Marks home tarball.path machine)
              (Marks.of_log (marks_markComplete tool hname ?_ _)) fun _ _ h => h
            exact hs

/-- **A whole run** is a sequence of steps within the protocol, and ends as it does among others.
Whatever holds of every step by induction holds of what one operation does. -/
theorem ensureExtracted_alone (technology : Technology) (settings : Settings) (tarball : Tarball)
    (htool : tool.Confined) (hname : isEntryName tarball.path = true)
    (hs : Plain cache.dir home tarball.path machine.disk) :
    ∃ returned, ReflTransGen (Step cache.dir home tarball.path cache.processId) ⟨machine, []⟩
        ⟨((cache.ensureExtracted technology settings tarball).run tool machine).2, returned⟩ ∧
      Ensured cache.dir home tarball.path cache.processId
        ((cache.ensureExtracted technology settings tarball).run tool machine).1
        ⟨((cache.ensureExtracted technology settings tarball).run tool machine).2, returned⟩ := by
  have hs' : (protocol cache.dir home tarball.path).Sound ⟨machine, []⟩ := hs
  obtain ⟨s', hmachine, hsteps, hends⟩ :=
    (safe_ensureExtracted technology settings tarball hname hs').run htool
  obtain ⟨machine', returned⟩ := s'
  obtain rfl := hmachine
  exact ⟨returned, hsteps, hends⟩

/-- Unpacking a tarball whose target is missing leaves no staging directory that could be
removed. -/
theorem extract_alone (technology : Technology) (tarball : Tarball) (archive : Path)
    (htool : tool.Confined) (hname : isEntryName tarball.path = true)
    (hs : Plain cache.dir home tarball.path machine.disk)
    (hr : machine.disk.Reaches home cache.dir "extracted"
      (stagingName tarball.path cache.processId)) :
    Unstaged home tarball.path cache.processId
      ⟨((cache.extract technology tarball archive).run tool machine).2, []⟩ := by
  have hs' : (protocol cache.dir home tarball.path).Sound ⟨machine, []⟩ := hs
  obtain ⟨s', hmachine, -, hends⟩ :=
    (safe_extract technology tarball archive hname True hs' fun _ => hr).run htool
  have hunstaged : Unstaged home tarball.path cache.processId s' := by
    cases hresult : ((cache.extract technology tarball archive).run tool machine).1 with
    | ok =>
        rw [show ((cache.extract technology tarball archive).run tool machine).1 = _ from hresult]
          at hends
        exact hends.2.2 trivial
    | error =>
        rw [show ((cache.extract technology tarball archive).run tool machine).1 = _ from hresult]
          at hends
        exact hends trivial
  rw [Unstaged, hmachine] at hunstaged
  exact hunstaged

section

variable {dir : Path} {processId : Nat} {s s' : Shared} {x : String}

/-- What every step keeps, a run keeps. -/
theorem steps_keep {K : Shared → Prop}
    (hK : ∀ s s', Step dir home name processId s s' → K s → K s')
    (h : ReflTransGen (Step dir home name processId) s s') (hs : K s) : K s' := by
  induction h with
  | refl => exact hs
  | tail _ hstep ih => exact hK _ _ hstep ih

/-- No steps make a symbolic link where a tarball is unpacked and marked. -/
theorem steps_plain (h : ReflTransGen (Step dir home name processId) s s')
    (hs : Plain dir home x s.machine.disk) : Plain dir home x s'.machine.disk :=
  steps_keep (K := fun s => Plain dir home x s.machine.disk)
    (fun _ _ hstep hs => hstep.change.plain hs) h hs

/-- No steps make the path of an entry one that cannot be followed. -/
theorem steps_reaches {area : String} (h : ReflTransGen (Step dir home name processId) s s')
    (hr : s.machine.disk.Reaches home dir area x) : s'.machine.disk.Reaches home dir area x :=
  steps_keep (K := fun s => s.machine.disk.Reaches home dir area x)
    (fun _ _ hstep hr => reaches_of_change hstep.change hr) h hr

/-- No steps take away a marker that is a file. -/
theorem steps_marker_isFile (h : ReflTransGen (Step dir home name processId) s s')
    (hm : s.machine.disk.IsFile (markerAt home name)) :
    s'.machine.disk.IsFile (markerAt home name) :=
  steps_keep (K := fun s => s.machine.disk.IsFile (markerAt home name))
    (fun _ _ hstep hm => hstep.change.marker_isFile hm) h hm

/-- No steps make a device of a marker. -/
theorem steps_ne_device (h : ReflTransGen (Step dir home name processId) s s')
    (hm : s.machine.disk.get? (markerAt home x) ≠ some .device) :
    s'.machine.disk.get? (markerAt home x) ≠ some .device :=
  steps_keep (K := fun s => s.machine.disk.get? (markerAt home x) ≠ some .device)
    (fun _ _ hstep hm => hstep.change.ne_device (by simp) hm) h hm

/-- New calls after new calls are new calls. -/
theorem calls_trans {P : ToolCall → Prop} {calls calls' calls'' : List ToolCall}
    (h : ∃ new, calls' = calls ++ new ∧ ∀ call ∈ new, P call)
    (h' : ∃ new, calls'' = calls' ++ new ∧ ∀ call ∈ new, P call) :
    ∃ new, calls'' = calls ++ new ∧ ∀ call ∈ new, P call := by
  obtain ⟨new, rfl, hnew⟩ := h
  obtain ⟨more, rfl, hmore⟩ := h'
  refine ⟨new ++ more, List.append_assoc .., fun call hcall => ?_⟩
  obtain hcall | hcall := List.mem_append.1 hcall
  · exact hnew call hcall
  · exact hmore call hcall

/-- Steps call the tool for one staging directory only. -/
theorem steps_calls (h : ReflTransGen (Step dir home name processId) s s') :
    ∃ new, s'.machine.calls = s.machine.calls ++ new ∧
      ∀ call ∈ new, call.dest = stagingPath dir name processId := by
  induction h with
  | refl => exact ⟨[], by simp, by simp⟩
  | tail _ hstep ih => exact calls_trans ih hstep.calls

/-- Steps leave the trees of other entries alone. -/
theorem steps_tree (h : ReflTransGen (Step dir home name processId) s s') (hname : x ≠ name)
    (hstaging : x ≠ stagingName name processId) :
    s'.machine.disk.tree (targetAt home x) = s.machine.disk.tree (targetAt home x) :=
  steps_keep (K := fun t => t.machine.disk.tree (targetAt home x) =
      s.machine.disk.tree (targetAt home x))
    (fun _ _ hstep ht => (hstep.change.frame_extracted hname hstaging).trans ht) h rfl

/-- Steps leave `extracted` as it is once it is a directory. -/
theorem steps_extracted (h : ReflTransGen (Step dir home name processId) s s')
    (hd : s.machine.disk.IsDir (extractedAt home)) :
    s'.machine.disk.get? (extractedAt home) = s.machine.disk.get? (extractedAt home) := by
  obtain ⟨mode, hmode⟩ := hd
  refine steps_keep (K := fun t => t.machine.disk.get? (extractedAt home) =
    s.machine.disk.get? (extractedAt home)) (fun t t' hstep ht => ?_) h rfl
  obtain hsame | ⟨hnone, -⟩ := hstep.change.area "extracted"
  · exact hsame.trans ht
  · exact absurd ((hnone.symm.trans ht).trans hmode) (by simp)

/-- Steps leave other markers alone. -/
theorem steps_marker (h : ReflTransGen (Step dir home name processId) s s') (hname : x ≠ name) :
    s'.machine.disk.get? (markerAt home x) = s.machine.disk.get? (markerAt home x) :=
  steps_keep (K := fun t => t.machine.disk.get? (markerAt home x) =
      s.machine.disk.get? (markerAt home x))
    (fun _ _ hstep hm => (hstep.change.frame_markers hname).trans hm) h rfl

end

end Cache
end ProcessKit
