/-
# What is done about a tarball stays inside the cache

The path of a tarball is checked by its components, and the check lets the tarball through exactly
when the text is a name (`admitted_iff`, `refused_iff`). What follows are requests of a few kinds
only, whatever becomes of them (`asks_ensureExtracted`), and each of them touches nothing but the
two areas of the cache and, in these, what has the tarball's name in it (`ensureExtracted_touches`).

`Plain` says that no symbolic link stands at the areas or where the tarball is unpacked and marked.
It also says that the way to the cache does not go through the cache itself: a tool that may change
what is in there could lead such a way somewhere else.

A request touches a place when it could see or change something there: `Machine.Touches` goes by the
entry that the path of the request leads to, after links were followed, not by the text of the path.
So a name such as `..` would be seen at the place that it leads to, and it is the check of the path
that keeps it out. The schema of documents lets through no path that the check refuses
(`exists_names_of_validate`); a tarball that was made in another way meets the check alone.
-/

import ProcessKit.Proofs.Cache.Alone
import ProcessKit.Proofs.Technology.Document

namespace ProcessKit

/-- **What a request touches on the disk of a machine:** every place where it changes something,
all that is at and below the directory it works on, the file it writes, and both ends of a
renaming. -/
inductive Machine.Touches (tool : Tool) (machine : Machine) : Request → Place → Prop
  | changed {r : Request} {p : Place}
      (h : (machine.perform tool r).2.disk.get? p ≠ machine.disk.get? p) :
      Touches tool machine r p
  | worked {r : Request} {path : Path} {place p : Place} {e : Entry} (hpath : path ∈ r.workplace?)
      (hfind : machine.disk.find true path = .entry place e) (hp : place <+: p) :
      Touches tool machine r p
  | written {path : Path} {bytes : Bytes} {p : Place} {e : Entry}
      (hfind : machine.disk.find true path = .entry p e) :
      Touches tool machine (.write path bytes) p
  | source {path path' : Path} {p : Place} {e : Entry}
      (hfind : machine.disk.find false path = .entry p e) :
      Touches tool machine (.rename path path') p
  | target {path path' : Path} {p : Place} {e : Entry}
      (hfind : machine.disk.find false path' = .entry p e) :
      Touches tool machine (.rename path path') p

/-- A request that only looks works in no directory. -/
theorem Request.Quiet.workplace?_eq_none {r : Request} (h : r.Quiet) : r.workplace? = none := by
  cases r with
  | tool call => exact h.elim
  | removeDirAll path => exact h.elim
  | _ => rfl

namespace Cache

open Disk Relation

variable {cache : Cache} {home p : Place} {name : String} {tool : Tool} {machine : Machine}
  {r : Request}

/-- **The requests that are made about the tarball of a name.** Some only look; the others are about
its staging directory, its target, its marker and the directory of the markers. -/
inductive OwnRequest (cache : Cache) (name : String) : Request → Prop
  | look (path : Path) : OwnRequest cache name (.kind path)
  | log (level : Level) (message : String) : OwnRequest cache name (.log level message)
  | makeStaging : OwnRequest cache name (.createDirAll (cache.staging name))
  | removeStaging : OwnRequest cache name (.removeDirAll (cache.staging name))
  | call {call : ToolCall} (h : call.dest = cache.staging name) :
      OwnRequest cache name (.tool call)
  | publish : OwnRequest cache name (.rename (cache.staging name) (cache.target name))
  | makeMarkers : OwnRequest cache name (.createDirAll cache.markersDir)
  | mark (bytes : Bytes) : OwnRequest cache name (.write (cache.marker name) bytes)

/-- Nothing is printed about a tarball. -/
theorem OwnRequest.silent (h : OwnRequest cache name r) : r.Silent := by
  cases h <;> trivial

/-- Finding out the state of a tarball takes requests about that tarball, and no call of the tool.
-/
theorem asks_stateOf (cache : Cache) (name : String) :
    (cache.stateOf name).Asks fun r => OwnRequest cache name r ∧ r.Direct := by
  refine (Action.asks_isDir ⟨.look _, nofun⟩).bind fun there => ?_
  cases there with
  | false => exact Action.asks_pure _
  | true =>
      refine (Action.asks_isFile ⟨.look _, nofun⟩).bind fun marked => ?_
      cases marked <;> exact Action.asks_pure _

/-- Marking a tarball takes requests about that tarball, and no call of the tool. -/
theorem asks_markComplete (cache : Cache) (name : String) (archive : Path) :
    (cache.markComplete name archive).Asks fun r => OwnRequest cache name r ∧ r.Direct :=
  (Action.asks_createDirAll _ ⟨.makeMarkers, nofun⟩).bind fun _ =>
    Action.asks_writeFile _ _ ⟨.mark _, nofun⟩

/-- Preparing the staging directory takes requests about that tarball, and no call of the tool. -/
theorem asks_prepareStaging (cache : Cache) (name : String) :
    (cache.prepareStaging name).Asks fun r => OwnRequest cache name r ∧ r.Direct := by
  have hmake (context : String) : (Action.createDirAll (cache.staging name) context).Asks
      fun r => OwnRequest cache name r ∧ r.Direct :=
    Action.asks_createDirAll context ⟨.makeStaging, nofun⟩
  refine (Action.asks_pathExists ⟨.look _, nofun⟩).bind fun there => ?_
  cases there with
  | false => exact hmake _
  | true => exact (Action.asks_removeDirAll _ ⟨.removeStaging, nofun⟩).bind fun _ => hmake _

/-- Unpacking calls the tool for the staging directory, twice. -/
theorem asks_unpack (cache : Cache) (name : String) (archive : Path) :
    (unpack archive (cache.staging name)).Asks (OwnRequest cache name) :=
  (Action.asks_callTool (.call rfl)).bind fun _ => Action.asks_callTool (.call rfl)

/-- Publishing takes requests about that tarball, and no call of the tool. -/
theorem asks_publish (cache : Cache) (name : String) :
    (cache.publish name).Asks fun r => OwnRequest cache name r ∧ r.Direct := by
  refine ((Action.asks_request _).2 ⟨.publish, nofun⟩).bind fun moved => ?_
  cases moved with
  | true => exact Action.asks_pure _
  | false =>
      refine (Action.asks_isDir ⟨.look _, nofun⟩).bind fun there => ?_
      cases there with
      | true =>
          exact (Action.asks_log ⟨.log .., nofun⟩).bind fun _ =>
            Action.asks_tryRemoveDirAll ⟨.removeStaging, nofun⟩
      | false =>
          exact (Action.asks_tryRemoveDirAll ⟨.removeStaging, nofun⟩).bind fun _ =>
            Action.asks_fail _

/-- Unpacking and publishing a missing tarball takes requests about that tarball. -/
theorem asks_extract (cache : Cache) (technology : Technology) (tarball : Tarball)
    (archive : Path) :
    (cache.extract technology tarball archive).Asks (OwnRequest cache tarball.path) := by
  refine ((asks_prepareStaging cache _).mono fun _ h => h.1).bind fun _ => ?_
  refine (asks_unpack cache _ archive).attempt.bind fun result => ?_
  cases result with
  | error error =>
      exact (Action.asks_tryRemoveDirAll .removeStaging).bind fun _ => Action.asks_fail _
  | ok =>
      exact ((asks_publish cache _).mono fun _ h => h.1).bind fun _ =>
        (asks_markComplete cache _ archive).mono fun _ h => h.1

/-- **Making sure that a tarball is unpacked** takes no other requests, whether it is refused, there
already or unpacked, and whether it succeeds or fails. -/
theorem asks_ensureExtracted (cache : Cache) (technology : Technology) (settings : Settings)
    (tarball : Tarball) :
    (cache.ensureExtracted technology settings tarball).Asks (OwnRequest cache tarball.path) := by
  have hlog {level : Level} {message : String} :
      (Action.log level message).Asks (OwnRequest cache tarball.path) :=
    Action.asks_log (.log ..)
  refine (Action.asks_ofExcept _).bind fun target => ?_
  refine (Action.asks_ofExcept _).bind fun base => hlog.bind fun _ => ?_
  refine ((asks_stateOf cache _).mono fun _ h => h.1).bind fun state => ?_
  cases state with
  | complete => exact Action.asks_pure _
  | incomplete =>
      exact hlog.bind fun _ => ((asks_markComplete cache _ _).mono fun _ h => h.1).bind fun _ =>
        Action.asks_pure _
  | missing =>
      exact (asks_extract cache technology tarball _).bind fun _ => hlog.bind fun _ =>
        Action.asks_pure _

/-- The places that are touched about the tarball of a name. -/
inductive Owned (home : Place) (name : String) (processId : Nat) : Place → Prop
  | extracted : Owned home name processId (extractedAt home)
  | markers : Owned home name processId (markersAt home)
  | marker : Owned home name processId (markerAt home name)
  | staging {p : Place} (h : stagingAt home name processId <+: p) : Owned home name processId p
  | target {p : Place} (h : targetAt home name <+: p) : Owned home name processId p

/-- **The inside of a cache:** the two areas, and what is at or below a child of one of them. -/
def Contained (home p : Place) : Prop :=
  p = home ++ ["extracted"] ∨ p = home ++ ["markers"] ∨
    ∃ child, home ++ ["extracted", child] <+: p ∨ home ++ ["markers", child] <+: p

/-- What belongs to a tarball is contained in the cache. -/
theorem Owned.contained {processId : Nat} (h : Owned home name processId p) :
    Contained home p := by
  cases h with
  | extracted => exact Or.inl rfl
  | markers => exact Or.inr (Or.inl rfl)
  | marker => exact Or.inr (Or.inr ⟨_, Or.inr (List.prefix_refl _)⟩)
  | staging h => exact Or.inr (Or.inr ⟨_, Or.inl h⟩)
  | target h => exact Or.inr (Or.inr ⟨_, Or.inl h⟩)

/-- Steps change nothing else. -/
theorem steps_owned {dir : Path} {processId : Nat} {s s' : Shared}
    (h : ReflTransGen (Step dir home name processId) s s')
    (hp : s'.machine.disk.get? p ≠ s.machine.disk.get? p) : Owned home name processId p := by
  by_contra hnot
  refine hp (steps_keep (K := fun t => t.machine.disk.get? p = s.machine.disk.get? p)
    (fun t t' hstep ht => Eq.trans (hstep.change.frame ?_ ?_ ?_ ?_ ?_) ht) h rfl)
  · rintro rfl
    exact hnot .extracted
  · rintro rfl
    exact hnot .markers
  · rintro rfl
    exact hnot .marker
  · exact fun hpre => hnot (.staging hpre)
  · exact fun hpre => hnot (.target hpre)

/-- Where a path to an entry leads, if it leads to something. -/
theorem eq_of_find_entry {disk : Disk} {dir : Path} {area : String} {followLast : Bool}
    {e : Entry} (h : disk.HasArea dir home area) (hname : isEntryName name = true)
    (hl : disk.Unlinked (home ++ [area, name]))
    (hfind : disk.find followLast (entryPath dir area name) = .entry p e) :
    p = home ++ [area, name] := by
  obtain ⟨-, hf⟩ | ⟨-, hf⟩ | ⟨-, -, hf⟩ | ⟨-, _, -, hf⟩ :=
    find_cases h hname followLast fun _ => hl
  · exact absurd (hf.symm.trans hfind) (by simp)
  · exact absurd (hf.symm.trans hfind) (by simp)
  · exact absurd (hf.symm.trans hfind) (by simp)
  · exact (Found.entry.inj (hf.symm.trans hfind)).1.symm

/-- **One request about a tarball** touches its own places only, given that it changes nothing else.
The requests that follow a path see the places on it where something is looked up; in a plain cache
these are the areas and the entries of the tarball. -/
theorem touches_owned (hname : isEntryName name = true)
    (hs : Plain cache.dir home name machine.disk) (hr : OwnRequest cache name r)
    (hframe : (machine.perform tool r).2.disk.get? p ≠ machine.disk.get? p →
      Owned home name cache.processId p)
    (h : machine.Touches tool r p) : Owned home name cache.processId p := by
  have hstaging {followLast : Bool} {place : Place} {e : Entry}
      (hfind : machine.disk.find followLast (cache.staging name) = .entry place e) :
      place = stagingAt home name cache.processId :=
    eq_of_find_entry hs.hasExtracted (isEntryName_stagingName hname _) (hs.staging _) hfind
  cases h with
  | changed h => exact hframe h
  | worked hpath hfind hp =>
      -- Only the tool and a removal take their time, and both work on the staging directory.
      cases hr with
      | removeStaging =>
          obtain rfl := Option.mem_some.1 hpath
          exact .staging (hstaging hfind ▸ hp)
      | call hdest =>
          obtain rfl := Option.mem_some.1 hpath
          rw [hdest] at hfind
          exact .staging (hstaging hfind ▸ hp)
      | _ => exact absurd hpath (by simp [Request.workplace?])
  | written hfind =>
      cases hr with
      | mark =>
          rw [eq_of_find_entry hs.hasMarkers (isEntryName_marker hname) hs.marker hfind]
          exact .marker
  | source hfind =>
      cases hr with
      | publish => exact .staging (hstaging hfind ▸ List.prefix_refl _)
  | target hfind =>
      cases hr with
      | publish =>
          rw [eq_of_find_entry hs.hasExtracted hname hs.target hfind]
          exact .target (List.prefix_refl _)

/-- **Everything that is done about a tarball** is done at its own places, in any run and with any
confined tool. The cache stays plain in the course of the run, so each request meets a disk to which
the lemma about a single request applies. -/
theorem ensureExtracted_touches {technology : Technology} {settings : Settings} {tarball : Tarball}
    {met : Machine} (htool : tool.Confined) (hname : isEntryName tarball.path = true)
    (hs : Plain cache.dir home tarball.path machine.disk)
    (hmem : (r, met) ∈ (cache.ensureExtracted technology settings tarball).trace tool machine)
    (h : met.Touches tool r p) : Owned home tarball.path cache.processId p := by
  have hsound : (protocol cache.dir home tarball.path).Sound ⟨machine, []⟩ := hs
  obtain ⟨s₀, s₁, hs₀, hs₁, hmet, hsteps⟩ :=
    (safe_ensureExtracted technology settings tarball hname hsound).trace htool hsound hmem
  have hown := (asks_ensureExtracted cache technology settings tarball).mem_trace hmem
  subst hs₀
  refine touches_owned hname hmet hown (fun hne => ?_) h
  rw [← hs₁] at hne
  exact steps_owned hsteps hne

/-- A text that can be the name of an entry. -/
structure Names (s : String) : Prop where
  notEmpty : s ≠ ""
  noSlash : '/' ∉ s.toList
  notHere : s ≠ "."
  notUp : s ≠ ".."

/-- The check of names comes to this description of them. -/
theorem isEntryName_iff_names {s : String} : isEntryName s = true ↔ Names s := by
  rw [isEntryName_iff]
  constructor
  · rintro ⟨hne, hdot, hdots, hs⟩
    exact ⟨hne, hs, hdot, hdots⟩
  · intro h
    exact ⟨h.notEmpty, h.notHere, h.notUp, h.noSlash⟩

/-- Every tarball that the schema accepts has a name for its path. -/
theorem exists_names_of_validate {technology : String} {v item : Json} {items : List Json}
    (hvalid : Document.validate technology v = .ok ())
    (hitems : v.get? "tarballs" = some (.array items)) (hitem : item ∈ items) :
    ∃ s, item.get? "path" = some (.string s) ∧ Names s := by
  obtain ⟨items', heq, htarballs⟩ :=
    (Document.validate_eq_ok_iff.1 hvalid).tarballs (.array items) hitems
  obtain rfl := Json.array.inj heq
  obtain ⟨s, hpath, hne, hslash, -, hdot, hdots⟩ := (htarballs item hitem).path
  exact ⟨s, hpath, hne, hslash, hdot, hdots⟩

section

variable (cache) (tool) (machine) (technology : Technology) (settings : Settings)
  (tarball : Tarball)

/-- **The check lets a tarball through:** it has a target and a state, and the work on it begins,
unless its base directory cannot be determined. -/
structure Admitted : Prop where
  targetDir : cache.targetDir tarball = .ok (cache.target tarball.path)
  state : (cache.state tarball).run tool machine =
    (.ok (cache.stateOn tarball.path machine.disk), machine)
  noBase : ∀ error, technology.baseDir settings tarball.baseVar = .error error →
    (cache.ensureExtracted technology settings tarball).run tool machine = (.error error, machine)
  begins : ∀ base, technology.baseDir settings tarball.baseVar = .ok base →
    (cache.ensureExtracted technology settings tarball).trace tool machine ≠ []

/-- **The check refuses a tarball,** before anything is asked of the machine. -/
structure Refused : Prop where
  targetDir : cache.targetDir tarball = .error tarball.refusal
  state : (cache.state tarball).run tool machine = (.error tarball.refusal, machine)
  stateTrace : (cache.state tarball).trace tool machine = []
  ensureExtracted : (cache.ensureExtracted technology settings tarball).run tool machine =
    (.error tarball.refusal, machine)
  ensureExtractedTrace : (cache.ensureExtracted technology settings tarball).trace tool machine = []

variable {cache tool machine technology settings tarball}

/-- A tarball of such a name is admitted. -/
theorem admitted_of_names (h : Names tarball.path) :
    Admitted cache tool machine technology settings tarball := by
  have hname := isEntryName_iff_names.2 h
  have htarget : cache.targetDir tarball = .ok (cache.target tarball.path) :=
    targetDir_eq_ok_iff.2 ⟨hname, rfl⟩
  refine ⟨htarget, run_state hname, fun error herror => ?_, fun base hbase => ?_⟩
  · rw [run_ensureExtracted cache tool machine technology settings tarball hname, herror]
  · rw [Cache.ensureExtracted, htarget, hbase]
    exact List.cons_ne_nil _ _

/-- A tarball of any other name is refused. -/
theorem refused_of_not_names (h : ¬ Names tarball.path) :
    Refused cache tool machine technology settings tarball := by
  have hname : isEntryName tarball.path = false :=
    Bool.eq_false_iff.2 fun hname => h (isEntryName_iff_names.1 hname)
  have hentry : tarball.entryName = .error tarball.refusal := by
    rw [Tarball.entryName_eq, hname, if_neg Bool.false_ne_true]
  have htarget : cache.targetDir tarball = .error tarball.refusal := by
    rw [targetDir_eq, hname, if_neg Bool.false_ne_true]
  constructor
  · exact htarget
  · rw [Cache.state, hentry]
    rfl
  · rw [Cache.state, hentry]
    rfl
  · exact run_ensureExtracted_invalid cache tool machine technology settings tarball hname
  · rw [Cache.ensureExtracted, htarget]
    rfl

/-- No tarball is both let through and refused. -/
theorem Admitted.not_refused (h : Admitted cache tool machine technology settings tarball) :
    ¬ Refused cache tool machine technology settings tarball :=
  fun hrefused => absurd (h.targetDir.symm.trans hrefused.targetDir) (by simp)

/-- A tarball is admitted exactly if its path is such a name: admitted and refused exclude each
other. -/
theorem admitted_iff : Admitted cache tool machine technology settings tarball ↔
    Names tarball.path := by
  refine ⟨fun h => ?_, admitted_of_names⟩
  by_contra hnot
  exact h.not_refused (refused_of_not_names hnot)

/-- A tarball is refused exactly if its path is no such name. -/
theorem refused_iff : Refused cache tool machine technology settings tarball ↔
    ¬ Names tarball.path :=
  ⟨fun h hnames => (admitted_of_names hnames).not_refused h, refused_of_not_names⟩

/-- **The cache is never left,** whatever text is given as the path of a tarball. The check lets
exactly the names through, among them every path that the schema accepts, and what it refuses is
refused before anything is asked of the machine. On the way to a success or to any failure, what is
touched is one of the two areas of the cache or lies at or below a child of one of them. -/
theorem ensureExtracted_contained (cache : Cache) (technology : Technology) (settings : Settings)
    (tarball : Tarball) (tool : Tool) (machine : Machine) :
    (Admitted cache tool machine technology settings tarball ↔ Names tarball.path) ∧
    (Refused cache tool machine technology settings tarball ↔ ¬ Names tarball.path) ∧
    (∀ v items item, Document.validate technology.name v = .ok () →
      v.get? "tarballs" = some (.array items) → item ∈ items →
      ∃ s, item.get? "path" = some (.string s) ∧ Names s) ∧
    (tool.Confined → ∀ home, Plain cache.dir home tarball.path machine.disk →
      ∀ r met p, (r, met) ∈ (cache.ensureExtracted technology settings tarball).trace tool machine →
        met.Touches tool r p → Contained home p) := by
  refine ⟨admitted_iff, refused_iff, fun v items item hvalid hitems hitem => ?_,
    fun htool home hs r met p hmem htouch => ?_⟩
  · exact exists_names_of_validate hvalid hitems hitem
  · by_cases hnames : Names tarball.path
    · have hname := isEntryName_iff_names.2 hnames
      exact (ensureExtracted_touches htool hname hs hmem htouch).contained
    · rw [(refused_of_not_names hnames).ensureExtractedTrace] at hmem
      exact absurd hmem List.not_mem_nil

end

/-- The tarball `t` is let through, and unpacking it into the empty cache `/c` makes the directory
`/c/extracted`, which is inside the cache. -/
theorem emptyCache_contained :
    let technology : Technology := ⟨"tech", ⟨"/tech"⟩, {}⟩
    let tool := Tool.unpacking "cells"
    let requests := (firstCache.ensureExtracted technology {} ⟨"t", "", none⟩).trace tool emptyCache
    Admitted firstCache tool emptyCache technology {} ⟨"t", "", none⟩ ∧
    ∃ r met, (r, met) ∈ requests ∧ met.Touches tool r ["c", "extracted"] ∧
      Contained ["c"] ["c", "extracted"] := by
  intro technology tool requests
  obtain ⟨hcheck, -, -, hcontained⟩ :=
    ensureExtracted_contained firstCache technology {} ⟨"t", "", none⟩ tool emptyCache
  have hnames : Names "t" := isEntryName_iff_names.1 (by decide)
  have hmakes : (requests.any fun (r, met) => decide ((met.perform tool r).2.disk.get?
      ["c", "extracted"] ≠ met.disk.get? ["c", "extracted"])) = true := by decide +kernel
  obtain ⟨⟨r, met⟩, hmem, hchanged⟩ := List.any_eq_true.1 hmakes
  have htouch : met.Touches tool r ["c", "extracted"] := .changed (of_decide_eq_true hchanged)
  exact ⟨hcheck.2 hnames, r, met, hmem, htouch, hcontained (Tool.confined_unpacking "cells") ["c"]
    (plain_emptyCache "t") r met _ hmem htouch⟩

end Cache
end ProcessKit
