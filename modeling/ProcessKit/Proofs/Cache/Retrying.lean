/-
# Trying again after the tool has failed

When the tool fails, in either of its two calls, its staging directory is removed. Where that
succeeds nothing is left of the attempt: `Cleared` says so, and `ensureExtracted_of_toolFails` that
every such attempt leaves just that. Nothing adds up over several attempts (`Cleared.trans`), so
that a later one starts from a disk that looks like the one the first attempt would have started
from, and ends like it (`ensureExtracted_of_cleared`). `failed_attempts_leave_no_trace` puts this
together, by induction on the attempts.

The removal can be refused. What becomes of it is not looked at, and the attempt ends with the error
of the tool either way. `Unspoilt` is what holds even then: outside its staging directory an attempt
has changed nothing. But the next attempt finds the directory, fails to remove it, and the tool is
not called again. `lockingTool` is a tool that brings this about: it leaves a directory in which
nothing may be changed, with a file in it, and fails (`t_locked_out`).

That an attempt ends as another one would have is shown for disks that look alike, not for equal
ones: a failed attempt may have put the directory of the published trees on the disk, and entries
may be listed in another order. The tool must go by what the disk shows for that
(`Tool.Extensional`).
-/

import ProcessKit.Proofs.Cache.Containment
import ProcessKit.Proofs.Cache.Staging
import ProcessKit.Proofs.Host.Alike

namespace ProcessKit

/-- The tool fails with an error in the course of an action. -/
def Action.ToolFails {α : Type} (action : Action α) (tool : Tool) (machine : Machine)
    (error : Error) : Prop :=
  ∃ call met, (.tool call, met) ∈ action.trace tool machine ∧
    (met.perform tool (.tool call)).1 = .error error

/-- Whether a request is a call that the tool fails with an error. -/
def Request.toolFails (tool : Tool) (error : Error) : Request × Machine → Bool
  | (.tool call, met) =>
    match (met.perform tool (.tool call)).1 with
    | .error error' => error' = error
    | .ok _ => false
  | _ => false

/-- Whether the tool fails can be found out by going through the requests of an action. -/
instance {α : Type} (action : Action α) (tool : Tool) (machine : Machine) (error : Error) :
    Decidable (action.ToolFails tool machine error) :=
  decidable_of_iff (∃ asked ∈ action.trace tool machine, Request.toolFails tool error asked = true)
    (by
      constructor
      · rintro ⟨⟨r, met⟩, hmem, hfails⟩
        cases r with
        | tool call =>
            refine ⟨call, met, hmem, ?_⟩
            rw [Request.toolFails] at hfails
            cases hresult : (met.perform tool (.tool call)).1 with
            | ok => simp [hresult] at hfails
            | error error' =>
                rw [hresult] at hfails
                rw [of_decide_eq_true hfails]
        | _ => exact absurd hfails Bool.false_ne_true
      · rintro ⟨call, met, hmem, herror⟩
        refine ⟨(.tool call, met), hmem, ?_⟩
        rw [Request.toolFails, herror]
        exact decide_eq_true rfl)

namespace Cache

open Disk

variable {cache : Cache} {home : Place} {name : String} {tool : Tool} {machine start : Machine}
  {disk disk' disk'' : Disk} {technology : Technology} {settings : Settings} {tarball : Tarball}
  {archive : Path} {error : Error}

/-- **What a failed attempt leaves outside its staging directory:** `extracted` is there, and
everything else is as it was before. -/
structure Unspoilt (cache : Cache) (home : Place) (name : String) (disk disk' : Disk) : Prop where
  current : disk'.current = disk.current
  extracted : disk'.get? (extractedAt home) =
    some ((disk.get? (extractedAt home)).getD (.dir .newDir))
  isDir : disk'.IsDir (extractedAt home)
  frame : ∀ p, ¬ stagingAt home name cache.processId <+: p → p ≠ extractedAt home →
    disk'.get? p = disk.get? p

/-- **What a failed attempt leaves** when its staging directory can be removed: there is none. -/
structure Cleared (cache : Cache) (home : Place) (name : String) (disk disk' : Disk) : Prop
    extends Unspoilt cache home name disk disk' where
  staging : ∀ rel, disk'.tree (stagingAt home name cache.processId) rel = none

/-- The second of two failed attempts leaves what the first one has left. -/
theorem Cleared.trans (h : Cleared cache home name disk disk')
    (h' : Cleared cache home name disk' disk'') : Cleared cache home name disk disk'' := by
  refine ⟨⟨h'.current.trans h.current, ?_, h'.isDir, fun p hp hx => ?_⟩, h'.staging⟩
  · rw [h'.extracted, h.extracted]
    rfl
  · rw [h'.frame p hp hx, h.frame p hp hx]

/-- **A cache before the tarball of a name is unpacked.** -/
structure Untouched (cache : Cache) (home : Place) (name : String) (disk : Disk) : Prop where
  plain : Plain cache.dir home name disk
  rooted : disk.Rooted
  target : disk.get? (targetAt home name) = none

/-- A failed attempt leaves the tarball as it was. -/
theorem Untouched.cleared (h : Untouched cache home name disk)
    (hc : Cleared cache home name disk disk') : Untouched cache home name disk' := by
  have hagree : AgreeOutside home disk disk' := by
    refine ⟨hc.current, fun p hp => hc.frame p (fun hpre => hp ?_) ?_⟩
    · exact (below_targetAt home _).extend hpre
    · rintro rfl
      exact hp (below_extractedAt home)
  have hplain : Plain cache.dir home name disk' := by
    refine h.plain.congr hagree fun p hp hl => ?_
    by_cases hx : p = extractedAt home
    · exact hx ▸ hc.isDir.unlinked
    by_cases hpre : stagingAt home name cache.processId <+: p
    · obtain ⟨rel, rfl⟩ := hpre
      intro target hlink
      exact absurd ((hc.staging rel).symm.trans hlink) (by simp)
    · exact hl.of_eq (hc.frame p hpre hx)
  have hrooted : disk'.Rooted := by
    intro place x hthere
    by_cases hhome : place ++ [x] = extractedAt home
    · rw [(List.append_inj' hhome rfl).1]
      exact hplain.leads.isDir
    by_cases hpre : stagingAt home name cache.processId <+: place ++ [x]
    · obtain ⟨rel, hrel⟩ := hpre
      exact absurd (hrel ▸ hc.staging rel) hthere
    have hdir : disk.IsDir place := h.rooted place x (by rwa [← hc.frame _ hpre hhome])
    by_cases hx : place = extractedAt home
    · exact hx ▸ hc.isDir
    · rw [IsDir, hc.frame place (fun hplace => hpre (hplace.trans (List.prefix_append _ _))) hx]
      exact hdir
  refine ⟨hplain, hrooted, ?_⟩
  rw [hc.frame _ (not_prefix_of_ne home "extracted" (stagingName_ne name _) []) (by simp), h.target]

/-- A tarball with nothing at its target is missing. -/
theorem Plain.stateOn_of_none (h : Plain cache.dir home name disk)
    (hname : isEntryName name = true) (hnone : disk.get? (targetAt home name) = none) :
    cache.stateOn name disk = .missing := by
  refine if_neg fun hkind => ?_
  obtain ⟨-, mode, hmode⟩ := (h.kind?_target hname).1 hkind
  exact absurd (hmode.symm.trans hnone) (by simp)

/-- A tarball that nothing has been unpacked of is missing. -/
theorem Untouched.stateOn (h : Untouched cache home name disk) (hname : isEntryName name = true) :
    cache.stateOn name disk = .missing :=
  h.plain.stateOn_of_none hname h.target

/-! ### The tool fails -/

/-- **When the tool fails while it unpacks,** unpacking fails with its error, whichever of the two
calls it was. -/
theorem unpack_of_toolFails (hfails : (unpack archive (cache.staging name)).ToolFails tool start
    error) : ((unpack archive (cache.staging name)).run tool start).1 = .error error := by
  obtain ⟨call, met, hmem, herror⟩ := hfails
  rw [unpack, Action.run_bind, Action.run_callTool]
  obtain hextract | ⟨value, next, hrun, hgrant⟩ := Action.mem_trace_bind.1 hmem
  · rw [Action.trace_callTool, List.mem_singleton] at hextract
    obtain ⟨hcall, rfl⟩ := Prod.mk.inj hextract
    obtain rfl := Request.tool.inj hcall
    cases hrun : met.perform tool (.tool (.extract archive (cache.staging name))) with
    | mk result next =>
        rw [hrun] at herror
        obtain rfl : result = .error error := herror
        rfl
  · rw [Action.trace_callTool, List.mem_singleton] at hgrant
    obtain ⟨hcall, rfl⟩ := Prod.mk.inj hgrant
    obtain rfl := Request.tool.inj hcall
    rw [Action.run_callTool] at hrun
    rw [hrun]
    exact (congrArg Prod.fst (Action.run_callTool _)).trans herror

/-- Unpacking is work in the staging directory. -/
theorem Working.unpack_within (h : Working cache home name start.disk) (htool : tool.Confined)
    (hname : isEntryName name = true) :
    Within (stagingAt home name cache.processId) start.disk
      ((Cache.unpack archive (cache.staging name)).run tool start).2.disk := by
  refine Working.unpack (fun h hdest => ?_) Working.within Within.trans h
  obtain ⟨-, hsame | hwithin⟩ := h.call htool.does hname hdest
  · rw [hsame]
    exact h.refl
  · exact hwithin

/-- What is left outside the staging directory, whatever has happened in there. -/
theorem Prepared.unspoilt (h : Prepared cache home name disk disk')
    (hcurrent : disk''.current = disk'.current)
    (hframe : ∀ p, ¬ stagingAt home name cache.processId <+: p → disk''.get? p = disk'.get? p) :
    Unspoilt cache home name disk disk'' := by
  have hextracted : disk''.get? (extractedAt home) = disk'.get? (extractedAt home) :=
    hframe _ fun hpre => by simpa using hpre.length_le
  refine ⟨hcurrent.trans h.current, hextracted.trans h.extracted, ?_, fun p hp hx => ?_⟩
  · rw [IsDir, hextracted]
    exact h.reaches.area
  · rw [hframe p hp, h.frame p hp hx]

/-- Nothing is published by a failed attempt. -/
theorem Unspoilt.target (h : Unspoilt cache home name disk disk') :
    disk'.get? (targetAt home name) = disk.get? (targetAt home name) := by
  refine h.frame _ (not_prefix_of_ne home "extracted" (stagingName_ne name _) []) ?_
  simp

/-- **An unpacking during which the tool fails** has started from an empty staging directory, and it
is one of the two calls there that fails. -/
theorem exists_unpack_of_toolFails (hname : isEntryName tarball.path = true)
    (hu : Untouched cache home tarball.path machine.disk)
    (hfails : (cache.extract technology tarball archive).ToolFails tool machine error) :
    ∃ disk', Prepared cache home tarball.path machine.disk disk' ∧
      (∀ tool, (cache.prepareStaging tarball.path).run tool machine =
        (.ok (), { machine with disk := disk' })) ∧
      (unpack archive (cache.staging tarball.path)).ToolFails tool { machine with disk := disk' }
        error := by
  obtain ⟨call, met, hmem, herror⟩ := hfails
  obtain ⟨value, next, hrun, hmem⟩ := Action.exists_of_mem_trace_bind
    ((asks_prepareStaging cache tarball.path).mono fun _ h => h.2) hmem
  obtain ⟨disk', hprepared, hprepare⟩ | ⟨context, disk', hprepare⟩ :=
    run_prepareStaging hname hu.plain hu.rooted
  swap
  · exact absurd (congrArg Prod.fst ((hprepare tool).symm.trans hrun)) (by simp)
  refine ⟨disk', hprepared, hprepare, ?_⟩
  obtain rfl : { machine with disk := disk' } = next :=
    congrArg Prod.snd ((hprepare tool).symm.trans hrun)
  -- Behind the two calls nothing calls the tool any more.
  obtain hcalls | ⟨result, worked, -, hafter⟩ := Action.mem_trace_bind.1 hmem
  · rw [Action.trace_attempt] at hcalls
    exact ⟨call, met, hcalls, herror⟩
  · cases result with
    | error error =>
        refine absurd hafter (Action.not_mem_trace ?_)
        exact (Action.asks_tryRemoveDirAll (Request.direct_removeDirAll _)).bind fun _ =>
          Action.asks_fail _
    | ok =>
        refine absurd hafter (Action.not_mem_trace ?_)
        exact ((asks_publish cache _).mono fun _ h => h.2).bind fun _ =>
          (asks_markComplete cache _ _).mono fun _ h => h.2

/-- When no removal is refused, the staging directory in which the tool has failed is removed. -/
theorem removed_of_removesAll {worked : Machine}
    (hprepare : (cache.prepareStaging tarball.path).run tool machine = (.ok (), start))
    (hunpack : (unpack archive (cache.staging tarball.path)).run tool start =
      (.error error, worked))
    (h : (cache.extract technology tarball archive).RemovesAll tool machine) :
    (worked.disk.removeDirAll (cache.staging tarball.path)).1 = true := by
  have hattempt : (unpack archive (cache.staging tarball.path)).attempt.run tool start =
      (.ok (.error error), worked) := by rw [Action.run_attempt, hunpack]
  have hremoves : (Action.tryRemoveDirAll (cache.staging tarball.path)).RemovesAll tool worked :=
    ((h.right hprepare).right hattempt).left
  refine hremoves _ worked ?_
  rw [Action.trace_tryRemoveDirAll, List.mem_singleton]

/-- **What becomes of an attempt, and what it leaves:** its error, a cache in which the tarball can
be unpacked, and nothing new outside the staging directory, which is gone when no removal was
refused. -/
structure Fails {α : Type} (cache : Cache) (home : Place) (technology : Technology)
    (tarball : Tarball) (error : Error) (machine : Machine) (removes : Prop)
    (outcome : Except Error α × Machine) : Prop where
  error : outcome.1 = .error (error.attribute technology tarball)
  plain : Plain cache.dir home tarball.path outcome.2.disk
  unspoilt : Unspoilt cache home tarball.path machine.disk outcome.2.disk
  staging : removes → ∀ rel,
    outcome.2.disk.tree (stagingAt home tarball.path cache.processId) rel = none

/-- **An unpacking during which the tool fails** fails with the error of the tool, about the
tarball. That the staging directory is gone afterwards takes that no removal was refused; the rest
does not. -/
theorem extract_of_toolFails (htool : tool.Confined) (hname : isEntryName tarball.path = true)
    (hu : Untouched cache home tarball.path machine.disk)
    (hfails : (cache.extract technology tarball archive).ToolFails tool machine error) :
    Fails cache home technology tarball error machine
      ((cache.extract technology tarball archive).RemovesAll tool machine)
      ((cache.extract technology tarball archive).run tool machine) := by
  obtain ⟨disk', hprepared, hprepare, hfails⟩ := exists_unpack_of_toolFails hname hu hfails
  let start : Machine := { machine with disk := disk' }
  have hworking : Working cache home tarball.path start.disk := hprepared.working hu.plain
  have hwithin : Within (stagingAt home tarball.path cache.processId) start.disk
      ((unpack archive (cache.staging tarball.path)).run tool start).2.disk :=
    hworking.unpack_within htool hname
  have hresult := unpack_of_toolFails hfails
  have hremoved := @removed_of_removesAll cache tool machine start technology tarball archive
  rw [run_extract_of_prepared (hprepare tool)]
  cases hunpack : (unpack archive (cache.staging tarball.path)).run tool start with
  | mk result worked =>
      rw [show (unpack archive (cache.staging tarball.path)).run tool _ = _ from hunpack] at hresult
      rw [hunpack] at hwithin
      obtain rfl : result = .error error := hresult
      have hworked : Working cache home tarball.path worked.disk := hworking.within hwithin
      have hdiscards := hworked.discards hname
      have hchange : Change home tarball.path cache.processId (fun _ => True) worked.disk
          (worked.disk.removeDirAll (cache.staging tarball.path)).2 := hdiscards.change
      refine ⟨rfl, hchange.plain hworked.plain, hprepared.unspoilt ?_ fun p hp => ?_, fun h => ?_⟩
      · exact hchange.agreeOutside.current.trans hwithin.current
      · exact (hdiscards.frame hp).trans (hwithin.get? p hp)
      · exact hdiscards.tree_of_true (hremoved (hprepare tool) hunpack h)

/-- **The tool is called by unpacking only:** the tarball has a name and a base directory then, and
it is the unpacking that the tool fails. -/
theorem exists_extract_of_toolFails (hu : Untouched cache home tarball.path machine.disk)
    (hfails : (cache.ensureExtracted technology settings tarball).ToolFails tool machine error) :
    isEntryName tarball.path = true ∧
      ∃ base, technology.baseDir settings tarball.baseVar = .ok base ∧
        (cache.extract technology tarball (base.join ⟨tarball.path⟩)).ToolFails tool
          (machine.announced (base.join ⟨tarball.path⟩)) error := by
  obtain ⟨call, met, hmem, herror⟩ := hfails
  obtain ⟨target, next, hrun, hmem⟩ :=
    Action.exists_of_mem_trace_bind (Action.asks_ofExcept _) hmem
  rw [Action.run_ofExcept] at hrun
  obtain ⟨htarget, rfl⟩ := Prod.mk.inj hrun
  have hname : isEntryName tarball.path = true := (targetDir_eq_ok_iff.1 htarget).1
  obtain ⟨base, next, hrun, hmem⟩ :=
    Action.exists_of_mem_trace_bind (Action.asks_ofExcept _) hmem
  rw [Action.run_ofExcept] at hrun
  obtain ⟨hbase, rfl⟩ := Prod.mk.inj hrun
  obtain ⟨_, next, hrun, hmem⟩ :=
    Action.exists_of_mem_trace_bind (Action.asks_log (Request.direct_log _ _)) hmem
  rw [Action.run_log] at hrun
  obtain ⟨-, rfl⟩ := Prod.mk.inj hrun
  obtain ⟨state, next, hrun, hmem⟩ := Action.exists_of_mem_trace_bind
    ((asks_stateOf cache tarball.path).mono fun _ h => h.2) hmem
  rw [run_stateOf] at hrun
  obtain ⟨hstate, rfl⟩ := Prod.mk.inj hrun
  obtain rfl : ExtractionState.missing = state :=
    (hu.stateOn hname).symm.trans (Except.ok.inj hstate)
  refine ⟨hname, base, hbase, call, met, ?_, herror⟩
  obtain hextract | ⟨-, after, -, hafter⟩ := Action.mem_trace_bind.1 hmem
  · exact hextract
  · refine absurd hafter (Action.not_mem_trace ?_)
    exact (Action.asks_log (Request.direct_log _ _)).bind fun _ => Action.asks_pure _

/-- **One failed attempt** ends with the error of the tool and leaves the cache as it was, but for
the staging directory, which is left only if its removal was refused. -/
theorem ensureExtracted_of_toolFails (htool : tool.Confined)
    (hu : Untouched cache home tarball.path machine.disk)
    (hfails : (cache.ensureExtracted technology settings tarball).ToolFails tool machine error) :
    Fails cache home technology tarball error machine
      ((cache.ensureExtracted technology settings tarball).RemovesAll tool machine)
      ((cache.ensureExtracted technology settings tarball).run tool machine) := by
  obtain ⟨hname, base, hbase, hfails⟩ := exists_extract_of_toolFails hu hfails
  let announced : Machine := machine.announced (base.join ⟨tarball.path⟩)
  have hu' : Untouched cache home tarball.path announced.disk := hu
  have hstate := hu.stateOn hname
  obtain ⟨herror, hplain, hunspoilt, hstaging⟩ := extract_of_toolFails htool hname hu' hfails
  rw [run_ensureExtracted_missing hname hbase hstate]
  cases hrun : (cache.extract technology tarball (base.join ⟨tarball.path⟩)).run tool announced with
  | mk result machine' =>
      rw [hrun] at herror hplain hunspoilt hstaging
      obtain rfl : result = .error (error.attribute technology tarball) := herror
      exact ⟨rfl, hplain, hunspoilt, fun h => hstaging (removesAll_extract hname hbase hstate h)⟩

/-! ### Afterwards -/

/-- **Unpacking starts alike** whether or not attempts have failed before: from a new and empty
staging directory, on disks that show the same. -/
theorem Prepared.alike {disk₁ disk₂ : Disk} (h : Prepared cache home name disk disk₁)
    (hc : Cleared cache home name disk disk') (h' : Prepared cache home name disk' disk₂) :
    Alike disk₁ disk₂ := by
  refine ⟨h'.current.trans (hc.current.trans h.current.symm), funext fun p => ?_⟩
  by_cases hp : stagingAt home name cache.processId <+: p
  · obtain ⟨rel, rfl⟩ := hp
    exact congrFun (h'.staging.trans h.staging.symm) rel
  by_cases hx : p = extractedAt home
  · rw [hx, h'.extracted, hc.extracted, h.extracted]
    rfl
  · rw [h'.frame p hp hx, hc.frame p hp hx, h.frame p hp hx]

/-- Unpacking spares what is removed on a failure: the two calls of the tool write, and neither is a
removal. -/
theorem spares_unpack (archive staging : Path) :
    (unpack archive staging).Asks Request.Spares :=
  (Action.asks_callTool nofun).bind fun _ => Action.asks_callTool nofun

/-- Marking a tarball as complete removes nothing: it makes a directory, reads the archive's time
and writes the marker. -/
theorem spares_markComplete (cache : Cache) (name : String) (archive : Path) :
    (cache.markComplete name archive).Asks Request.Spares :=
  (Action.asks_createDirAll _ nofun).bind fun _ => Action.asks_writeFile _ _ nofun

/-- **Publishing where nobody else has published:** the staging directory is moved to the target,
or removed as far as that is possible. -/
theorem run_publish_of_missing (hkind : machine.disk.kind? (cache.target name) ≠ some .dir) :
    (cache.publish name).run tool machine =
      match machine.disk.rename? (cache.staging name) (cache.target name) with
      | some disk => (.ok (), { machine with disk })
      | none => (.error (.io ("moving " ++ (cache.staging name).text ++ " to " ++
          (cache.target name).text)), { machine with
            disk := (machine.disk.removeDirAll (cache.staging name)).2 }) := by
  have hperform : machine.perform tool (.rename (cache.staging name) (cache.target name)) =
      machine.update (machine.disk.rename? (cache.staging name) (cache.target name)) := rfl
  rw [publish, Action.run_bind, Action.run_request, hperform]
  cases machine.disk.rename? (cache.staging name) (cache.target name) with
  | some disk => rfl
  | none =>
      dsimp only [Machine.update]
      rw [if_neg Bool.false_ne_true, Action.run_bind, Action.run_isDir]
      dsimp only
      rw [if_neg (by simpa using hkind), Action.run_bind, Action.run_tryRemoveDirAll]
      rfl

/-- **Unpacking ends alike** from staging directories on disks that look alike, whatever is left of
them: with the same result, and with the same outside them. -/
theorem run_extract_alike {machine₁ machine₂ start₁ start₂ : Machine} (technology : Technology)
    (archive : Path) (hconfined : tool.Confined) (htool : tool.Extensional)
    (hname : isEntryName tarball.path = true)
    (hprepare₁ : (cache.prepareStaging tarball.path).run tool machine₁ = (.ok (), start₁))
    (hprepare₂ : (cache.prepareStaging tarball.path).run tool machine₂ = (.ok (), start₂))
    (hw₁ : Working cache home tarball.path start₁.disk)
    (hw₂ : Working cache home tarball.path start₂.disk) (halike : Alike start₁.disk start₂.disk)
    (hnone : start₁.disk.get? (targetAt home tarball.path) = none) :
    ((cache.extract technology tarball archive).run tool machine₂).1 =
        ((cache.extract technology tarball archive).run tool machine₁).1 ∧
      ∀ p, ¬ stagingAt home tarball.path cache.processId <+: p →
        ((cache.extract technology tarball archive).run tool machine₂).2.disk.get? p =
          ((cache.extract technology tarball archive).run tool machine₁).2.disk.get? p := by
  have hwithin₁ := @Working.unpack_within _ _ _ _ _ archive hw₁ hconfined hname
  have hwithin₂ := @Working.unpack_within _ _ _ _ _ archive hw₂ hconfined hname
  obtain ⟨hresult, hunpacked⟩ :=
    Action.run_alike htool (spares_unpack archive (cache.staging tarball.path)) halike
  rw [run_extract_of_prepared hprepare₁, run_extract_of_prepared hprepare₂]
  cases hrun₁ : (unpack archive (cache.staging tarball.path)).run tool start₁ with
  | mk result₁ granted₁ =>
      cases hrun₂ : (unpack archive (cache.staging tarball.path)).run tool start₂ with
      | mk result₂ granted₂ =>
          rw [hrun₁] at hwithin₁
          rw [hrun₂] at hwithin₂
          rw [hrun₁, hrun₂] at hresult hunpacked
          obtain rfl : result₂ = result₁ := hresult
          have hdiscards₁ := (hw₁.within hwithin₁).discards hname
          have hdiscards₂ := (hw₂.within hwithin₂).discards hname
          -- Away from the staging directories the disks are still the same after removing them.
          have hremoved (p : Place) (hp : ¬ stagingAt home tarball.path cache.processId <+: p) :
              (granted₂.disk.removeDirAll (cache.staging tarball.path)).2.get? p =
                (granted₁.disk.removeDirAll (cache.staging tarball.path)).2.get? p := by
            rw [hdiscards₂.frame hp, hdiscards₁.frame hp, hunpacked.get?]
          cases result₂ with
          | error error => exact ⟨rfl, hremoved⟩
          | ok =>
              have hmissing : granted₁.disk.kind? (cache.target tarball.path) ≠ some .dir := by
                intro hkind
                obtain ⟨-, mode, hmode⟩ := ((hw₁.within hwithin₁).plain.kind?_target hname).1 hkind
                have hsame := hwithin₁.get? (targetAt home tarball.path)
                  (not_prefix_of_ne home "extracted" (stagingName_ne tarball.path _) [])
                exact absurd (hmode.symm.trans (hsame.trans hnone)) (by simp)
              have hmissing₂ : granted₂.disk.kind? (cache.target tarball.path) ≠ some .dir := by
                rwa [hunpacked.kind?]
              have hrename := hunpacked.rename? (cache.staging tarball.path)
                (cache.target tarball.path)
              dsimp only
              rw [Action.run_bind, Action.run_bind, run_publish_of_missing hmissing,
                run_publish_of_missing hmissing₂]
              generalize granted₁.disk.rename? _ _ = disk?₁ at hrename ⊢
              generalize granted₂.disk.rename? _ _ = disk?₂ at hrename ⊢
              cases hrename with
              | none => exact ⟨rfl, hremoved⟩
              | @some published₁ published₂ hpublished =>
                  obtain ⟨hmark, hmarked⟩ := @Action.run_alike { granted₁ with disk := published₁ }
                    { granted₂ with disk := published₂ } _ _ htool _
                    (spares_markComplete cache tarball.path archive) hpublished
                  exact ⟨hmark, fun p _ => congrFun hmarked.get? p⟩

/-- **A call after failed attempts** ends like one without them, if the tool goes by what the disk
shows: it has the same result, and the disks look alike outside of the staging directory. -/
theorem ensureExtracted_of_cleared {later : Machine} {base : Path} (hconfined : tool.Confined)
    (htool : tool.Extensional) (hname : isEntryName tarball.path = true)
    (hbase : technology.baseDir settings tarball.baseVar = .ok base)
    (hu : Untouched cache home tarball.path machine.disk)
    (hprepare : ∃ disk', Prepared cache home tarball.path machine.disk disk' ∧ ∀ tool,
      (cache.prepareStaging tarball.path).run tool (machine.announced (base.join ⟨tarball.path⟩)) =
        (.ok (), { machine.announced (base.join ⟨tarball.path⟩) with disk := disk' }))
    (hc : Cleared cache home tarball.path machine.disk later.disk) :
    ((cache.ensureExtracted technology settings tarball).run tool later).1 =
        ((cache.ensureExtracted technology settings tarball).run tool machine).1 ∧
      ∀ p, ¬ stagingAt home tarball.path cache.processId <+: p →
        ((cache.ensureExtracted technology settings tarball).run tool later).2.disk.get? p =
          ((cache.ensureExtracted technology settings tarball).run tool machine).2.disk.get? p := by
  have hu' : Untouched cache home tarball.path later.disk := hu.cleared hc
  obtain ⟨disk₁, hprepared₁, hrun₁⟩ := hprepare
  obtain ⟨disk₂, hprepared₂, hrun₂⟩ :=
    @run_prepareStaging_of_reaches cache home tarball.path
      (later.announced (base.join ⟨tarball.path⟩)) hname hu'.plain
      (hprepared₁.reaches.congr hc.isDir) hc.staging
  have hnone : disk₁.get? (targetAt home tarball.path) = none := by
    rw [hprepared₁.frame _ (not_prefix_of_ne home "extracted" (stagingName_ne _ _) []) (by simp),
      hu.target]
  obtain ⟨hresult, hframe⟩ := run_extract_alike technology (base.join ⟨tarball.path⟩) hconfined
    htool hname (hrun₁ tool) (hrun₂ tool) (hprepared₁.working hu.plain)
    (hprepared₂.working hu'.plain) (hprepared₁.alike hc hprepared₂) hnone
  rw [run_ensureExtracted_missing hname hbase (hu.stateOn hname),
    run_ensureExtracted_missing hname hbase (hu'.stateOn hname)]
  cases hend₁ : (cache.extract technology tarball (base.join ⟨tarball.path⟩)).run tool
      (machine.announced (base.join ⟨tarball.path⟩)) with
  | mk result₁ end₁ =>
      cases hend₂ : (cache.extract technology tarball (base.join ⟨tarball.path⟩)).run tool
          (later.announced (base.join ⟨tarball.path⟩)) with
      | mk result₂ end₂ =>
          rw [hend₁, hend₂] at hresult hframe
          obtain rfl : result₂ = result₁ := hresult
          cases result₂ with
          | ok => exact ⟨rfl, hframe⟩
          | error error => exact ⟨rfl, hframe⟩

/-! ### Any number of attempts -/

/-- So many calls for a tarball, one after the other, in each of which a tool fails and leaves what
can be removed. -/
inductive FailedAttempts (cache : Cache) (technology : Technology) (settings : Settings)
    (tarball : Tarball) (machine : Machine) : Nat → Machine → Prop
  | none : FailedAttempts cache technology settings tarball machine 0 machine
  | again {k : Nat} {met : Machine} {tool : Tool} {error : Error}
      (h : FailedAttempts cache technology settings tarball machine k met)
      (htool : tool.Confined)
      (hfails : (cache.ensureExtracted technology settings tarball).ToolFails tool met error)
      (hremoves : (cache.ensureExtracted technology settings tarball).RemovesAll tool met) :
      FailedAttempts cache technology settings tarball machine (k + 1)
        ((cache.ensureExtracted technology settings tarball).run tool met).2

/-- **What some failed attempts leave,** and what the first of them has shown: the tarball has a
name and a base directory, and its staging directory could be prepared. -/
structure Attempted (cache : Cache) (home : Place) (technology : Technology) (settings : Settings)
    (tarball : Tarball) (machine met : Machine) : Prop where
  isName : isEntryName tarball.path = true
  base : ∃ base, technology.baseDir settings tarball.baseVar = .ok base ∧
    ∃ disk', Prepared cache home tarball.path machine.disk disk' ∧ ∀ tool,
      (cache.prepareStaging tarball.path).run tool (machine.announced (base.join ⟨tarball.path⟩)) =
        (.ok (), { machine.announced (base.join ⟨tarball.path⟩) with disk := disk' })
  cleared : Cleared cache home tarball.path machine.disk met.disk

/-- **Failed attempts leave no more than one of them,** by induction on their number. Each of them
starts from what the one before it left, which is as good as the start. -/
theorem FailedAttempts.leaves {k : Nat} {met : Machine}
    (h : FailedAttempts cache technology settings tarball machine k met)
    (hu : Untouched cache home tarball.path machine.disk) :
    Untouched cache home tarball.path met.disk ∧
      (met = machine ∨ Attempted cache home technology settings tarball machine met) := by
  induction h with
  | none => exact ⟨hu, Or.inl rfl⟩
  | @again k met tool error h htool hfails hremoves ih =>
      obtain ⟨humet, hbefore⟩ := ih
      obtain ⟨-, -, hunspoilt, hstaging⟩ := ensureExtracted_of_toolFails htool humet hfails
      have hcleared := Cleared.mk hunspoilt (hstaging hremoves)
      refine ⟨humet.cleared hcleared, Or.inr ?_⟩
      obtain rfl | hattempted := hbefore
      · obtain ⟨hname, base, hbase, hextract⟩ := exists_extract_of_toolFails humet hfails
        have hu' : Untouched cache home tarball.path
            (met.announced (base.join ⟨tarball.path⟩)).disk := humet
        obtain ⟨disk', hprepared, hprepare, -⟩ := exists_unpack_of_toolFails hname hu' hextract
        exact ⟨hname, ⟨base, hbase, disk', hprepared, hprepare⟩, hcleared⟩
      · exact ⟨hattempted.isName, hattempted.base, hattempted.cleared.trans hcleared⟩

/-- **Failed extractions leave no trace.** A tarball is missing, with nothing at its target, in a
cache without symbolic links. After any number of calls in each of which the tool has failed, and
has left anything in its directory that can be removed again:

* one more call in which the tool fails, whatever it leaves, fails with an error that names the
  tarball and the technology along with the command, its code and what it said, or with the tool's
  own error if that is another one; outside the staging directory the disk is the one before it, but
  for `extracted`, which is there; the staging directory is gone, if no removal was refused; and the
  tarball is still missing;
* a call with a tool that goes by what the disk shows ends with the same result as without the
  failed calls, and with the same everywhere outside the staging directory, the target and the
  marker among it. -/
theorem failed_attempts_leave_no_trace {k : Nat} {met : Machine}
    (hs : Plain cache.dir home tarball.path machine.disk) (hrooted : machine.disk.Rooted)
    (hmissing : machine.disk.get? (targetAt home tarball.path) = none)
    (hattempts : FailedAttempts cache technology settings tarball machine k met) :
    (∀ tool error, tool.Confined →
      (cache.ensureExtracted technology settings tarball).ToolFails tool met error →
      let outcome := (cache.ensureExtracted technology settings tarball).run tool met
      (∀ command code stderr, error = .toolFailed command code stderr → outcome.1 =
        .error (.extraction tarball.path technology.name command code stderr)) ∧
      ((∀ command code stderr, error ≠ .toolFailed command code stderr) →
        outcome.1 = .error error) ∧
      Unspoilt cache home tarball.path met.disk outcome.2.disk ∧
      ((cache.ensureExtracted technology settings tarball).RemovesAll tool met →
        ∀ rel, outcome.2.disk.tree (stagingAt home tarball.path cache.processId) rel = none) ∧
      (cache.state tarball).run tool outcome.2 = (.ok .missing, outcome.2)) ∧
    ∀ tool, tool.Confined → tool.Extensional →
      let fresh := (cache.ensureExtracted technology settings tarball).run tool machine
      let later := (cache.ensureExtracted technology settings tarball).run tool met
      later.1 = fresh.1 ∧ ∀ place, ¬ stagingAt home tarball.path cache.processId <+: place →
        later.2.disk.get? place = fresh.2.disk.get? place := by
  have hu : Untouched cache home tarball.path machine.disk := ⟨hs, hrooted, hmissing⟩
  obtain ⟨humet, hbefore⟩ := hattempts.leaves hu
  refine ⟨fun tool error htool hfails => ?_, fun tool hconfined htool => ?_⟩
  · intro outcome
    obtain ⟨hname, -⟩ := exists_extract_of_toolFails humet hfails
    obtain ⟨herror, hplain, hunspoilt, hstaging⟩ := ensureExtracted_of_toolFails htool humet hfails
    refine ⟨?_, fun hother => ?_, hunspoilt, hstaging, ?_⟩
    · rintro command code stderr rfl
      exact herror
    · refine herror.trans (congrArg Except.error ?_)
      cases error with
      | toolFailed command code stderr => exact absurd rfl (hother command code stderr)
      | _ => rfl
    · rw [run_state hname, hplain.stateOn_of_none hname (hunspoilt.target.trans humet.target)]
  · obtain rfl | hattempted := hbefore
    · exact ⟨rfl, fun _ _ => rfl⟩
    · obtain ⟨base, hbase, hprepare⟩ := hattempted.base
      exact ensureExtracted_of_cleared hconfined htool hattempted.isName hbase hu hprepare
        hattempted.cleared

/-- A tool that puts one file into the directory it is called on, as another one does, and then
fails. -/
def brokenTool (file : String) (error : Error) : Tool := fun call machine =>
  (.error error, (Tool.unpacking file call machine).2)

/-- The tool that leaves a file and fails keeps to its destination. -/
theorem confined_brokenTool (file : String) (error : Error) : (brokenTool file error).Confined :=
  fun call machine => Tool.confined_unpacking file call machine

/-- The error of `tar` at an archive that stops short. -/
def tarError : Error := .toolFailed "tar" (some 2) "unexpected EOF"

/-- The machine that two failed calls for `t` leave. -/
def failedTwice : Machine :=
  (ensureT.run (brokenTool "part" tarError)
    (ensureT.run (brokenTool "part" tarError) staleCache).2).2

/-- After two failed calls for the tarball `t`, a third one fails in the same way, and a call with a
tool that succeeds ends as it would have done at first. -/
theorem t_fails_twice :
    (ensureT.run (brokenTool "part" tarError) failedTwice).1 =
        .error (.extraction "t" "tech" "tar" (some 2) "unexpected EOF") ∧
      (∀ rel, (ensureT.run (brokenTool "part" tarError) failedTwice).2.disk.tree
        (stagingAt ["c"] "t" 1) rel = none) ∧
      (ensureT.run (Tool.unpacking "cells") failedTwice).1 =
        (ensureT.run (Tool.unpacking "cells") staleCache).1 ∧
      ∀ place, ¬ stagingAt ["c"] "t" 1 <+: place →
        (ensureT.run (Tool.unpacking "cells") failedTwice).2.disk.get? place =
          (ensureT.run (Tool.unpacking "cells") staleCache).2.disk.get? place := by
  have hconfined := confined_brokenTool "part" tarError
  have hfirst : ensureT.ToolFails (brokenTool "part" tarError) staleCache tarError ∧
      ensureT.RemovesAll (brokenTool "part" tarError) staleCache := by decide +kernel
  have hsecond : ensureT.ToolFails (brokenTool "part" tarError)
      (ensureT.run (brokenTool "part" tarError) staleCache).2 tarError ∧
      ensureT.RemovesAll (brokenTool "part" tarError)
        (ensureT.run (brokenTool "part" tarError) staleCache).2 := by decide +kernel
  have hthird : ensureT.ToolFails (brokenTool "part" tarError) failedTwice tarError ∧
      ensureT.RemovesAll (brokenTool "part" tarError) failedTwice := by decide +kernel
  have hmissing : staleCache.disk.get? (targetAt ["c"] "t") = none := by decide +kernel
  have hattempts : FailedAttempts firstCache oneTarball {} ⟨"t", "", none⟩ staleCache 2
      failedTwice :=
    (FailedAttempts.none.again hconfined hfirst.1 hfirst.2).again hconfined hsecond.1 hsecond.2
  obtain ⟨hagain, hafter⟩ := failed_attempts_leave_no_trace (plain_staleCache "t")
    rooted_staleCache hmissing hattempts
  obtain ⟨herror, -, -, hstaging, -⟩ := hagain _ _ hconfined hthird.1
  have hlater := hafter _ (Tool.confined_unpacking "cells") (Tool.extensional_unpacking "cells")
  unfold ensureT at hthird ⊢
  exact ⟨herror "tar" (some 2) "unexpected EOF" rfl, hstaging hthird.2, hlater⟩

/-- A tool that leaves a file in a directory that may not be changed, in the one it is called on,
and then fails. -/
def lockingTool (error : Error) : Tool := fun call machine =>
  match machine.disk.find true call.dest with
  | .entry place (.dir _) => (.error error, { machine with
      disk := (machine.disk.set (place ++ ["d"]) (.dir 0o555)).set (place ++ ["d", "x"])
        (.file [] .newFile) })
  | _ => (.error error, machine)

/-- The tool that locks a directory keeps to its destination: the directory is in there. -/
theorem confined_lockingTool (error : Error) : (lockingTool error).Confined := by
  intro call machine
  unfold lockingTool
  split
  · rename_i place mode hfind
    have hdir : machine.disk.IsDir place := ⟨mode, get?_of_find hfind⟩
    have hfirst := within_set hdir (show ["d"] ≠ [] by simp) (.dir 0o555)
    have hsecond := within_set hfirst.isDir' (show ["d", "x"] ≠ [] by simp) (.file [] .newFile)
    exact ⟨rfl, Or.inr ⟨place, mode, hfind, hfirst.trans hsecond⟩⟩
  · exact ⟨rfl, Or.inl rfl⟩

/-- The machine that a failed call for `t` leaves when its staging directory cannot be removed. -/
def lockedCache : Machine := (ensureT.run (lockingTool tarError) emptyCache).2

/-- **Failed extractions do leave a trace** when what the tool has left cannot be removed. The call
for `t` in an empty cache fails with the error of the tool, but its staging directory stays, and the
file in it. A call with a tool that would succeed fails then at the stale staging directory, where
it would have unpacked `t` without the failed call. -/
theorem t_locked_out :
    (lockingTool tarError).Confined ∧ ensureT.ToolFails (lockingTool tarError) emptyCache tarError ∧
      emptyCache.disk.get? (targetAt ["c"] "t") = none ∧
      lockedCache.disk.get? (stagingAt ["c"] "t" 1 ++ ["d", "x"]) = some (.file [] .newFile) ∧
      (ensureT.run (Tool.unpacking "cells") lockedCache).1 =
        .error (.io "removing stale staging /c/extracted/.t.partial-1") ∧
      (ensureT.run (Tool.unpacking "cells") emptyCache).1 = .ok ⟨"/c/extracted/t"⟩ := by
  refine ⟨confined_lockingTool tarError, ?_⟩
  decide +kernel

end Cache
end ProcessKit
