/-
# What is published

The tree that a successful run leaves at a target is known on every way it can take. A target that
is there is kept. Otherwise the tool is called twice for a staging directory that was empty before,
and what the two calls leave in it becomes the target, unless somebody else has made the target in
the meantime: that one is kept then, and the staging directory discarded. `Disk.Raced` says what may
happen during a call, `Working.publishes` how publishing ends, and `ensureExtracted_publishes` puts
this together.

A rename replaces a directory only if that is empty. Hence the three ends of publishing
(`Publishes`): the staging directory was moved to a target that was missing or empty; the rename was
refused beside a target that is there, and the staging directory is removed as far as that is
possible; or it was refused without a target, which is an error. In none of them is a tree with
something in it replaced.

`Unpacking` holds the two calls of the tool with the disks between them, so that the published tree
can be named: it is the one that the second call leaves (`Publishes.tree`). A tarball is complete in
the end if its marker is a file afterwards. It may have been a device all along, which takes what is
written to it and keeps nothing; such a tarball is published, and stays incomplete
(`t_published_and_incomplete`).
-/

import ProcessKit.Proofs.Cache.Containment
import ProcessKit.Proofs.Cache.Staging

namespace ProcessKit

namespace Disk

variable {disk disk' disk'' : Disk} {place target : Place}

/-- A directory with something in it. -/
def Filled (disk : Disk) (place : Place) : Prop :=
  disk.IsDir place ∧ ∃ x, disk.get? (place ++ [x]) ≠ none

/-- Whether a published target has something in it depends on its tree alone. -/
theorem Filled.of_tree (h : disk.Filled target) (htree : disk'.tree target = disk.tree target) :
    disk'.Filled target := by
  obtain ⟨hdir, x, hx⟩ := h
  have hchild : disk'.get? (target ++ [x]) = disk.get? (target ++ [x]) := congrFun htree [x]
  exact ⟨hdir.of_tree htree, x, hchild ▸ hx⟩

/-- **Work in a directory, during which somebody else may publish a target:** nothing was there
before, and then there is a directory with something in it. -/
structure Raced (place target : Place) (disk disk' : Disk) : Prop where
  current : disk'.current = disk.current
  frame : ∀ p, ¬ place <+: p → ¬ target <+: p → disk'.get? p = disk.get? p
  isDir : disk.IsDir place
  isDir' : disk'.IsDir place
  published : disk'.tree target = disk.tree target ∨
    disk.get? target = none ∧ disk'.Filled target

/-- Whoever publishes a target finds nothing there, so this happens only once. -/
theorem Raced.trans (h : Raced place target disk disk') (h' : Raced place target disk' disk'') :
    Raced place target disk disk'' := by
  refine ⟨h'.current.trans h.current, fun p hp ht => ?_, h.isDir, h'.isDir', ?_⟩
  · rw [h'.frame p hp ht, h.frame p hp ht]
  · obtain hsame | ⟨hnone, hfilled⟩ := h.published
    · obtain hsame' | ⟨hnone', hfilled'⟩ := h'.published
      · exact Or.inl (hsame'.trans hsame)
      · exact Or.inr ⟨(get?_of_tree hsame).symm.trans hnone', hfilled'⟩
    · obtain hsame' | ⟨hnone', -⟩ := h'.published
      · exact Or.inr ⟨hnone, hfilled.of_tree hsame'⟩
      · obtain ⟨⟨mode, hmode⟩, -⟩ := hfilled
        exact absurd (hmode.symm.trans hnone') (by simp)

/-- Work in a directory apart from the target. -/
theorem Within.raced (h : Within place disk disk')
    (hapart : ∀ rel, ¬ place <+: target ++ rel) : Raced place target disk disk' :=
  ⟨h.current, fun p hp _ => h.get? p hp, h.isDir, h.isDir',
    Or.inl (funext fun rel => h.get? _ (hapart rel))⟩

/-- Publishing a target with a file in it, apart from a directory, that was free before. -/
theorem Within.raced_set {place target : Place} {x : String} {mode mode' : Mode}
    {bytes : Bytes} (h : Within place disk disk') (hnone : disk.get? target = none)
    (hne : target ≠ []) (hapart : ¬ target <+: place) :
    Raced place target disk
      ((disk'.set target (.dir mode)).set (target ++ [x]) (.file bytes mode')) := by
  have hset (p : Place) :
      ((disk'.set target (.dir mode)).set (target ++ [x]) (.file bytes mode')).get? p =
        if p = target ++ [x] then some (.file bytes mode')
        else if p = target then some (.dir mode) else disk'.get? p := by
    rw [get?_set (by simp), get?_set hne]
  have hother (p : Place) (hp : ¬ target <+: p) :
      ((disk'.set target (.dir mode)).set (target ++ [x]) (.file bytes mode')).get? p =
        disk'.get? p := by
    rw [hset, if_neg, if_neg]
    · rintro rfl
      exact hp (List.prefix_refl _)
    · rintro rfl
      exact hp (List.prefix_append target [x])
  refine ⟨h.current, fun p hp ht => ?_, h.isDir, ?_, Or.inr ⟨hnone, ⟨mode, ?_⟩, x, ?_⟩⟩
  · rw [hother p ht, h.get? p hp]
  · rw [IsDir, hother place hapart]
    exact h.isDir'
  · rw [hset, if_neg (by simp), if_pos rfl]
  · rw [hset, if_pos rfl]
    simp

end Disk

/-- **A tool that changes only what is in the directory it is called on,** or during whose work
somebody else publishes a target. -/
def Tool.Racing (tool : Tool) (target : Place) : Prop :=
  tool.Does fun place disk disk' =>
    Disk.Within place disk disk' ∨ Disk.Raced place target disk disk'

/-- A tool that keeps to its destination gives nobody the time to publish: it is one of those that
may be overtaken, and never is. -/
theorem Tool.Confined.racing {tool : Tool} (h : tool.Confined) (target : Place) :
    tool.Racing target := by
  intro call machine
  obtain ⟨hcalls, hsame | ⟨place, mode, hfind, hwithin⟩⟩ := h call machine
  · exact ⟨hcalls, Or.inl hsame⟩
  · exact ⟨hcalls, Or.inr ⟨place, mode, hfind, Or.inl hwithin⟩⟩

/-- What an action does that never calls the tool does not depend on the tool. -/
theorem Action.run_of_direct {α : Type} {action : Action α} (h : action.Asks Request.Direct)
    (tool tool' : Tool) (machine : Machine) :
    action.run tool machine = action.run tool' machine := by
  induction action generalizing machine with
  | done value => rfl
  | fail error => rfl
  | ask r next ih =>
      have hperform : machine.perform tool r = machine.perform tool' r := by
        cases r with
        | tool call => exact absurd rfl (h.1 call)
        | _ => rfl
      rw [run_ask, run_ask, hperform]
      exact ih _ (h.2 _) _

namespace Cache

open Disk

variable {cache : Cache} {home : Place} {name : String} {tool : Tool} {machine : Machine}
  {disk disk' : Disk} {technology : Technology} {settings : Settings} {tarball : Tarball}
  {archive : Path}

/-- The staging directory and the target are not inside each other. -/
theorem staging_apart (home : Place) (name : String) (processId : Nat) (rel : Place) :
    ¬ stagingAt home name processId <+: targetAt home name ++ rel := by
  rw [targetAt, List.append_assoc]
  exact not_prefix_of_ne home "extracted" (stagingName_ne name processId) rel

/-- The target of a tarball is never on the way to a place in its staging directory. What happens
there leaves the target alone. -/
theorem target_apart (home : Place) (name : String) (processId : Nat) (rel : Place) :
    ¬ targetAt home name <+: stagingAt home name processId ++ rel := by
  rw [stagingAt, List.append_assoc]
  exact not_prefix_of_ne home "extracted" (stagingName_ne name processId).symm rel

/-! ### The calls of the tool -/

/-- A target that somebody else publishes does not keep the staging directory from being one. -/
theorem Working.raced (h : Working cache home name disk)
    (hr : Raced (stagingAt home name cache.processId) (targetAt home name) disk disk') :
    Working cache home name disk' := by
  have hagree : AgreeOutside home disk disk' := by
    refine ⟨hr.current, fun p hp => hr.frame p (fun hpre => hp ?_) fun hpre => hp ?_⟩
    · exact (below_targetAt home _).extend hpre
    · exact (below_targetAt home name).extend hpre
  have harea : disk'.IsDir (extractedAt home) := by
    rw [IsDir, hr.frame _ (fun hpre => by simpa using hpre.length_le)
      fun hpre => by simpa using hpre.length_le]
    exact h.reaches.area
  refine ⟨h.plain.congr hagree fun p hp hl => ?_, h.reaches.congr harea, hr.isDir'⟩
  by_cases hstaging : stagingAt home name cache.processId <+: p
  · exact eq_of_prefix_of_shallow hp hstaging ▸ hr.isDir'.unlinked
  by_cases htarget : targetAt home name <+: p
  · obtain rfl := eq_of_prefix_of_shallow hp htarget
    obtain hsame | ⟨-, hfilled⟩ := hr.published
    · exact hl.of_eq (get?_of_tree hsame)
    · exact hfilled.1.unlinked
  · exact hl.of_eq (hr.frame p hstaging htarget)

/-- **What happens during a call for the staging directory** is work in there, or besides that the
target is published by somebody else. Nothing else of the cache is changed. -/
theorem Working.call_raced (h : Working cache home name machine.disk)
    (htool : tool.Racing (targetAt home name)) (hname : isEntryName name = true) {call : ToolCall}
    (hdest : call.dest = cache.staging name) :
    Raced (stagingAt home name cache.processId) (targetAt home name) machine.disk
      (machine.perform tool (.tool call)).2.disk := by
  have hapart := staging_apart home name cache.processId
  obtain ⟨-, hsame | hwithin | hraced⟩ := h.call htool hname hdest
  · rw [hsame]
    exact h.refl.raced hapart
  · exact hwithin.raced hapart
  · exact hraced

/-- Unpacking an archive into the staging directory is a call after which only two things can have
changed: the staging directory, and the target, if another process has published it. -/
theorem Working.unpack_raced (h : Working cache home name machine.disk)
    (htool : tool.Racing (targetAt home name)) (hname : isEntryName name = true) :
    Raced (stagingAt home name cache.processId) (targetAt home name) machine.disk
      ((Cache.unpack archive (cache.staging name)).run tool machine).2.disk :=
  Working.unpack (fun h hdest => h.call_raced htool hname hdest) Working.raced Raced.trans h

/-- **An unpacking that succeeds** is two calls that succeed, the second one on the machine that the
first one left. If either fails there is no second, or no success. -/
theorem calls_of_unpack {staging : Path} {granted : Machine}
    (h : (unpack archive staging).run tool machine = (.ok (), granted)) :
    ∃ extracted, machine.perform tool (.tool (.extract archive staging)) = (.ok (), extracted) ∧
      extracted.perform tool (.tool (.grantAccess staging)) = (.ok (), granted) := by
  rw [unpack, Action.run_bind, Action.run_callTool] at h
  cases hextract : machine.perform tool (.tool (.extract archive staging)) with
  | mk result extracted =>
      rw [hextract] at h
      cases result with
      | error error => exact absurd (congrArg Prod.fst h) (by simp)
      | ok =>
          dsimp only at h
          rw [Action.run_callTool] at h
          exact ⟨extracted, rfl, h⟩

/-! ### Publishing -/

/-- **How publishing ends:** the staging directory has become the target, where there was nothing or
an empty directory; or it is removed as far as that is possible, because of a target that is there
or with an error. -/
inductive Publishes (cache : Cache) (home : Place) (name : String) (machine : Machine) :
    Except Error Unit × Machine → Prop
  | moved (hreaches : machine.disk.Reaches home cache.dir "extracted" name)
      (htarget : machine.disk.get? (targetAt home name) = none ∨
        machine.disk.IsDir (targetAt home name) ∧
          ∀ x, machine.disk.get? (home ++ ["extracted", name, x]) = none) :
      Publishes cache home name machine (.ok (), { machine with
        disk := machine.disk.moveTree (stagingAt home name cache.processId) (targetAt home name) })
  | discarded (log : List (Level × String))
      (hkind : machine.disk.kind? (cache.target name) = some .dir) :
      Publishes cache home name machine (.ok (), { machine with
        disk := (machine.disk.removeDirAll (cache.staging name)).2, log })
  | failed (error : Error) :
      Publishes cache home name machine (.error error, { machine with
        disk := (machine.disk.removeDirAll (cache.staging name)).2 })

/-- Publishing a staging directory ends in one of these ways. -/
theorem Working.publishes (h : Working cache home name machine.disk)
    (hname : isEntryName name = true) :
    Publishes cache home name machine ((cache.publish name).run tool machine) := by
  have hstaging := isEntryName_stagingName hname cache.processId
  have hperform : machine.perform tool (.rename (cache.staging name) (cache.target name)) =
      machine.update (machine.disk.rename? (cache.staging name) (cache.target name)) := rfl
  rw [publish, Action.run_bind, Action.run_request, hperform]
  cases hrename : machine.disk.rename? (cache.staging name) (cache.target name) with
  | some disk' =>
      obtain ⟨hreaches, rfl, htarget⟩ := rename?_entryPath h.plain.hasExtracted hstaging hname
        (stagingName_ne name cache.processId) h.isDir hrename
      exact .moved hreaches htarget
  | none =>
      dsimp only [Machine.update]
      rw [if_neg Bool.false_ne_true, Action.run_bind, Action.run_isDir]
      by_cases hkind : machine.disk.kind? (cache.target name) = some .dir
      · rw [hkind]
        dsimp only
        rw [beq_self_eq_true, if_pos rfl, Action.run_bind, Action.run_log]
        dsimp only
        rw [Action.run_tryRemoveDirAll]
        exact .discarded _ hkind
      · dsimp only
        rw [if_neg (by simpa using hkind), Action.run_bind, Action.run_tryRemoveDirAll]
        exact .failed _

section

variable {result : Except Error Unit} {published : Machine}
  (h : Publishes cache home name machine (result, published))

include h

/-- Publishing calls no tool. -/
theorem Publishes.calls : published.calls = machine.calls := by
  cases h <;> rfl

variable (hw : Working cache home name machine.disk) (hname : isEntryName name = true)

include hw hname

/-- However publishing ends, nothing is left of the staging directory, or what cannot be removed. -/
theorem Publishes.leaves : published.disk.Discarded (stagingAt home name cache.processId) := by
  cases h with
  | moved =>
      refine Or.inl fun rel => ?_
      rw [tree, get?_moveTree (ne_nil_of_below (below_targetAt home _))
        (ne_nil_of_below (below_targetAt home name)),
        if_neg (target_apart home name cache.processId rel), if_pos (List.prefix_append _ rel)]
  | discarded => exact hw.discarded_removeDirAll hname
  | failed => exact hw.discarded_removeDirAll hname

/-- Publishing changes nothing else. -/
theorem Publishes.frame {p : Place} (hs : ¬ stagingAt home name cache.processId <+: p)
    (ht : ¬ targetAt home name <+: p) : published.disk.get? p = machine.disk.get? p := by
  have hkept := (hw.discards hname).frame hs
  cases h with
  | moved =>
      rw [get?_moveTree (ne_nil_of_below (below_targetAt home _))
        (ne_nil_of_below (below_targetAt home name)), if_neg ht, if_neg hs]
  | discarded => exact hkept
  | failed => exact hkept

/-- A cache in which something is published has no links where tarballs are marked either. -/
theorem Publishes.plain : Plain cache.dir home name published.disk := by
  have hdiscard : Change home name cache.processId (fun _ => True) machine.disk
      (machine.disk.removeDirAll (cache.staging name)).2 := (hw.discards hname).change
  cases h with
  | moved _ htarget =>
      have hpublish : Change home name cache.processId (fun _ => True) machine.disk
          (machine.disk.moveTree (stagingAt home name cache.processId) (targetAt home name)) :=
        .publish hw.isDir htarget trivial
      exact hpublish.plain hw.plain
  | discarded => exact hdiscard.plain hw.plain
  | failed => exact hdiscard.plain hw.plain

end

/-- **Which tree is published:** the staging directory's, unless there is a target already, which is
not empty then. An empty target is replaced, since nothing is lost by that. -/
theorem Publishes.tree {published : Machine}
    (h : Publishes cache home name machine (.ok (), published))
    (hw : Working cache home name machine.disk) (hname : isEntryName name = true)
    (hfilled : machine.disk.Reaches home cache.dir "extracted" name →
      machine.disk.IsDir (targetAt home name) → machine.disk.Filled (targetAt home name)) :
    InExtracted cache.dir home name ⟨published, []⟩ ∧
      published.disk.tree (targetAt home name) =
        if machine.disk.get? (targetAt home name) = none then
          machine.disk.tree (stagingAt home name cache.processId)
        else machine.disk.tree (targetAt home name) := by
  have hs := ne_nil_of_below (below_targetAt home (stagingName name cache.processId))
  have harea : published.disk.IsDir (extractedAt home) := by
    rw [IsDir, h.frame hw hname (fun hpre => by simpa using hpre.length_le)
      fun hpre => by simpa using hpre.length_le]
    exact hw.reaches.area
  cases h with
  | moved hreaches htarget =>
      have hmoved : (machine.disk.moveTree (stagingAt home name cache.processId)
          (targetAt home name)).tree (targetAt home name) =
            machine.disk.tree (stagingAt home name cache.processId) := by
        funext rel
        rw [Disk.tree, get?_moveTree hs (ne_nil_of_below (below_targetAt home name)),
          if_pos (List.prefix_append _ rel), List.drop_left]
        rfl
      have hnone : machine.disk.get? (targetAt home name) = none := by
        refine htarget.resolve_right ?_
        rintro ⟨hdir, hempty⟩
        obtain ⟨-, x, hx⟩ := hfilled hreaches hdir
        refine hx ?_
        rw [← hempty x, targetAt, List.append_assoc]
        rfl
      exact ⟨⟨hreaches.congr harea, hw.isDir.of_tree hmoved⟩, hmoved.trans (if_pos hnone).symm⟩
  | discarded log hkind =>
      obtain ⟨hreaches, hdir⟩ := (hw.plain.kind?_target hname).1 hkind
      have hkept : (machine.disk.removeDirAll (cache.staging name)).2.tree (targetAt home name) =
          machine.disk.tree (targetAt home name) :=
        funext fun rel => (hw.discards hname).frame (staging_apart home name cache.processId rel)
      refine ⟨⟨hreaches.congr harea, hdir.of_tree hkept⟩, hkept.trans (if_neg ?_).symm⟩
      obtain ⟨mode, hmode⟩ := hdir
      rw [hmode]
      simp

/-! ### Marking -/

/-- A tarball is seen to be complete in the end, unless its marker was a device. -/
structure Completes (cache : Cache) (home : Place) (name : String) (disk disk' : Disk) : Prop where
  target : disk'.kind? (cache.target name) = some .dir
  marker : disk.get? (markerAt home name) ≠ some .device →
    disk'.kind? (cache.marker name) = some .file

/-- **Marking a target** completes the tarball, if it succeeds. It may still be seen as incomplete
afterwards where the marker was a device before. -/
theorem completes_of_markComplete (hname : isEntryName name = true)
    (hs : Plain cache.dir home name machine.disk)
    (ht : InExtracted cache.dir home name ⟨machine, []⟩)
    (hok : ((cache.markComplete name archive).run tool machine).1 = .ok ()) :
    Completes cache home name machine.disk
      ((cache.markComplete name archive).run tool machine).2.disk := by
  have hdirect : (cache.markComplete name archive).Asks Request.Direct :=
    (asks_markComplete cache name archive).mono fun _ h => h.2
  rw [Action.run_of_direct hdirect tool (Tool.unpacking "")] at hok ⊢
  have hs' : (protocol cache.dir home name).Sound ⟨machine, []⟩ := hs
  obtain ⟨s', hmachine, hsteps, hends⟩ :=
    ((safe_markComplete hname archive False hs' ht fun h => h.elim).and_lasting lasting_target hs'
      ht).run (Tool.confined_unpacking "")
  rw [show (_ : Except Error Unit) = _ from hok] at hends
  obtain ⟨⟨hmarked, -⟩, htarget⟩ := hends
  have hensured : Ensured cache.dir home name cache.processId (.ok (cache.target name)) s' :=
    ⟨rfl, htarget, hmarked⟩
  have hplain : Plain cache.dir home name s'.machine.disk := steps_plain hsteps hs
  rw [← show s'.machine = _ from hmachine]
  refine ⟨(hplain.kind?_target hname).2 htarget, fun hdevice => ?_⟩
  exact (hensured.seen hname hplain (steps_ne_device hsteps hdevice)).2.2

/-! ### A whole run -/

/-- **The two calls of the tool:** both are made for the staging directory, which is new and empty
at first, and both succeed. -/
structure Unpacking (cache : Cache) (home : Place) (tarball : Tarball) (archive : Path)
    (tool : Tool) (machine : Machine) (prepared : Disk) (extracted granted : Machine) : Prop where
  ready : Prepared cache home tarball.path machine.disk prepared
  extract : Machine.perform tool { machine with disk := prepared }
    (.tool (.extract archive (cache.staging tarball.path))) = (.ok (), extracted)
  grant : extracted.perform tool (.tool (.grantAccess (cache.staging tarball.path))) =
    (.ok (), granted)

/-- **Unpacking a missing tarball:** once the tool has been called, nothing is left of the staging
directory, or what cannot be removed; and if it succeeds, then the target is published and
marked. -/
theorem run_extract (htool : tool.Racing (targetAt home tarball.path))
    (hname : isEntryName tarball.path = true)
    (hs : Plain cache.dir home tarball.path machine.disk) (hrooted : machine.disk.Rooted) :
    let after := (cache.extract technology tarball archive).run tool machine
    (after.2.calls = machine.calls ∨
      after.2.disk.Discarded (stagingAt home tarball.path cache.processId)) ∧
    (after.1 = .ok () → ∃ prepared extracted granted published,
      Unpacking cache home tarball archive tool machine prepared extracted granted ∧
        Publishes cache home tarball.path granted (.ok (), published) ∧
          (cache.markComplete tarball.path archive).run tool published = after) := by
  obtain ⟨prepared, hprepared, hprepare⟩ | ⟨context, prepared, hprepare⟩ :=
    run_prepareStaging hname hs hrooted
  swap
  · rw [extract, Action.run_bind, hprepare tool]
    exact ⟨Or.inl rfl, fun hok => absurd hok (by simp)⟩
  rw [run_extract_of_prepared (hprepare tool)]
  let start : Machine := { machine with disk := prepared }
  have hworking : Working cache home tarball.path start.disk := hprepared.working hs
  have hraced : Raced _ _ start.disk
      ((unpack archive (cache.staging tarball.path)).run tool start).2.disk :=
    hworking.unpack_raced htool hname
  cases hunpack : (unpack archive (cache.staging tarball.path)).run tool start with
  | mk result granted =>
      rw [hunpack] at hraced
      have hgranted : Working cache home tarball.path granted.disk := hworking.raced hraced
      cases result with
      | error error =>
          exact ⟨Or.inr (hgranted.discarded_removeDirAll hname), fun hok => absurd hok (by simp)⟩
      | ok =>
          obtain ⟨extracted, hextract, hgrant⟩ := calls_of_unpack hunpack
          have hpublishes : Publishes _ _ _ granted ((cache.publish _).run tool granted) :=
            hgranted.publishes hname
          dsimp only
          rw [Action.run_bind]
          cases hpublish : (cache.publish tarball.path).run tool granted with
          | mk result published =>
              rw [hpublish] at hpublishes
              cases result with
              | error error =>
                  exact ⟨Or.inr (hpublishes.leaves hgranted hname), fun hok => absurd hok (by simp)⟩
              | ok =>
                  have hplain := hpublishes.plain hgranted hname
                  have hmarks := marks_markComplete tool hname hplain archive
                  refine ⟨Or.inr ?_, fun _ => ?_⟩
                  · exact (hpublishes.leaves hgranted hname).congr (hmarks.tree _)
                      (by rw [dropLast_targetAt, permits_congr hmarks.extracted .change])
                  · exact ⟨prepared, extracted, granted, published,
                      ⟨hprepared, hextract, hgrant⟩, hpublishes, rfl⟩

/-- A target that is not seen although its path can be followed is not there. -/
theorem not_isDir_of_missing (hname : isEntryName name = true)
    (hs : Plain cache.dir home name disk) (hrooted : disk.Rooted)
    (hkind : disk.kind? (cache.target name) ≠ some .dir)
    (hr : disk'.Reaches home cache.dir "extracted" name) : ¬ disk.IsDir (targetAt home name) := by
  intro hdir
  have harea : disk.IsDir (extractedAt home) := by
    refine hrooted (extractedAt home) name ?_
    obtain ⟨mode, hmode⟩ := hdir
    rw [extractedAt, List.append_assoc, show disk.get? (home ++ (["extracted"] ++ [name])) = _ from
      hmode]
    simp
  exact hkind ((hs.kind?_target hname).2 ⟨⟨hr.usable, hr.short, harea⟩, hdir⟩)

section

variable {prepared : Disk} {extracted granted published : Machine}

/-- What happens in the course of the two calls. -/
theorem Unpacking.raced
    (h : Unpacking cache home tarball archive tool machine prepared extracted granted)
    (htool : tool.Racing (targetAt home tarball.path)) (hname : isEntryName tarball.path = true)
    (hs : Plain cache.dir home tarball.path machine.disk) :
    Raced (stagingAt home tarball.path cache.processId) (targetAt home tarball.path) prepared
        granted.disk ∧
      granted.calls = machine.calls ++ [.extract archive (cache.staging tarball.path),
        .grantAccess (cache.staging tarball.path)] := by
  let start : Machine := { machine with disk := prepared }
  have hstart : Working cache home tarball.path start.disk := h.ready.working hs
  have hfirst : Raced _ _ start.disk
      (start.perform tool (.tool (.extract archive (cache.staging tarball.path)))).2.disk :=
    hstart.call_raced htool hname rfl
  have hcalls :
      (start.perform tool (.tool (.extract archive (cache.staging tarball.path)))).2.calls = _ :=
    (hstart.call htool hname rfl).1
  rw [show start.perform tool _ = _ from h.extract] at hfirst hcalls
  have hextracted : Working cache home tarball.path extracted.disk := hstart.raced hfirst
  have hsecond : Raced _ _ extracted.disk
      (extracted.perform tool (.tool (.grantAccess (cache.staging tarball.path)))).2.disk :=
    hextracted.call_raced htool hname rfl
  have hcalls' :
      (extracted.perform tool (.tool (.grantAccess (cache.staging tarball.path)))).2.calls = _ :=
    (hextracted.call htool hname rfl).1
  rw [h.grant] at hsecond hcalls'
  refine ⟨hfirst.trans hsecond, ?_⟩
  rw [hcalls', hcalls, List.append_assoc]
  rfl

/-- **What is published of a missing tarball:** the tree that the two calls have left in the staging
directory, or the tree of somebody else who was first. -/
theorem Unpacking.publishes
    (h : Unpacking cache home tarball archive tool machine prepared extracted granted)
    (htool : tool.Racing (targetAt home tarball.path)) (hname : isEntryName tarball.path = true)
    (hs : Plain cache.dir home tarball.path machine.disk) (hrooted : machine.disk.Rooted)
    (hkind : machine.disk.kind? (cache.target tarball.path) ≠ some .dir)
    (hp : Publishes cache home tarball.path granted (.ok (), published)) :
    machine.disk.get? (targetAt home tarball.path) = none ∧
      Plain cache.dir home tarball.path published.disk ∧
      InExtracted cache.dir home tarball.path ⟨published, []⟩ ∧
      published.disk.tree (targetAt home tarball.path) =
        (if granted.disk.get? (targetAt home tarball.path) = none then
          granted.disk.tree (stagingAt home tarball.path cache.processId)
        else granted.disk.tree (targetAt home tarball.path)) ∧
      published.disk.get? (markerAt home tarball.path) =
        machine.disk.get? (markerAt home tarball.path) := by
  obtain ⟨hraced, -⟩ := h.raced htool hname hs
  have hgranted : Working cache home tarball.path granted.disk :=
    (h.ready.working hs).raced hraced
  have hbefore : ∀ rel, prepared.get? (targetAt home tarball.path ++ rel) =
      machine.disk.get? (targetAt home tarball.path ++ rel) := fun rel =>
    h.ready.frame _ (staging_apart home tarball.path cache.processId rel) (by simp)
  have hmissing := fun disk' => @not_isDir_of_missing cache home tarball.path machine.disk disk'
    hname hs hrooted hkind
  -- A target that nobody has published is as it was at first.
  have hsame : granted.disk.tree (targetAt home tarball.path) =
      prepared.tree (targetAt home tarball.path) →
      granted.disk.get? (targetAt home tarball.path) =
        machine.disk.get? (targetAt home tarball.path) := by
    intro htree
    rw [get?_of_tree htree, ← List.append_nil (targetAt home tarball.path), hbefore]
  obtain ⟨htarget, htree⟩ := hp.tree hgranted hname fun hreaches hdir => by
    obtain htree | ⟨-, hfilled⟩ := hraced.published
    · rw [IsDir, hsame htree] at hdir
      exact absurd hdir (hmissing _ hreaches)
    · exact hfilled
  refine ⟨?_, hp.plain hgranted hname, htarget, htree, ?_⟩
  · obtain hnobody | ⟨hnone, -⟩ := hraced.published
    · by_contra hthere
      rw [if_neg (hsame hnobody ▸ hthere)] at htree
      have hdir := htarget.2.of_tree htree.symm
      rw [IsDir, hsame hnobody] at hdir
      exact hmissing _ htarget.1 hdir
    · simpa using (hbefore []).symm.trans (by simpa using hnone)
  · have hstaging : ¬ stagingAt home tarball.path cache.processId <+: markerAt home tarball.path :=
      fun hpre => by simpa using hpre.eq_of_length (by simp)
    have htargetAt : ¬ targetAt home tarball.path <+: markerAt home tarball.path :=
      fun hpre => by simpa using hpre.eq_of_length (by simp)
    rw [hp.frame hgranted hname hstaging htargetAt, hraced.frame _ hstaging htargetAt,
      h.ready.frame _ hstaging (by simp)]

end

/-- After a publishing that went well the tarball is complete, to whoever asks, unless its marker is
a device: there is no record in it then of what was unpacked. -/
theorem Completes.state {after : Machine} (h : Completes cache home tarball.path disk after.disk)
    (hname : isEntryName tarball.path = true)
    (hdevice : disk.get? (markerAt home tarball.path) ≠ some .device) :
    (cache.state tarball).run tool after = (.ok .complete, after) := by
  rw [run_state hname, stateOn_eq_complete h.target (h.marker hdevice)]

/-- **A target that is there** is kept, and the tool is not called. What is in it was published by
an earlier process and is not compared with the archive. -/
theorem adopts_isDir (hname : isEntryName tarball.path = true)
    (hs : Plain cache.dir home tarball.path machine.disk)
    (hkind : machine.disk.kind? (cache.target tarball.path) = some .dir) :
    let outcome := (cache.ensureExtracted technology settings tarball).run tool machine
    Marks home tarball.path machine outcome.2 ∧
      ∀ path, outcome.1 = .ok path → path = cache.target tarball.path ∧
        Completes cache home tarball.path machine.disk outcome.2.disk := by
  intro outcome
  refine ⟨ensureExtracted_of_isDir technology settings tarball hs hkind, ?_⟩
  have hrun : outcome = _ :=
    run_ensureExtracted cache tool machine technology settings tarball hname
  rw [hrun]
  cases technology.baseDir settings tarball.baseVar with
  | error error => exact fun path hok => absurd hok (by simp)
  | ok base =>
      dsimp only
      rw [stateOn, if_pos hkind]
      by_cases hmarker : machine.disk.kind? (cache.marker tarball.path) = some .file
      · rw [if_pos hmarker]
        intro path hok
        exact ⟨(Except.ok.inj hok).symm, hkind, fun _ => hmarker⟩
      · rw [if_neg hmarker, settle, Action.run_bind, Action.run_log]
        dsimp only
        rw [Action.run_bind]
        let log := machine.log ++
          [(Level.debug, "Extracting/verifying tarball " ++ (base.join ⟨tarball.path⟩).text)] ++
          [(Level.debug, "Adopting unmarked extraction of " ++ tarball.path ++ " at " ++
            (cache.target tarball.path).text)]
        have hcompletes := @completes_of_markComplete cache home tarball.path tool
          { machine with log } (base.join ⟨tarball.path⟩) hname hs
          ((hs.kind?_target hname).1 hkind)
        cases hmark : (cache.markComplete tarball.path (base.join ⟨tarball.path⟩)).run tool
            { machine with log } with
        | mk result marked =>
            rw [hmark] at hcompletes
            cases result with
            | error error => exact fun path hok => absurd hok (by simp)
            | ok =>
                intro path hok
                exact ⟨(Except.ok.inj hok).symm, hcompletes rfl⟩

/-- **A missing target** is unpacked and published. This is the one way through the operation on
which the tool is called, and it is called twice. -/
theorem publishes_missing {base : Path} (htool : tool.Racing (targetAt home tarball.path))
    (hname : isEntryName tarball.path = true)
    (hs : Plain cache.dir home tarball.path machine.disk) (hrooted : machine.disk.Rooted)
    (hkind : machine.disk.kind? (cache.target tarball.path) ≠ some .dir)
    (hbase : technology.baseDir settings tarball.baseVar = .ok base) :
    let outcome := (cache.ensureExtracted technology settings tarball).run tool machine
    let staging := cache.staging tarball.path
    (∀ path, outcome.1 = .ok path → path = cache.target tarball.path ∧
      Completes cache home tarball.path machine.disk outcome.2.disk ∧
      machine.disk.get? (targetAt home tarball.path) = none ∧
      ∃ prepared extracted granted,
        Unpacking cache home tarball (base.join ⟨tarball.path⟩) tool
          (machine.announced (base.join ⟨tarball.path⟩)) prepared extracted granted ∧
        outcome.2.calls = machine.calls ++
          [.extract (base.join ⟨tarball.path⟩) staging, .grantAccess staging] ∧
        outcome.2.disk.tree (targetAt home tarball.path) =
          if granted.disk.get? (targetAt home tarball.path) = none then
            granted.disk.tree (stagingAt home tarball.path cache.processId)
          else granted.disk.tree (targetAt home tarball.path)) ∧
    (outcome.2.calls ≠ machine.calls →
      outcome.2.disk.Discarded (stagingAt home tarball.path cache.processId)) := by
  intro outcome staging
  let archive : Path := base.join ⟨tarball.path⟩
  let announced : Machine := machine.announced archive
  have hrun : outcome = _ := run_ensureExtracted_missing hname hbase (if_neg hkind)
  obtain ⟨hunstaged, hextracts⟩ := @run_extract cache home tool announced technology tarball archive
    htool hname hs hrooted
  cases hextract : (cache.extract technology tarball archive).run tool announced with
  | mk result after =>
      rw [hextract] at hunstaged hextracts
      rw [hrun, hextract]
      cases result with
      | error error => exact ⟨nofun, fun hcalls => hunstaged.resolve_left hcalls⟩
      | ok =>
          refine ⟨fun path hok => ⟨(Except.ok.inj hok).symm, ?_⟩,
            fun hcalls => hunstaged.resolve_left hcalls⟩
          obtain ⟨prepared, extracted, granted, published, hunpacking, hpublishes, hmark⟩ :=
            hextracts rfl
          obtain ⟨hnone, hplain, htarget, htree, hmarker⟩ :=
            hunpacking.publishes htool hname hs hrooted hkind hpublishes
          have hmarks := marks_markComplete tool hname hplain archive
          have hcompletes := completes_of_markComplete hname hplain htarget
            (congrArg Prod.fst hmark)
          rw [hmark] at hmarks hcompletes
          refine ⟨⟨hcompletes.target, hmarker ▸ hcompletes.marker⟩, hnone, prepared, extracted,
            granted, hunpacking, ?_, (hmarks.tree _).trans htree⟩
          exact hmarks.calls.trans (hpublishes.calls.trans (hunpacking.raced htool hname hs).2)

/-- **What a successful run publishes.** The cache is a directory without symbolic links, in which a
staging directory and a marker may be left over. The tool changes only what is in the directory it
is called on, though somebody else may publish the target meanwhile. If a run succeeds with a path,
then:

* the path is the tarball's name in `extracted` in the cache, where a directory is, and the tarball
  is complete, unless its marker is a device;
* if a directory was there before, it still has the same tree, and the tool was not called;
* otherwise nothing was there, and the tool was called twice, each time with success: to extract the
  archive from its base directory into the staging directory, which was new and empty then, and to
  grant access to that. The tree at the path is the one that was there after the two calls, or, if
  nothing was, the one that they have made of the empty staging directory.

Once the tool has been called, no staging directory is left that could be removed, whether the run
succeeds or fails. -/
theorem ensureExtracted_publishes (htool : tool.Racing (targetAt home tarball.path))
    (hs : Plain cache.dir home tarball.path machine.disk) (hrooted : machine.disk.Rooted) :
    let outcome := (cache.ensureExtracted technology settings tarball).run tool machine
    let staging := cache.staging tarball.path
    (∀ path, outcome.1 = .ok path →
      path = (cache.dir.join ⟨"extracted"⟩).join ⟨tarball.path⟩ ∧
      outcome.2.disk.kind? path = some .dir ∧
      (machine.disk.get? (markerAt home tarball.path) ≠ some .device →
        (cache.state tarball).run tool outcome.2 = (.ok .complete, outcome.2)) ∧
      (machine.disk.kind? path = some .dir →
        outcome.2.disk.tree (targetAt home tarball.path) =
          machine.disk.tree (targetAt home tarball.path) ∧
        outcome.2.calls = machine.calls) ∧
      (machine.disk.kind? path ≠ some .dir →
        machine.disk.get? (targetAt home tarball.path) = none ∧
        ∃ base prepared extracted granted,
          technology.baseDir settings tarball.baseVar = .ok base ∧
          Unpacking cache home tarball (base.join ⟨tarball.path⟩) tool
            (machine.announced (base.join ⟨tarball.path⟩)) prepared extracted granted ∧
          outcome.2.calls = machine.calls ++
            [.extract (base.join ⟨tarball.path⟩) staging, .grantAccess staging] ∧
          outcome.2.disk.tree (targetAt home tarball.path) =
            if granted.disk.get? (targetAt home tarball.path) = none then
              granted.disk.tree (stagingAt home tarball.path cache.processId)
            else granted.disk.tree (targetAt home tarball.path))) ∧
    (outcome.2.calls ≠ machine.calls →
      (∀ rel, outcome.2.disk.tree (stagingAt home tarball.path cache.processId) rel = none) ∨
        outcome.2.disk.IsDir (stagingAt home tarball.path cache.processId) ∧
          ¬ outcome.2.disk.Removable (stagingAt home tarball.path cache.processId)) := by
  intro outcome staging
  cases hname : isEntryName tarball.path with
  | false =>
      have hrun : outcome = (.error _, machine) :=
        run_ensureExtracted_invalid cache tool machine technology settings tarball hname
      rw [hrun]
      exact ⟨nofun, fun hcalls => absurd rfl hcalls⟩
  | true =>
      by_cases hkind : machine.disk.kind? (cache.target tarball.path) = some .dir
      · obtain ⟨hmarks, hcompletes⟩ := @adopts_isDir cache home tool machine technology settings
          tarball hname hs hkind
        refine ⟨fun path hok => ?_, fun hcalls => absurd hmarks.calls hcalls⟩
        obtain ⟨rfl, hcompletes⟩ := hcompletes path hok
        exact ⟨rfl, hcompletes.target, hcompletes.state hname,
          fun _ => ⟨hmarks.tree _, hmarks.calls⟩, fun hmissing => absurd hkind hmissing⟩
      · cases hbase : technology.baseDir settings tarball.baseVar with
        | error error =>
            have hrun : outcome = (.error error, machine) :=
              (run_ensureExtracted cache tool machine technology settings tarball hname).trans
                (by rw [hbase])
            rw [hrun]
            exact ⟨nofun, fun hcalls => absurd rfl hcalls⟩
        | ok base =>
            obtain ⟨hpublishes, hunstaged⟩ := publishes_missing htool hname hs hrooted hkind hbase
            refine ⟨fun path hok => ?_, hunstaged⟩
            obtain ⟨rfl, hcompletes, hnone, prepared, extracted, granted, hunpacked⟩ :=
              hpublishes path hok
            exact ⟨rfl, hcompletes.target, hcompletes.state hname,
              fun hthere => absurd hthere hkind,
              fun _ => ⟨hnone, base, prepared, extracted, granted, rfl, hunpacked⟩⟩

/-- A tool that puts one file into the directory it is called on, while somebody else publishes the
target, with another file in it. -/
def racedTool (target : Place) (file : String) : Tool := fun call machine =>
  let (result, unpacked) := Tool.unpacking file call machine
  match machine.disk.find true call.dest with
  | .entry place (.dir _) =>
    if machine.disk.get? target = none ∧ ¬ target <+: place then
      (result, { unpacked with
        disk := (unpacked.disk.set target (.dir .newDir)).set (target ++ ["theirs"])
          (.file [] .newFile) })
    else (result, unpacked)
  | _ => (result, unpacked)

/-- The tool that is overtaken keeps to its destination, apart from the target that another process
publishes meanwhile. -/
theorem racing_racedTool {target : Place} (hne : target ≠ []) (file : String) :
    (racedTool target file).Racing target := by
  intro call machine
  obtain ⟨hcalls, hunpacked⟩ := (Tool.confined_unpacking file).racing target call machine
  unfold racedTool
  dsimp only
  split
  · rename_i place mode hfind
    split_ifs with hfree
    · obtain ⟨hnone, hapart⟩ := hfree
      have hdir : machine.disk.IsDir place := ⟨mode, get?_of_find hfind⟩
      have hwithin : Within place machine.disk (Tool.unpacking file call machine).2.disk := by
        obtain hsame | ⟨place', mode', hfind', hwithin⟩ :=
          (Tool.confined_unpacking file call machine).2
        · rw [hsame]
          exact ⟨rfl, fun _ _ => rfl, hdir, hdir⟩
        · obtain rfl := (Found.entry.inj (hfind.symm.trans hfind')).1
          exact hwithin
      exact ⟨hcalls, Or.inr ⟨place, mode, hfind, Or.inr (hwithin.raced_set hnone hne hapart)⟩⟩
    · exact ⟨hcalls, hunpacked⟩
  · exact ⟨hcalls, hunpacked⟩

/-- What the call for `t` ends with when somebody else publishes `t` meanwhile. -/
def racedT : Except Error Path × Machine :=
  ensureT.run (racedTool ["c", "extracted", "t"] "cells") staleCache

/-- The tarball `t`, published by somebody else during the call of the tool, keeps that tree and is
complete, and no staging directory is left. -/
theorem t_published_meanwhile :
    racedT.1 = .ok ⟨"/c/extracted/t"⟩ ∧
      (firstCache.state ⟨"t", "", none⟩).run (racedTool ["c", "extracted", "t"] "cells")
        racedT.2 = (.ok .complete, racedT.2) ∧
      racedT.2.disk.get? ["c", "extracted", "t", "theirs"] = some (.file [] .newFile) ∧
      racedT.2.disk.get? ["c", "extracted", "t", "cells"] = none ∧
      ∀ rel, racedT.2.disk.tree (stagingAt ["c"] "t" 1) rel = none := by
  have hpublishes := @ensureExtracted_publishes firstCache ["c"]
    (racedTool ["c", "extracted", "t"] "cells") staleCache oneTarball {} ⟨"t", "", none⟩
    (racing_racedTool (by simp) "cells") (plain_staleCache "t") rooted_staleCache
  have hok : racedT.1 = .ok ⟨"/c/extracted/t"⟩ := by decide +kernel
  have hcalls : racedT.2.calls ≠ staleCache.calls := by decide +kernel
  have hmarker : staleCache.disk.get? (markerAt ["c"] "t") ≠ some .device := by decide +kernel
  have htheirs : racedT.2.disk.get? ["c", "extracted", "t", "theirs"] =
      some (.file [] .newFile) := by decide +kernel
  have hours : racedT.2.disk.get? ["c", "extracted", "t", "cells"] = none := by decide +kernel
  have hstaging : racedT.2.disk.get? (stagingAt ["c"] "t" 1) = none := by decide +kernel
  unfold racedT ensureT at hok hcalls htheirs hours hstaging ⊢
  obtain ⟨hsuccess, hunstaged⟩ := hpublishes
  obtain ⟨-, -, hcomplete, -, -⟩ := hsuccess _ hok
  refine ⟨hok, hcomplete hmarker, htheirs, hours, (hunstaged hcalls).resolve_right ?_⟩
  rintro ⟨⟨mode, hmode⟩, -⟩
  exact absurd (hstaging.symm.trans hmode) (by simp)

/-- **A device as a marker** keeps nothing of what is written. The tarball `t` is unpacked and
published, and the call gives its path, but the tarball is not complete. -/
theorem t_published_and_incomplete :
    Plain firstCache.dir ["c"] "t" deviceCache.disk ∧ deviceCache.disk.Rooted ∧
      (Tool.unpacking "cells").Racing ["c", "extracted", "t"] ∧
      (ensureT.run (Tool.unpacking "cells") deviceCache).1 = .ok ⟨"/c/extracted/t"⟩ ∧
      ((firstCache.state ⟨"t", "", none⟩).run (Tool.unpacking "cells")
        (ensureT.run (Tool.unpacking "cells") deviceCache).2).1 = .ok .incomplete := by
  refine ⟨plain_deviceCache "t", rooted_deviceCache, (Tool.confined_unpacking "cells").racing _, ?_⟩
  decide +kernel

end Cache
end ProcessKit
