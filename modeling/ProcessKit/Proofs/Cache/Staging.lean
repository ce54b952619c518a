/-
# The staging directory, from an empty one to what the tool leaves

Every unpacking starts from the same place: `Prepared` says what the disk holds once the staging
directory of a tarball is new and empty, and `run_prepareStaging` that preparing it ends there or
with an I/O error. Whatever an earlier process of the same id has left in it is gone. This takes a
disk on which everything is in a directory (`Disk.Rooted`), as it is on every real one.

`Rooted` is needed since the disk is kept as a list of entries, and a list could hold a file below a
place that has no directory. Such a file would turn up in a staging directory that is new. Of a disk
that is given by its entries this is found out by looking at them one by one (`rooted_of_entries`).

From there on the staging directory is worked in. `Working` is what holds all the while: the cache
is plain, and the directory is there and can be reached. A call of a confined tool keeps it
(`Working.call`), and so do both of them (`Working.unpack`). What a removal of the directory comes
to is taken over from the protocol of the cache (`Working.discards`).
-/

import Mathlib.Data.List.Induction
import ProcessKit.Proofs.Cache.Sequence
import ProcessKit.Proofs.Host.Asking

namespace ProcessKit

namespace Disk

variable {disk : Disk} {place : Place}

/-- Whatever is on the disk is in a directory. -/
def Rooted (disk : Disk) : Prop :=
  ∀ place name, disk.get? (place ++ [name]) ≠ none → disk.IsDir place

/-- Below a free place there is nothing. -/
theorem Rooted.tree_eq_none (h : disk.Rooted) (hnone : disk.get? place = none) (rel : Place) :
    disk.tree place rel = none := by
  induction rel using List.reverseRecOn with
  | nil => rw [tree, List.append_nil, hnone]
  | append_singleton rel x ih =>
      by_contra hthere
      rw [tree, ← List.append_assoc] at hthere
      obtain ⟨mode, hmode⟩ := h _ _ hthere
      rw [tree, hmode] at ih
      exact absurd ih (by simp)

/-- A disk is rooted when each of its entries is in a directory. -/
theorem rooted_of_entries (h : ∀ item ∈ disk.entries, disk.IsDir item.1.dropLast) :
    disk.Rooted := by
  intro place name hthere
  rw [get?_of_ne (by simp)] at hthere
  obtain ⟨e, he⟩ := Option.ne_none_iff_exists'.1 hthere
  obtain ⟨front, rest, hentries, -⟩ := List.lookup_eq_some_iff.1 he
  have hmem : (place ++ [name], e) ∈ disk.entries := by
    rw [hentries]
    exact List.mem_append_right front List.mem_cons_self
  have hdir : disk.IsDir (place ++ [name]).dropLast := h _ hmem
  rwa [List.dropLast_concat] at hdir

/-- Whether a place is a symbolic link depends only on the entry there. -/
theorem Unlinked.of_eq {disk' : Disk} (h : disk.Unlinked place)
    (heq : disk'.get? place = disk.get? place) : disk'.Unlinked place := by
  rw [Unlinked, heq]
  exact h

/-- The tree of a new directory with nothing in it. -/
def newTree : Place → Option Entry := fun rel => if rel = [] then some (.dir .newDir) else none

end Disk

/-- What a tool does to the directory it is called on, if it does anything. -/
def Tool.Does (R : Place → Disk → Disk → Prop) (tool : Tool) : Prop :=
  ∀ call machine, (tool call machine).2.calls = machine.calls ∧
    ((tool call machine).2.disk = machine.disk ∨
      ∃ place mode, machine.disk.find true call.dest = .entry place (.dir mode) ∧
        R place machine.disk (tool call machine).2.disk)

/-- A confined tool is one that does no more than change what is within its destination. -/
theorem Tool.Confined.does {tool : Tool} (h : tool.Confined) : tool.Does Disk.Within := h

/-- The machine on which making sure of an archive has been announced. -/
def Machine.announced (machine : Machine) (archive : Path) : Machine :=
  { machine with log := machine.log ++
    [(.debug, "Extracting/verifying tarball " ++ archive.text)] }

namespace Cache

open Disk

variable {cache : Cache} {home : Place} {name : String} {tool : Tool} {machine : Machine}
  {disk disk' : Disk}

/-- **What is done about a missing tarball:** it is unpacked, once its name has been checked and its
base directory determined, and a line has been logged. -/
theorem run_ensureExtracted_missing {technology : Technology} {settings : Settings}
    {tarball : Tarball} {base : Path} (hname : isEntryName tarball.path = true)
    (hbase : technology.baseDir settings tarball.baseVar = .ok base)
    (hstate : cache.stateOn tarball.path machine.disk = .missing) :
    (cache.ensureExtracted technology settings tarball).run tool machine =
      match (cache.extract technology tarball (base.join ⟨tarball.path⟩)).run tool
        (machine.announced (base.join ⟨tarball.path⟩)) with
      | (.ok (), machine) => (.ok (cache.target tarball.path), { machine with
          log := machine.log ++ [(.info, "Extracted " ++ (base.join ⟨tarball.path⟩).text ++
            " into " ++ (cache.target tarball.path).text)] })
      | (.error error, machine) => (.error error, machine) := by
  rw [run_ensureExtracted cache tool machine technology settings tarball hname, hbase]
  dsimp only
  rw [hstate, settle, Action.run_bind, Machine.announced]
  cases (cache.extract technology tarball (base.join ⟨tarball.path⟩)).run tool _ with
  | mk result machine => cases result <;> rfl

/-- **What becomes of a tarball once its staging directory is prepared:** where the tool fails, the
staging directory is removed as far as that is possible; otherwise it is published and the tarball
is marked. -/
theorem run_extract_of_prepared {technology : Technology} {tarball : Tarball} {archive : Path}
    {start : Machine}
    (hprepare : (cache.prepareStaging tarball.path).run tool machine = (.ok (), start)) :
    (cache.extract technology tarball archive).run tool machine =
      match (unpack archive (cache.staging tarball.path)).run tool start with
      | (.error error, worked) => (.error (error.attribute technology tarball), { worked with
          disk := (worked.disk.removeDirAll (cache.staging tarball.path)).2 })
      | (.ok (), granted) => (cache.publish tarball.path >>= fun _ =>
          cache.markComplete tarball.path archive).run tool granted := by
  rw [extract, Action.run_bind, hprepare]
  dsimp only
  rw [Action.run_bind, Action.run_attempt]
  cases (unpack archive (cache.staging tarball.path)).run tool start with
  | mk result worked => cases result <;> rfl

/-- When no removal is refused while a missing tarball is made sure of, none is while it is
unpacked. -/
theorem removesAll_extract {technology : Technology} {settings : Settings} {tarball : Tarball}
    {base : Path} (hname : isEntryName tarball.path = true)
    (hbase : technology.baseDir settings tarball.baseVar = .ok base)
    (hstate : cache.stateOn tarball.path machine.disk = .missing)
    (h : (cache.ensureExtracted technology settings tarball).RemovesAll tool machine) :
    (cache.extract technology tarball (base.join ⟨tarball.path⟩)).RemovesAll tool
      (machine.announced (base.join ⟨tarball.path⟩)) := by
  rw [ensureExtracted, targetDir_eq, if_pos hname, hbase] at h
  have hlogged := ((h.right (Action.run_ofExcept _)).right (Action.run_ofExcept _)).right
    (Action.run_log _ _)
  have hmissing := hlogged.right (run_stateOf cache tarball.path)
  rw [show cache.stateOn tarball.path _ = .missing from hstate] at hmissing
  exact hmissing.left

/-- **What the tool finds:** the staging directory of a tarball is new and empty, `extracted` is
there, and everything else is as it was before. -/
structure Prepared (cache : Cache) (home : Place) (name : String) (disk disk' : Disk) : Prop where
  current : disk'.current = disk.current
  staging : disk'.tree (stagingAt home name cache.processId) = newTree
  extracted : disk'.get? (extractedAt home) =
    some ((disk.get? (extractedAt home)).getD (.dir .newDir))
  frame : ∀ p, ¬ stagingAt home name cache.processId <+: p → p ≠ extractedAt home →
    disk'.get? p = disk.get? p
  reaches : disk'.Reaches home cache.dir "extracted" (stagingName name cache.processId)

/-- A change inside the cache that makes no symbolic link where tarballs are unpacked and marked. -/
theorem Plain.congr {dir : Path} (h : Plain dir home name disk)
    (hagree : AgreeOutside home disk disk')
    (hshallow : ∀ p, p.length ≤ home.length + 2 → disk.Unlinked p → disk'.Unlinked p) :
    Plain dir home name disk' :=
  ⟨h.leads.congr hagree, hshallow _ (by simp) h.extracted, hshallow _ (by simp) h.markers,
    hshallow _ (by simp) h.target, fun processId => hshallow _ (by simp) (h.staging processId),
    hshallow _ (by simp) h.marker⟩

/-- A disk on which a tarball can be unpacked: its staging directory is there. -/
structure Working (cache : Cache) (home : Place) (name : String) (disk : Disk) : Prop where
  plain : Plain cache.dir home name disk
  reaches : disk.Reaches home cache.dir "extracted" (stagingName name cache.processId)
  isDir : disk.IsDir (stagingAt home name cache.processId)

/-- Preparing makes no symbolic link. -/
theorem Prepared.working (h : Prepared cache home name disk disk')
    (hs : Plain cache.dir home name disk) : Working cache home name disk' := by
  have hisDir : disk'.IsDir (stagingAt home name cache.processId) := by
    have hroot := congrFun h.staging []
    rw [tree_nil] at hroot
    exact ⟨.newDir, hroot⟩
  refine ⟨hs.congr ⟨h.current, fun p hp => h.frame p (fun hpre => hp ?_) ?_⟩ fun p hp hl => ?_,
    h.reaches, hisDir⟩
  · exact (below_targetAt home _).extend hpre
  · rintro rfl
    exact hp (below_extractedAt home)
  · by_cases hx : p = extractedAt home
    · exact hx ▸ h.reaches.area.unlinked
    by_cases hp' : stagingAt home name cache.processId <+: p
    · exact eq_of_prefix_of_shallow hp hp' ▸ hisDir.unlinked
    · exact hl.of_eq (h.frame p hp' hx)

/-- A disk on which there is nothing at and below the staging directory, and which may be given
one. -/
theorem prepared_of_createDirAll (hname : isEntryName name = true)
    (hs : Plain cache.dir home name disk)
    (hfree : ∀ rel, disk.tree (stagingAt home name cache.processId) rel = none)
    (hok : disk.createDirAll (cache.staging name) = (true, disk')) :
    Prepared cache home name disk disk' := by
  have hnone : disk.get? (stagingAt home name cache.processId) = none := by
    rw [← hfree [], tree, List.append_nil]
  obtain ⟨hcurrent, hget, hreaches⟩ := createDirAll_new hs.hasExtracted
    (isEntryName_stagingName hname cache.processId) hnone hok
  refine ⟨hcurrent, funext fun rel => ?_, ?_, fun p hp hne => ?_, hreaches⟩
  · rw [tree, hget, withNewDir, newTree]
    by_cases hrel : rel = []
    · rw [hrel, List.append_nil, if_pos rfl, if_pos rfl]
    · rw [if_neg (by simpa using hrel), if_neg (by simp), if_neg hrel]
      exact hfree rel
  · rw [hget, withNewDir, if_neg (by simp), if_pos rfl]
  · rw [hget, withNewDir, if_neg, if_neg hne]
    rintro rfl
    exact hp (List.prefix_refl _)

/-- Where nothing is seen at the staging directory and one can be made, there is nothing. -/
theorem free_of_createDirAll (hname : isEntryName name = true)
    (hs : Plain cache.dir home name disk) (hrooted : disk.Rooted)
    (hkind : disk.kind? (cache.staging name) = none)
    (hok : disk.createDirAll (cache.staging name) = (true, disk')) (rel : Place) :
    disk.tree (stagingAt home name cache.processId) rel = none := by
  have hstaging := isEntryName_stagingName hname cache.processId
  have hl := hs.staging cache.processId
  refine hrooted.tree_eq_none ?_ rel
  by_contra hthere
  have harea : disk.IsDir (extractedAt home) :=
    hrooted (extractedAt home) (stagingName name cache.processId) (by simpa using hthere)
  obtain ⟨disk₁, hmade, hwithin⟩ := createDirAll_entryPath hs.hasExtracted hstaging hl
  obtain ⟨hseen, rfl⟩ := Prod.mk.inj (hok.symm.trans hmade)
  have hc : Change home name cache.processId (fun _ => False) disk disk' := .prepare hwithin
  have hs' := hc.plain hs
  have hreaches' := ((kind?_eq_dir_iff hs'.hasExtracted hstaging (hs'.staging _)).1
    (of_decide_eq_true hseen.symm)).1
  have hreaches : disk.Reaches home cache.dir "extracted" (stagingName name cache.processId) :=
    ⟨hreaches'.usable, hreaches'.short, harea⟩
  obtain ⟨e, he⟩ := Option.ne_none_iff_exists'.1 hthere
  rw [show cache.staging name = entryPath cache.dir "extracted" _ from rfl,
    kind?_of_reaches hs.hasExtracted hstaging hreaches hl, he] at hkind
  cases e <;> exact absurd hkind (by simp)

/-- What is at the staging directory before it is prepared does not matter. -/
theorem Prepared.of_eraseTree
    (h : Prepared cache home name (disk.eraseTree (stagingAt home name cache.processId)) disk') :
    Prepared cache home name disk disk' := by
  have herased := @get?_eraseTree disk _ (ne_nil_of_below (below_targetAt home
    (stagingName name cache.processId)))
  refine ⟨h.current, h.staging, ?_, fun p hp hne => ?_, h.reaches⟩
  · rw [h.extracted, herased, if_neg]
    exact fun hpre => by simpa using hpre.length_le
  · rw [h.frame p hp hne, herased, if_neg hp]

/-- Making the staging directory where there is none. -/
theorem run_createStaging (hname : isEntryName name = true)
    (hs : Plain cache.dir home name machine.disk)
    (hfree : ∀ disk', machine.disk.createDirAll (cache.staging name) = (true, disk') →
      ∀ rel, machine.disk.tree (stagingAt home name cache.processId) rel = none)
    (context : String) :
    (∃ disk', Prepared cache home name machine.disk disk' ∧ ∀ tool,
      (Action.createDirAll (cache.staging name) context).run tool machine =
        (.ok (), { machine with disk := disk' })) ∨
    ∃ disk', ∀ tool, (Action.createDirAll (cache.staging name) context).run tool machine =
      (.error (.io context), { machine with disk := disk' }) := by
  cases hmade : machine.disk.createDirAll (cache.staging name) with
  | mk made disk' =>
      cases made with
      | true =>
          refine Or.inl ⟨disk', prepared_of_createDirAll hname hs (hfree disk' hmade) hmade, ?_⟩
          intro tool
          rw [Action.run_createDirAll, hmade]
          rfl
      | false =>
          refine Or.inr ⟨disk', fun tool => ?_⟩
          rw [Action.run_createDirAll, hmade]
          rfl

/-- **Preparing the staging directory** ends with a new and empty one or fails with an I/O error,
whatever the tool is. -/
theorem run_prepareStaging (hname : isEntryName name = true)
    (hs : Plain cache.dir home name machine.disk) (hrooted : machine.disk.Rooted) :
    (∃ disk', Prepared cache home name machine.disk disk' ∧ ∀ tool,
      (cache.prepareStaging name).run tool machine = (.ok (), { machine with disk := disk' })) ∨
    ∃ context disk', ∀ tool, (cache.prepareStaging name).run tool machine =
      (.error (.io context), { machine with disk := disk' }) := by
  have hcreate := fun machine => @run_createStaging cache home name machine
  cases hkind : machine.disk.kind? (cache.staging name) with
  | none =>
      have hrun : ∀ tool, (cache.prepareStaging name).run tool machine =
          (Action.createDirAll (cache.staging name)
            ("creating " ++ (cache.staging name).text)).run tool machine := by
        intro tool
        rw [prepareStaging, Action.run_bind, Action.run_pathExists, hkind]
        rfl
      simp only [hrun]
      obtain hok | ⟨disk', herror⟩ := hcreate machine hname hs
        (fun _ => free_of_createDirAll hname hs hrooted hkind) _
      · exact Or.inl hok
      · exact Or.inr ⟨_, disk', herror⟩
  | some kind =>
      have hrun : ∀ tool, (cache.prepareStaging name).run tool machine =
          (Action.removeDirAll (cache.staging name)
            ("removing stale staging " ++ (cache.staging name).text) >>= fun _ =>
              Action.createDirAll (cache.staging name)
                ("creating " ++ (cache.staging name).text)).run tool machine := by
        intro tool
        rw [prepareStaging, Action.run_bind, Action.run_pathExists, hkind]
        rfl
      simp only [hrun, Action.run_bind, Action.run_removeDirAll]
      have hdiscards := hs.discards hname cache.processId
      cases hremoved : machine.disk.removeDirAll (cache.staging name) with
      | mk removed disk₀ =>
          rw [show machine.disk.removeDirAll (stagingPath cache.dir name cache.processId) = _ from
            hremoved] at hdiscards
          cases hdiscards with
          | refused => exact Or.inr ⟨_, disk₀, fun _ => rfl⟩
          | gone =>
              have hc : Change home name cache.processId (fun _ => False) machine.disk
                  (machine.disk.eraseTree (stagingAt home name cache.processId)) := .discard
              have hfree : ∀ rel, (machine.disk.eraseTree
                  (stagingAt home name cache.processId)).tree
                    (stagingAt home name cache.processId) rel = none := by
                intro rel
                rw [tree, get?_eraseTree (ne_nil_of_below (below_targetAt home _)),
                  if_pos (List.prefix_append _ rel)]
              obtain ⟨disk', hprepared, hok⟩ | ⟨disk', herror⟩ := hcreate
                { machine with
                  disk := machine.disk.eraseTree (stagingAt home name cache.processId) }
                hname (hc.plain hs) (fun _ _ => hfree) ("creating " ++ (cache.staging name).text)
              · exact Or.inl ⟨disk', hprepared.of_eraseTree, hok⟩
              · exact Or.inr ⟨_, disk', herror⟩

/-- **Preparing the staging directory succeeds** where its path can be followed to nothing. There is
nothing to be removed then, and making it has all that it needs. -/
theorem run_prepareStaging_of_reaches (hname : isEntryName name = true)
    (hs : Plain cache.dir home name machine.disk)
    (hreaches : machine.disk.Reaches home cache.dir "extracted" (stagingName name cache.processId))
    (hfree : ∀ rel, machine.disk.tree (stagingAt home name cache.processId) rel = none) :
    ∃ disk', Prepared cache home name machine.disk disk' ∧ ∀ tool,
      (cache.prepareStaging name).run tool machine = (.ok (), { machine with disk := disk' }) := by
  have hstaging := isEntryName_stagingName hname cache.processId
  have hnone : machine.disk.get? (stagingAt home name cache.processId) = none := by
    rw [← hfree [], tree, List.append_nil]
  have hkind : machine.disk.kind? (cache.staging name) = none := by
    refine (kind?_of_reaches hs.hasExtracted hstaging hreaches (hs.staging _)).trans ?_
    rw [hnone]
  have hmade : machine.disk.createDirAll (cache.staging name) =
      (true, machine.disk.set (stagingAt home name cache.processId) (.dir .newDir)) :=
    createDirAll_of_reaches hs.hasExtracted hstaging hreaches hnone
  refine ⟨_, prepared_of_createDirAll hname hs hfree hmade, fun tool => ?_⟩
  rw [prepareStaging, Action.run_bind, Action.run_pathExists, hkind]
  exact (Action.run_createDirAll _ _).trans (by rw [hmade]; rfl)

/-- The staging directory is where its path leads. -/
theorem Working.find (h : Working cache home name disk) (hname : isEntryName name = true) :
    ∃ mode, disk.find true (cache.staging name) =
      .entry (stagingAt home name cache.processId) (.dir mode) := by
  obtain ⟨mode, hmode⟩ := h.isDir
  have hfind := find_of_reaches h.plain.hasExtracted
    (isEntryName_stagingName hname cache.processId) h.reaches true fun _ => h.plain.staging _
  refine ⟨mode, hfind.trans ?_⟩
  rw [hmode]

/-- Work in the staging directory leaves it there. -/
theorem Working.within (h : Working cache home name disk)
    (hw : Within (stagingAt home name cache.processId) disk disk') :
    Working cache home name disk' := by
  have hbelow := below_targetAt home (stagingName name cache.processId)
  have hsame : ∀ p, ¬ stagingAt home name cache.processId <+: p → disk'.get? p = disk.get? p :=
    hw.get?
  have harea : disk'.IsDir (extractedAt home) := by
    rw [IsDir, hsame _ fun hpre => by simpa using hpre.length_le]
    exact h.reaches.area
  refine ⟨h.plain.congr (hw.agreeOutside hbelow) fun p hp hl => ?_, h.reaches.congr harea,
    hw.isDir'⟩
  by_cases hpre : stagingAt home name cache.processId <+: p
  · exact eq_of_prefix_of_shallow hp hpre ▸ hw.isDir'.unlinked
  · exact hl.of_eq (hsame p hpre)

/-- What removing the staging directory that was worked in comes to. -/
theorem Working.discards (h : Working cache home name disk) (hname : isEntryName name = true) :
    Discards cache.dir home name cache.processId disk (disk.removeDirAll (cache.staging name)) :=
  h.plain.discards hname cache.processId

/-- Nothing is left of the staging directory that was worked in, or what cannot be removed. -/
theorem Working.discarded_removeDirAll (h : Working cache home name disk)
    (hname : isEntryName name = true) :
    (disk.removeDirAll (cache.staging name)).2.Discarded (stagingAt home name cache.processId) :=
  (h.discards hname).discarded h.reaches h.isDir

/-! ### The two calls of the tool -/

/-- **Calling the tool for the staging directory** is what the tool does to that directory. A tool
is confined by the path that it is called with, and this path leads to the place of the staging
directory. -/
theorem Working.call {R : Place → Disk → Disk → Prop} (h : Working cache home name machine.disk)
    (htool : tool.Does R) (hname : isEntryName name = true) {call : ToolCall}
    (hdest : call.dest = cache.staging name) :
    (machine.perform tool (.tool call)).2.calls = machine.calls ++ [call] ∧
      ((machine.perform tool (.tool call)).2.disk = machine.disk ∨
        R (stagingAt home name cache.processId) machine.disk
          (machine.perform tool (.tool call)).2.disk) := by
  obtain ⟨hcalls, hsame | ⟨place, mode, hfind, hwork⟩⟩ :=
    htool call { machine with calls := machine.calls ++ [call] }
  · exact ⟨hcalls, Or.inl hsame⟩
  · obtain ⟨mode', hstaging⟩ := h.find hname
    rw [hdest] at hfind
    obtain rfl := (Found.entry.inj (hstaging.symm.trans hfind)).1
    exact ⟨hcalls, Or.inr hwork⟩

/-- **What each of the two calls does, unpacking does,** whether it fails or not, given that two
such things in a row are one and that the directory is still there in between. -/
theorem Working.unpack {R : Disk → Disk → Prop} {archive : Path}
    (hcall : ∀ {machine : Machine} {call : ToolCall}, Working cache home name machine.disk →
      call.dest = cache.staging name → R machine.disk (machine.perform tool (.tool call)).2.disk)
    (hkeeps : ∀ {disk disk' : Disk}, Working cache home name disk → R disk disk' →
      Working cache home name disk')
    (htrans : ∀ {disk disk' disk'' : Disk}, R disk disk' → R disk' disk'' → R disk disk'')
    (h : Working cache home name machine.disk) :
    R machine.disk ((unpack archive (cache.staging name)).run tool machine).2.disk := by
  have hextract : R machine.disk
      (machine.perform tool (.tool (.extract archive (cache.staging name)))).2.disk := hcall h rfl
  rw [Cache.unpack, Action.run_bind, Action.run_callTool]
  cases hrun : machine.perform tool (.tool (.extract archive (cache.staging name))) with
  | mk result next =>
      rw [hrun] at hextract
      cases result with
      | error error => exact hextract
      | ok =>
          dsimp only
          rw [Action.run_callTool]
          exact htrans hextract (hcall (hkeeps h hextract) rfl)

/-- Work in the staging directory that leaves everything as it is. -/
theorem Working.refl (h : Working cache home name disk) :
    Within (stagingAt home name cache.processId) disk disk :=
  ⟨rfl, fun _ _ => rfl, h.isDir, h.isDir⟩

/-! ### A cache with something left in it -/

/-- A machine with the cache `/c`, in which process 1 has left a staging directory of `t` with a
file in it. -/
def staleCache : Machine :=
  { disk := ⟨[(["c"], .dir .newDir), (["c", "extracted"], .dir .newDir),
      (["c", "extracted", ".t.partial-1"], .dir .newDir),
      (["c", "extracted", ".t.partial-1", "old"], .file [] .newFile)], []⟩ }

/-- The cache in which a staging directory was left behind has no symbolic link in it. -/
theorem plain_staleCache (name : String) : Plain ⟨"/c"⟩ ["c"] name staleCache.disk := by
  refine plain_of_unlinked ?_ fun _ _ => unlinked_of_entries (by simp [staleCache]) _
  exact (leadsTo_root _).join (show isEntryName "c" = true by decide) (by decide) ⟨.newDir, rfl⟩

/-- Every entry of that cache is in a directory: the root, the cache, and the directory of the
trees. -/
theorem rooted_staleCache : staleCache.disk.Rooted := by
  refine rooted_of_entries fun item hitem => ?_
  obtain rfl | rfl | rfl | rfl : item = (["c"], .dir .newDir) ∨
      item = (["c", "extracted"], .dir .newDir) ∨
      item = (["c", "extracted", ".t.partial-1"], .dir .newDir) ∨
      item = (["c", "extracted", ".t.partial-1", "old"], .file [] .newFile) := by
    simpa [staleCache] using hitem
  · exact ⟨_, rfl⟩
  · exact ⟨_, rfl⟩
  · exact ⟨_, rfl⟩
  · exact ⟨_, rfl⟩

/-- Every entry of the cache whose marker is a device is in a directory, the device too. -/
theorem rooted_deviceCache : deviceCache.disk.Rooted := by
  refine rooted_of_entries fun item hitem => ?_
  obtain rfl | rfl | rfl : item = (["c"], .dir .newDir) ∨
      item = (["c", "markers"], .dir .newDir) ∨
      item = (["c", "markers", "t.complete"], .device) := by
    simpa [deviceCache] using hitem
  · exact ⟨_, rfl⟩
  · exact ⟨_, rfl⟩
  · exact ⟨_, rfl⟩

/-- The call for the tarball `t` that the cache `/c` gets. -/
def ensureT : Action Path := firstCache.ensureExtracted oneTarball {} ⟨"t", "", none⟩

end Cache
end ProcessKit
