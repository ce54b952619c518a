/-
# Unpacking is safe

Whatever other processes do within the protocol of a cache, a process that makes sure that a tarball
is unpacked keeps to it too, and when it succeeds the target is there and marked
(`safe_ensureExtracted`). There is one lemma for each part of the unpacking, in the order in which
they are put together.

Each lemma says what the process knows before the part and what it knows after it, in the terms of
the protocol: first nothing, then that its staging directory is there and empty, that the archive
was unpacked in it, that all of it may be accessed, that the target is there, and that it is marked.
The parts are joined by the rules of `Safe`, which carry the knowledge over and see to it that the
other processes cannot spoil it on the way.

`Ensured` is what a successful end means to everybody else: nobody spoils it (`lasting_ensured`),
and whoever looks finds it so (`Ensured.seen`), unless the marker is a device, which nobody can tell
apart from a missing one by looking for a file.
-/

import ProcessKit.Cache.Extraction
import ProcessKit.Proofs.Cache.Requests

namespace ProcessKit
namespace Cache

open Disk

variable {dir : Path} {home : Place} {name : String} {processId : Nat} {s : Shared}

/-- Looking whether a path leads anywhere. -/
theorem safe_pathExists {path : Path} {K : Shared → Prop}
    (hK : (protocol dir home name).Stable processId K)
    (hs : (protocol dir home name).Sound s) (hk : K s) :
    Safe (protocol dir home name) processId (Ends (fun _ => K) fun _ => False)
      (Action.pathExists path) s :=
  Safe.bind_answer hs (safe_kind .dir (Protocol.stable_true _ _) hK (fun _ _ _ => trivial) hs hk)
    fun _ _ hs' h => Safe.pure hK hs' h.1

/-- Looking whether the target is there. -/
theorem safe_isDir_target (hname : isEntryName name = true) {K : Shared → Prop}
    (hK : (protocol dir home name).Stable processId K)
    (hs : (protocol dir home name).Sound s) (hk : K s) :
    Safe (protocol dir home name) processId
      (Ends (fun there s => K s ∧ (there = true → InExtracted dir home name s)) fun _ => False)
      (Action.isDir ((Cache.mk dir processId).target name)) s := by
  have hT := (lasting_target : (protocol dir home name).Lasting _).stable processId
  refine Safe.bind_answer hs (safe_kind .dir hT hK (fun s hs hkind => ?_) hs hk) ?_
  · exact (kind?_eq_dir_iff hs.hasExtracted hname hs.target).1 hkind
  · refine fun kind s' hs' h => Safe.pure (hK.and (hT.imp _)) hs' ⟨h.1, fun hb => h.2 ?_⟩
    rw [eq_of_beq hb]

/-- Looking whether the marker is there. -/
theorem safe_isFile_marker (hname : isEntryName name = true)
    (hs : (protocol dir home name).Sound s) :
    Safe (protocol dir home name) processId
      (Ends (fun there s => there = true → Marked dir home name s) fun _ => False)
      (Action.isFile ((Cache.mk dir processId).marker name)) s := by
  have hM := (lasting_marked : (protocol dir home name).Lasting _).stable processId
  refine Safe.bind_answer hs
    (safe_kind .file hM (Protocol.stable_true _ _) (fun s hs hkind => ?_) hs trivial) ?_
  · obtain ⟨hr, hf⟩ :=
      (kind?_eq_file_iff hs.hasMarkers (isEntryName_marker hname) hs.marker).1 hkind
    exact ⟨hr, Or.inl hf⟩
  · refine fun kind s' hs' h => Safe.pure (hM.imp _) hs' fun hb => h.2 ?_
    rw [eq_of_beq hb]

/-- Removing the staging directory if that is possible. -/
theorem safe_tryRemoveDirAll (hname : isEntryName name = true)
    (hs : (protocol dir home name).Sound s)
    (hd : Staged dir home name processId s) :
    Safe (protocol dir home name) processId
      (Ends (fun _ s => Unstaged home name processId s) fun _ => False)
      (Action.tryRemoveDirAll (stagingPath dir name processId)) s :=
  Safe.bind_answer hs (safe_removeDirAll hname True hs fun _ => hd.1)
    fun _ _ hs' h => Safe.pure stable_unstaged hs' (h trivial)

/-- **An empty staging directory.** When it cannot be had, none is left behind that could be
removed: making it has failed, or the old one was refused. -/
theorem safe_prepareStaging (hname : isEntryName name = true) (reached : Prop)
    (hs : (protocol dir home name).Sound s)
    (hr : reached → s.machine.disk.Reaches home dir "extracted" (stagingName name processId)) :
    Safe (protocol dir home name) processId
      (Ends (fun _ => Staged dir home name processId)
        fun s => reached → Unstaged home name processId s)
      ((Cache.mk dir processId).prepareStaging name) s := by
  have hR := (lasting_reaches "extracted" (stagingName name processId) :
    (protocol dir home name).Lasting _).imp reached
  have hN := (stable_unstaged : (protocol dir home name).Stable processId _).imp reached
  have hcreate : ∀ s, (protocol dir home name).Sound s →
      (reached → s.machine.disk.Reaches home dir "extracted" (stagingName name processId)) →
      Safe (protocol dir home name) processId
        (Ends (fun _ => Staged dir home name processId)
          fun s => reached → Unstaged home name processId s)
        (Action.createDirAll (stagingPath dir name processId)
          ("creating " ++ (stagingPath dir name processId).text)) s := by
    intro s hs hr
    unfold Action.createDirAll
    exact Safe.orFail stable_staged hN hs (safe_createStaging hname reached hs hr)
      (fun _ _ h => h.1 rfl) fun _ _ h => h.2 rfl
  have hremove : ∀ s, (protocol dir home name).Sound s →
      (reached → s.machine.disk.Reaches home dir "extracted" (stagingName name processId)) →
      Safe (protocol dir home name) processId
        (Ends (fun _ s => reached →
            s.machine.disk.Reaches home dir "extracted" (stagingName name processId))
          fun s => reached → Unstaged home name processId s)
        (Action.removeDirAll (stagingPath dir name processId)
          ("removing stale staging " ++ (stagingPath dir name processId).text)) s := by
    intro s hs hr
    unfold Action.removeDirAll
    exact Safe.orFail (hR.stable _) hN hs
      ((safe_removeDirAll hname reached hs hr).and_lasting hR hs hr)
      (fun _ _ h => h.2) fun _ _ h => h.1
  refine Safe.bind_answer hs (safe_pathExists (hR.stable _) hs hr) fun there s hs hr => ?_
  cases there with
  | false => exact hcreate s hs hr
  | true => exact Safe.bind hs (hremove s hs hr) (fun _ s hs hr => hcreate s hs hr) fun _ _ _ h => h

/-- **Both calls of the tool.** The staging directory stays, and holds an unpacked tree when they
went well. -/
theorem safe_unpack (hname : isEntryName name = true) (archive : Path)
    (hs : (protocol dir home name).Sound s) (hd : Staged dir home name processId s) :
    Safe (protocol dir home name) processId
      (Ends (fun _ s => Staged dir home name processId s ∧ Ready dir home name processId s)
        (Staged dir home name processId))
      (unpack archive (stagingPath dir name processId)) s := by
  have hextract : Safe (protocol dir home name) processId
      (Ends (fun _ s => Staged dir home name processId s ∧
          Extracted (stagingPath dir name processId) processId s.returned)
        (Staged dir home name processId))
      (Action.callTool (.extract archive (stagingPath dir name processId))) s := by
    refine Safe.bind_answer hs (safe_callExtract hname archive hs hd) fun result s hs h => ?_
    cases result with
    | ok =>
        exact Safe.ofExcept (stable_staged.and (stable_extracted _)) hs ⟨h.1, h.2 rfl⟩
    | error => exact Safe.ofExcept stable_staged hs h.1
  refine Safe.bind hs hextract (fun _ s hs h => ?_) fun _ _ _ h => h
  refine Safe.bind_answer hs (safe_callGrant hname hs h.1 h.2) fun result s hs h => ?_
  cases result with
  | ok => exact Safe.ofExcept (stable_staged.and stable_ready) hs ⟨h.1, h.2 rfl⟩
  | error => exact Safe.ofExcept stable_staged hs h.1

/-- **Publishing** leaves no staging directory that could be removed, and the target is there when
it went well. If the rename was refused because somebody else has published, their target will do.
-/
theorem safe_publish (hname : isEntryName name = true)
    (hs : (protocol dir home name).Sound s) (hd : Staged dir home name processId s)
    (hu : Ready dir home name processId s) :
    Safe (protocol dir home name) processId
      (Ends (fun _ s => InExtracted dir home name s ∧ Unstaged home name processId s)
        (Unstaged home name processId))
      ((Cache.mk dir processId).publish name) s := by
  have hT := (lasting_target : (protocol dir home name).Lasting _)
  have hTU := (hT.stable processId).and stable_unstaged
  refine Safe.bind_answer hs (safe_rename hname hs hd hu) fun moved s hs h => ?_
  cases moved with
  | true => exact Safe.pure hTU hs (h.1 rfl)
  | false =>
      have hd : Staged dir home name processId s := h.2 rfl
      refine Safe.bind_answer hs (safe_isDir_target hname stable_staged hs hd)
        fun there s hs h => ?_
      cases there with
      | true =>
          refine Safe.bind_answer hs
            ((safe_log stable_staged (fun _ _ h => h) hs h.1).and_lasting hT hs (h.2 rfl))
            fun _ s hs h => ?_
          exact Safe.mono hs ((safe_tryRemoveDirAll hname hs h.1).and_lasting hT hs h.2)
            (fun _ _ h => ⟨h.2, h.1⟩) fun _ hfalse => False.elim hfalse
      | false =>
          exact Safe.bind_answer hs (safe_tryRemoveDirAll hname hs h.1)
            fun _ _ hs h => Safe.fail stable_unstaged hs h

/-- **Marking** a target. Nothing is known about the markers before, and the staging directory is
left alone. -/
theorem safe_markComplete (hname : isEntryName name = true) (archive : Path) (gone : Prop)
    (hs : (protocol dir home name).Sound s) (ht : InExtracted dir home name s)
    (hg : gone → Unstaged home name processId s) :
    Safe (protocol dir home name) processId
      (Ends (fun _ s => Marked dir home name s ∧ (gone → Unstaged home name processId s))
        fun s => gone → Unstaged home name processId s)
      ((Cache.mk dir processId).markComplete name archive) s := by
  have hT := (lasting_target : (protocol dir home name).Lasting _)
  have hN := (stable_unstaged : (protocol dir home name).Stable processId _).imp gone
  have hM := (lasting_marked : (protocol dir home name).Lasting _).stable processId
  have hcreate : Safe (protocol dir home name) processId
      (Ends (fun _ s => (gone → Unstaged home name processId s) ∧ InExtracted dir home name s)
        fun s => gone → Unstaged home name processId s)
      (Action.createDirAll (Cache.mk dir processId).markersDir
        ("creating " ++ (Cache.mk dir processId).markersDir.text)) s := by
    unfold Action.createDirAll
    exact (Safe.orFail hN hN hs (safe_createMarkers gone hs hg) (fun _ _ h => h)
      fun _ _ h => h).and_lasting hT hs ht
  refine Safe.bind hs hcreate (fun _ s hs h => ?_) fun _ _ _ h => h
  unfold Action.writeFile
  exact Safe.orFail (hM.and hN) hN hs (safe_writeMarker hname gone _ hs h.2 h.1)
    (fun _ _ h => ⟨h.1 rfl, h.2⟩) fun _ _ h => h.2

/-- **Unpacking a tarball** whose target was found missing. No staging directory is left that could
be removed, whatever becomes of it. -/
theorem safe_extract (technology : Technology) (tarball : Tarball) (archive : Path)
    (hname : isEntryName tarball.path = true) (reached : Prop)
    (hs : (protocol dir home tarball.path).Sound s)
    (hr : reached → s.machine.disk.Reaches home dir "extracted"
      (stagingName tarball.path processId)) :
    Safe (protocol dir home tarball.path) processId
      (Ends (fun _ s => InExtracted dir home tarball.path s ∧ Marked dir home tarball.path s ∧
          (reached → Unstaged home tarball.path processId s))
        fun s => reached → Unstaged home tarball.path processId s)
      ((Cache.mk dir processId).extract technology tarball archive) s := by
  have hT := (lasting_target : (protocol dir home tarball.path).Lasting _)
  have hN := (stable_unstaged : (protocol dir home tarball.path).Stable processId _).imp reached
  refine Safe.bind hs (safe_prepareStaging hname reached hs hr) (fun _ s hs hd => ?_)
    fun _ _ _ h => h
  refine Safe.bind_answer hs (safe_unpack hname archive hs hd).attempt fun result s hs h => ?_
  cases result with
  | error error =>
      exact Safe.bind_answer hs (safe_tryRemoveDirAll hname hs h)
        fun _ _ hs h => Safe.fail hN hs fun _ => h
  | ok =>
      refine Safe.bind hs (safe_publish hname hs h.1 h.2) (fun _ s hs h => ?_) fun _ _ _ h _ => h
      exact Safe.mono hs
        ((safe_markComplete hname archive reached hs h.1 fun _ => h.2).and_lasting hT hs h.1)
        (fun _ _ h => ⟨h.2, h.1⟩) fun _ h => h

/-- **The state of a tarball** tells what is there: a target if it is not missing, and a marker as
well if it is complete. A target that appears after the look is not reported, and does no harm. -/
theorem safe_stateOf (hname : isEntryName name = true) (hs : (protocol dir home name).Sound s) :
    Safe (protocol dir home name) processId
      (Ends (fun state s => (state ≠ .missing → InExtracted dir home name s) ∧
          (state = .complete → Marked dir home name s)) fun _ => False)
      ((Cache.mk dir processId).stateOf name) s := by
  have hT := (lasting_target : (protocol dir home name).Lasting _)
  have hM := (lasting_marked : (protocol dir home name).Lasting _).stable processId
  have hstate : ∀ state : ExtractionState, (protocol dir home name).Stable processId fun s =>
      (state ≠ .missing → InExtracted dir home name s) ∧
        (state = .complete → Marked dir home name s) :=
    fun _ => ((hT.stable processId).imp _).and (hM.imp _)
  refine Safe.bind_answer hs (safe_isDir_target hname (Protocol.stable_true _ _) hs trivial)
    fun there s hs ht => ?_
  cases there with
  | false => exact Safe.pure (hstate _) hs ⟨fun h => absurd rfl h, fun h => absurd h (by simp)⟩
  | true =>
      refine Safe.bind_answer hs ((safe_isFile_marker hname hs).and_lasting hT hs (ht.2 rfl))
        fun marked s hs hm => ?_
      cases marked with
      | false => exact Safe.pure (hstate _) hs ⟨fun _ => hm.2, fun h => absurd h (by simp)⟩
      | true => exact Safe.pure (hstate _) hs ⟨fun _ => hm.2, fun _ => hm.1 rfl⟩

/-- **What making sure of a tarball ends with:** the path of its target, which is there and marked,
or a failure. -/
def Ensured (dir : Path) (home : Place) (name : String) (processId : Nat) :
    Except Error Path → Shared → Prop :=
  Ends (fun path s => path = (Cache.mk dir processId).target name ∧
    InExtracted dir home name s ∧ Marked dir home name s) fun _ => True

/-- Nobody spoils what a process ended with. -/
theorem lasting_ensured (result : Except Error Path) :
    (protocol dir home name).Lasting (Ensured dir home name processId result) := by
  intro other s s' hs hg h
  cases result with
  | error error => trivial
  | ok path =>
      obtain ⟨hpath, ht, hm⟩ := h
      exact ⟨hpath, lasting_target other s s' hs hg ht, lasting_marked other s s' hs hg hm⟩

/-- What a process that succeeded may look at, as long as the marker is no device. -/
theorem Ensured.seen {path : Path} (h : Ensured dir home name processId (.ok path) s)
    (hname : isEntryName name = true) (hs : Plain dir home name s.machine.disk)
    (hdevice : s.machine.disk.get? (markerAt home name) ≠ some .device) :
    path = (Cache.mk dir processId).target name ∧
      s.machine.disk.kind? ((Cache.mk dir processId).target name) = some .dir ∧
      s.machine.disk.kind? ((Cache.mk dir processId).marker name) = some .file := by
  obtain ⟨hpath, htarget, hreaches, hmarked⟩ := h
  have hs' : Plain (Cache.mk dir processId).dir home name s.machine.disk := hs
  exact ⟨hpath, (hs'.kind?_target hname).2 htarget,
    (hs'.kind?_marker hname).2 ⟨hreaches, hmarked.resolve_right hdevice⟩⟩

/-- **Making sure that a tarball is unpacked** is safe among any other processes of the protocol.
The three states lead to nothing, to marking or to unpacking, and each of them ends with a target
that is there and marked. -/
theorem safe_ensureExtracted (technology : Technology) (settings : Settings) (tarball : Tarball)
    (hname : isEntryName tarball.path = true) (hs : (protocol dir home tarball.path).Sound s) :
    Safe (protocol dir home tarball.path) processId
      (Ensured dir home tarball.path processId)
      ((Cache.mk dir processId).ensureExtracted technology settings tarball) s := by
  have hT := (lasting_target : (protocol dir home tarball.path).Lasting _)
  have hM := (lasting_marked : (protocol dir home tarball.path).Lasting _)
  have hTM := ((hT.stable processId).and (hM.stable processId))
  have htrue := Protocol.stable_true (protocol dir home tarball.path) processId
  have hdone : ∀ result, (protocol dir home tarball.path).Stable processId
      (Ensured dir home tarball.path processId result) :=
    fun result => (lasting_ensured result).stable processId
  unfold ensureExtracted
  rw [targetDir_eq, if_pos hname]
  have hbase : Safe (protocol dir home tarball.path) processId
      (Ends (fun _ _ => True) fun _ => True)
      (Action.ofExcept (technology.baseDir settings tarball.baseVar)) s := by
    refine Safe.ofExcept ?_ hs ?_
    · cases technology.baseDir settings tarball.baseVar <;> exact htrue
    · cases technology.baseDir settings tarball.baseVar <;> exact trivial
  change Safe _ _ _ (Action.ofExcept (technology.baseDir settings tarball.baseVar) >>= _) s
  refine Safe.bind hs hbase (fun base s hs _ => ?_) fun _ _ _ _ => trivial
  refine Safe.bind_answer hs (safe_log htrue (fun _ _ h => h) hs trivial) fun _ s hs _ => ?_
  refine Safe.bind_answer hs (safe_stateOf hname hs) fun state s hs hstate => ?_
  cases state with
  | complete =>
      exact Safe.pure (hdone _) hs ⟨rfl, hstate.1 (by simp), hstate.2 rfl⟩
  | incomplete =>
      have ht := hstate.1 (by simp)
      refine Safe.bind_answer hs (safe_log (hT.stable _) (fun _ _ h => h) hs ht) fun _ s hs ht => ?_
      refine Safe.bind hs ((safe_markComplete hname _ False hs ht False.elim).and_lasting hT hs ht)
        (fun _ s hs h => ?_) fun _ _ _ _ => trivial
      exact Safe.pure (hdone _) hs ⟨rfl, h.2, h.1.1⟩
  | missing =>
      refine Safe.bind hs (safe_extract technology tarball _ hname False hs False.elim)
        (fun _ s hs h => ?_) fun _ _ _ _ => trivial
      refine Safe.bind_answer hs (safe_log hTM (fun _ _ h => h) hs ⟨h.1, h.2.1⟩)
        fun _ s hs h => ?_
      exact Safe.pure (hdone _) hs ⟨rfl, h⟩

end Cache
end ProcessKit
