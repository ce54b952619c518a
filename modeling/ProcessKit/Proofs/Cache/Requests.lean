/-
# The requests of a cache

What a process of a cache may ask for, one lemma for each request: the request is within the
protocol, and `Q` of its lemma is what the process knows when the answer has come. `K` is what it
knew before and still knows.

A request is answered in one step, but others may have done theirs since it was asked, and a call of
the tool or a removal changes its directory before it is answered. So each lemma is about any state
that the others and the request itself can lead to, and the knowledge it starts from must be such
that they cannot spoil it. `Step.of_answer` says which answers are steps of the protocol, and
`Step.of_alters` that what happens while a request is under way is work in the staging directory.

The lemmas for the calls of the tool are where a process learns that a tree was unpacked: the call
that came back is the last one of its own (`ownReturns_answer`), and the tree that it left is still
in the staging directory, because nobody else works there. The one for the rename is where this
becomes the tree of the target.
-/

import ProcessKit.Proofs.Cache.Protocol

namespace ProcessKit

/-- A machine counts no call but those of the tool. -/
theorem Machine.perform_calls (tool : Tool) (machine : Machine) {r : Request}
    (hr : ∀ call, r ≠ .tool call) : (machine.perform tool r).2.calls = machine.calls := by
  have hupdate : ∀ disk?, (machine.update disk?).2.calls = machine.calls := by
    intro disk?
    cases disk? <;> rfl
  cases r with
  | tool call => exact absurd rfl (hr call)
  | write => exact hupdate _
  | rename => exact hupdate _
  | _ => rfl

/-- A request other than a call of the tool lets no call come back. -/
theorem Shared.answer_eq (processId : Nat) (result : Except Error Unit) (s : Shared) {r : Request}
    (hr : ∀ call, r ≠ .tool call) :
    s.answer processId result r =
      ((s.machine.perform (fun _ m => (result, m)) r).1,
        { s with machine := (s.machine.perform (fun _ m => (result, m)) r).2 }) := by
  have hnone : r.returns processId result s.machine.disk = [] := by
    cases r with
    | tool call => exact absurd rfl (hr call)
    | _ => rfl
  rw [answer, hnone, List.append_nil]

namespace Cache

open Disk

variable {dir : Path} {home : Place} {name : String} {processId : Nat} {s s' : Shared}

/-- An answered request other than a call of the tool is within the protocol when its change is. -/
theorem Step.of_answer (result : Except Error Unit) {r : Request} (hr : ∀ call, r ≠ .tool call)
    (hc : Change home name processId
      (Unpacked (stagingPath dir name processId) processId s.returned)
      s.machine.disk (s.machine.perform (fun _ m => (result, m)) r).2.disk) :
    Step dir home name processId s (s.answer processId result r).2 := by
  rw [Shared.answer_eq processId result s hr]
  refine ⟨hc, ⟨[], ?_, by simp⟩, ⟨[], (List.append_nil _).symm, by simp⟩⟩
  rw [List.append_nil]
  exact Machine.perform_calls _ _ hr

/-- The staging directory is where its path leads. -/
theorem Plain.eq_stagingAt (hname : isEntryName name = true) {disk : Disk}
    (h : Plain dir home name disk) {place : Place} {mode : Mode}
    (hfind : disk.find true (stagingPath dir name processId) = .entry place (.dir mode)) :
    place = stagingAt home name processId := by
  obtain ⟨-, hf⟩ | ⟨-, hf⟩ | ⟨-, -, hf⟩ | ⟨-, e, -, hf⟩ := find_cases h.hasExtracted
    (isEntryName_stagingName hname processId) true fun _ => h.staging processId
  · exact absurd (hf.symm.trans hfind) (by simp)
  · exact absurd (hf.symm.trans hfind) (by simp)
  · exact absurd (hf.symm.trans hfind) (by simp)
  · exact (Found.entry.inj (hf.symm.trans hfind)).1.symm

/-- **What happens while the staging directory is worked on** is within the protocol, and it stays a
directory if it is one. This covers a call of the tool and a removal that are under way. -/
theorem Step.of_alters (hname : isEntryName name = true)
    (hs : Plain dir home name s.machine.disk) {r : Request}
    (hr : r.workplace? = some (stagingPath dir name processId)) (ha : s.Alters r s') :
    Step dir home name processId s s' ∧ (s.machine.disk.IsDir (stagingAt home name processId) →
      s'.machine.disk.IsDir (stagingAt home name processId)) := by
  have hcalls : ∃ new, s'.machine.calls = s.machine.calls ++ new ∧
      ∀ call ∈ new, call.dest = stagingPath dir name processId :=
    ⟨[], by rw [List.append_nil, ha.calls], by simp⟩
  have hreturned : ∃ new, s'.returned = s.returned ++ new ∧
      ∀ r ∈ new, r.processId = processId := ⟨[], by rw [List.append_nil, ha.returned], by simp⟩
  obtain ⟨path, hpath, hdisk⟩ := ha.disk
  obtain rfl : stagingPath dir name processId = path := Option.some.inj (hr.symm.trans hpath)
  obtain heq | ⟨place, mode, hfind, hwithin⟩ := hdisk
  · exact ⟨⟨heq ▸ .look, hcalls, hreturned⟩, fun hd => heq ▸ hd⟩
  · obtain rfl := hs.eq_stagingAt hname hfind
    exact ⟨⟨.work hwithin, hcalls, hreturned⟩, fun _ => hwithin.isDir'⟩

/-- A process that looks where a path leads knows it afterwards, if nobody spoils it. -/
theorem safe_kind {path : Path} (kind : Kind) {K P : Shared → Prop}
    (hP : (protocol dir home name).Stable processId P)
    (hK : (protocol dir home name).Stable processId K)
    (hkind : ∀ s, Plain dir home name s.machine.disk →
      s.machine.disk.kind? path = some kind → P s)
    (hs : (protocol dir home name).Sound s) (hk : K s) :
    Safe (protocol dir home name) processId
      (Ends (fun found s => K s ∧ (found = some kind → P s)) fun _ => False)
      (Action.request (.kind path)) s := by
  refine Safe.request_once rfl K hK (fun reply => hK.and (hP.imp _))
    (fun s result hs hk => ?_) hs hk
  refine ⟨Step.of_answer result (by simp) .look, ?_⟩
  rw [Shared.answer_eq processId result s (by simp)]
  exact ⟨hk, hkind s hs⟩

/-- A message can be logged at any point of the protocol: what holds of the shared state is kept, if
it does not depend on the log. -/
theorem safe_log {level : Level} {message : String} {K : Shared → Prop}
    (hK : (protocol dir home name).Stable processId K)
    (hlog : ∀ s log, K s → K { s with machine := { s.machine with log } })
    (hs : (protocol dir home name).Sound s) (hk : K s) :
    Safe (protocol dir home name) processId (Ends (fun _ => K) fun _ => False)
      (Action.log level message) s := by
  refine Safe.request_once rfl K hK (fun _ => hK) (fun s result hs hk => ?_) hs hk
  refine ⟨Step.of_answer result (by simp) .look, ?_⟩
  rw [Shared.answer_eq processId result s (by simp)]
  exact hlog _ _ hk

/-- **Removing the staging directory** leaves none that could be removed, if its path can be
followed at all. -/
theorem safe_removeDirAll (hname : isEntryName name = true) (reached : Prop)
    (hs : (protocol dir home name).Sound s)
    (hr : reached → s.machine.disk.Reaches home dir "extracted" (stagingName name processId)) :
    Safe (protocol dir home name) processId
      (Ends (fun _ s => reached → Unstaged home name processId s)
        fun _ => False)
      (Action.request (.removeDirAll (stagingPath dir name processId))) s := by
  have hstaging := isEntryName_stagingName hname processId
  refine Safe.request
    (fun s => reached → s.machine.disk.Reaches home dir "extracted" (stagingName name processId))
    (((lasting_reaches _ _).stable _).imp _) ?_ (fun _ => stable_unstaged.imp _) ?_ hs hr
  · intro s s' hs hr ha
    obtain ⟨hstep, -⟩ := Step.of_alters hname hs rfl ha
    exact ⟨hstep, fun h => lasting_reaches _ _ processId s s' hs hstep (hr h)⟩
  · intro s result hs hr
    have hdiscards := hs.discards hname processId
    have hdisk : (s.machine.perform (fun _ m => (result, m))
        (.removeDirAll (stagingPath dir name processId))).2.disk =
        (s.machine.disk.removeDirAll (stagingPath dir name processId)).2 := rfl
    have hc : Change home name processId
        (Unpacked (stagingPath dir name processId) processId s.returned) s.machine.disk
        (s.machine.disk.removeDirAll (stagingPath dir name processId)).2 := hdiscards.change
    refine ⟨Step.of_answer result (by simp) (hdisk ▸ hc), fun h => ?_⟩
    rw [Shared.answer_eq processId result s (by simp)]
    exact fun hdir => ⟨hc.area_isDir (hr h).area, hdiscards.not_removable (hr h) hdir⟩

/-- **Making the staging directory** tells whether it is there. It may also make the area, which
another process may have made in the meantime; that is no failure. -/
theorem safe_createStaging (hname : isEntryName name = true) (reached : Prop)
    (hs : (protocol dir home name).Sound s)
    (hr : reached → s.machine.disk.Reaches home dir "extracted" (stagingName name processId)) :
    Safe (protocol dir home name) processId
      (Ends (fun made s =>
          (made = true → Staged dir home name processId s) ∧
          (made = false → reached → Unstaged home name processId s))
        fun _ => False)
      (Action.request (.createDirAll (stagingPath dir name processId))) s := by
  have hstaging := isEntryName_stagingName hname processId
  refine Safe.request_once rfl
    (fun s => reached → s.machine.disk.Reaches home dir "extracted" (stagingName name processId))
    (((lasting_reaches _ _).stable _).imp _)
    (fun _ => (stable_staged.imp _).and ((stable_unstaged.imp _).imp _)) ?_ hs hr
  intro s result hs hr
  obtain ⟨disk', hd, hmade⟩ :=
    createDirAll_entryPath hs.hasExtracted hstaging (hs.staging processId)
  have hperform : s.machine.perform (fun _ m => (result, m))
      (.createDirAll (stagingPath dir name processId)) =
      (decide (disk'.kind? (stagingPath dir name processId) = some .dir),
        { s.machine with disk := disk' }) := by
    rw [Machine.perform, show s.machine.disk.createDirAll (stagingPath dir name processId) = _
      from hd]
    rfl
  have hc : Change home name processId
      (Unpacked (stagingPath dir name processId) processId s.returned) s.machine.disk disk' :=
    .prepare hmade
  have hplain := hc.plain hs
  have hkind := kind?_eq_dir_iff hplain.hasExtracted hstaging (hplain.staging processId)
  refine ⟨Step.of_answer result (by simp) (hperform ▸ hc), ?_⟩
  rw [Shared.answer_eq processId result s (by simp), hperform]
  refine ⟨fun h => ?_, fun h hreached hdir => ?_⟩
  · exact hkind.1 (of_decide_eq_true h)
  · refine absurd (hkind.2 ⟨?_, hdir⟩) (of_decide_eq_false h)
    exact reaches_of_change hc (hr hreached)

/-- An answered call of the tool on the staging directory is within the protocol. -/
theorem Step.of_return {call : ToolCall} (hdest : call.dest = stagingPath dir name processId)
    (result : Except Error Unit) :
    Step dir home name processId s (s.answer processId result (.tool call)).2 := by
  refine ⟨.look, ⟨[call], rfl, ?_⟩,
    ⟨[⟨processId, call, result, s.machine.disk.treeOf call.dest⟩], rfl, ?_⟩⟩
  · intro c hc
    rw [List.mem_singleton.1 hc]
    exact hdest
  · intro r hr
    rw [List.mem_singleton.1 hr]

/-- When a call of the tool comes back to the process that made it, it is the last one of those that
came back to that process, with the tree that it left in its destination. -/
theorem ownReturns_answer (processId : Nat) (result : Except Error Unit) (s : Shared)
    (call : ToolCall) :
    ownReturns processId (s.answer processId result (.tool call)).2.returned =
      ownReturns processId s.returned ++
        [⟨processId, call, result, s.machine.disk.treeOf call.dest⟩] := by
  rw [ownReturns, ownReturns,
    show (s.answer processId result (.tool call)).2.returned =
      s.returned ++ [⟨processId, call, result, s.machine.disk.treeOf call.dest⟩] from rfl,
    List.filter_append, List.filter_cons_of_pos (by simp), List.filter_nil]

/-- **Unpacking an archive** in the staging directory. When the call comes back with success, it is
on record as the last one of this process, with the tree that is in the directory. -/
theorem safe_callExtract (hname : isEntryName name = true) (archive : Path)
    (hs : (protocol dir home name).Sound s)
    (hd : Staged dir home name processId s) :
    Safe (protocol dir home name) processId
      (Ends (fun result s => Staged dir home name processId s ∧
          (result = .ok () → Extracted (stagingPath dir name processId) processId s.returned))
        fun _ => False)
      (Action.request (.tool (.extract archive (stagingPath dir name processId)))) s := by
  refine Safe.request (Staged dir home name processId) stable_staged ?_
    (fun _ => stable_staged.and ((stable_extracted _).imp _)) ?_ hs hd
  · intro s s' hs hd ha
    obtain ⟨hstep, hdir⟩ := Step.of_alters hname hs rfl ha
    exact ⟨hstep, reaches_of_change hstep.change hd.1, hdir hd.2⟩
  · intro s result hs hd
    refine ⟨Step.of_return rfl result, hd, fun h => ?_⟩
    obtain rfl : result = .ok () := h
    exact ⟨_, _, archive, ownReturns_answer processId _ s _, rfl, rfl⟩

/-- **Making everything accessible** in the staging directory. When the call comes back with success
after an unpacking, the tree in the directory is one that may be published. -/
theorem safe_callGrant (hname : isEntryName name = true)
    (hs : (protocol dir home name).Sound s)
    (hd : Staged dir home name processId s)
    (hx : Extracted (stagingPath dir name processId) processId s.returned) :
    Safe (protocol dir home name) processId
      (Ends (fun result s => Staged dir home name processId s ∧
          (result = .ok () → Ready dir home name processId s))
        fun _ => False)
      (Action.request (.tool (.grantAccess (stagingPath dir name processId)))) s := by
  refine Safe.request
    (fun s => Staged dir home name processId s ∧
      Extracted (stagingPath dir name processId) processId s.returned)
    (stable_staged.and (stable_extracted _)) ?_
    (fun _ => stable_staged.and (stable_ready.imp _)) ?_ hs ⟨hd, hx⟩
  · rintro s s' hs ⟨hd, hx⟩ ha
    obtain ⟨hstep, hdir⟩ := Step.of_alters hname hs rfl ha
    exact ⟨hstep, ⟨reaches_of_change hstep.change hd.1, hdir hd.2⟩, ha.returned ▸ hx⟩
  · rintro s result hs ⟨hd, front, r, archive, hown, hcall, hok⟩
    refine ⟨Step.of_return rfl result, hd, fun h => ?_⟩
    obtain rfl : result = .ok () := h
    have htree : s.machine.disk.treeOf (stagingPath dir name processId) =
        s.machine.disk.tree (stagingAt home name processId) := by
      obtain ⟨mode, hmode⟩ := hd.2
      have hfind := find_of_reaches hs.hasExtracted (isEntryName_stagingName hname processId) hd.1
        true fun _ => hs.staging processId
      rw [hmode] at hfind
      rw [treeOf, show s.machine.disk.find true (stagingPath dir name processId) = _ from hfind]
    let granted : Return := ⟨processId, .grantAccess (stagingPath dir name processId), .ok (),
      s.machine.disk.treeOf (stagingPath dir name processId)⟩
    refine ⟨r, granted, archive, ?_, hcall, hok, rfl, rfl, htree⟩
    rw [ownReturns_answer, hown, List.append_assoc]
    exact List.suffix_append front _ |>.isInfix

/-- **Publishing** moves the staging directory to the target, or leaves it where it is. The rename
is one step, so nobody sees a target that is half there. -/
theorem safe_rename (hname : isEntryName name = true) (hs : (protocol dir home name).Sound s)
    (hd : Staged dir home name processId s)
    (hu : Ready dir home name processId s) :
    Safe (protocol dir home name) processId
      (Ends (fun moved s =>
          (moved = true → InExtracted dir home name s ∧
            Unstaged home name processId s) ∧
          (moved = false → Staged dir home name processId s))
        fun _ => False)
      (Action.request (.rename (stagingPath dir name processId)
        ((Cache.mk dir processId).target name))) s := by
  have hstaging := isEntryName_stagingName hname processId
  refine Safe.request_once rfl
    (fun s => Staged dir home name processId s ∧
      Ready dir home name processId s)
    (stable_staged.and stable_ready)
    (fun _ => (((lasting_target.stable _).and stable_unstaged).imp _).and
      (stable_staged.imp _)) ?_ hs ⟨hd, hu⟩
  rintro s result hs ⟨hd, hu⟩
  cases hrename : s.machine.disk.rename? (stagingPath dir name processId)
      ((Cache.mk dir processId).target name) with
  | none =>
      have hperform : s.machine.perform (fun _ m => (result, m))
          (.rename (stagingPath dir name processId) ((Cache.mk dir processId).target name)) =
          (false, s.machine) := by
        rw [Machine.perform, hrename, Machine.update]
      refine ⟨Step.of_answer result (by simp) (hperform ▸ .look), ?_⟩
      rw [Shared.answer_eq processId result s (by simp), hperform]
      exact ⟨fun h => absurd h (by simp), fun _ => hd⟩
  | some disk' =>
      obtain ⟨hr, rfl, ht⟩ := rename?_entryPath hs.hasExtracted hstaging hname
        (stagingName_ne name processId) hd.2 hrename
      have hperform : s.machine.perform (fun _ m => (result, m))
          (.rename (stagingPath dir name processId) ((Cache.mk dir processId).target name)) =
          (true, { s.machine with
            disk := s.machine.disk.moveTree (stagingAt home name processId)
              (targetAt home name) }) := by
        rw [Machine.perform, hrename, Machine.update]
      have hc : Change home name processId
          (Unpacked (stagingPath dir name processId) processId s.returned) s.machine.disk
          (s.machine.disk.moveTree (stagingAt home name processId) (targetAt home name)) :=
        .publish hd.2 ht hu
      have hmove := @get?_moveTree s.machine.disk _ _
        (ne_nil_of_below (below_targetAt home (stagingName name processId)))
        (ne_nil_of_below (below_targetAt home name))
      refine ⟨Step.of_answer result (by simp) (hperform ▸ hc), ?_⟩
      rw [Shared.answer_eq processId result s (by simp), hperform]
      refine ⟨fun _ => ⟨⟨reaches_of_change hc hr, ?_⟩, ?_⟩,
        fun h => absurd h (by simp)⟩
      · rw [IsDir, hmove, if_pos (List.prefix_refl _), List.drop_length, List.append_nil]
        exact hd.2
      · have hapart := not_prefix_of_ne home "extracted" (stagingName_ne name processId).symm []
        rw [Unstaged, IsDir, hmove, if_neg hapart, if_pos (List.prefix_refl _)]
        simp

/-- Whatever happens where markers are leaves the staging directory alone. -/
theorem Unstaged.of_markers (h : Unstaged home name processId s)
    (hframe : ∀ p, p ≠ markersAt home → p ≠ markerAt home name →
      s'.machine.disk.get? p = s.machine.disk.get? p) : Unstaged home name processId s' :=
  h.congr (funext fun rel => hframe _ (by simp) (by simp)) fun _ => hframe _ (by simp) (by simp)

/-- **Making the directory of the markers** leaves the staging directory alone, as does making it a
second time, when another process was first. -/
theorem safe_createMarkers (gone : Prop) (hs : (protocol dir home name).Sound s)
    (hg : gone → Unstaged home name processId s) :
    Safe (protocol dir home name) processId
      (Ends (fun _ s => gone → Unstaged home name processId s)
        fun _ => False)
      (Action.request (.createDirAll (Cache.mk dir processId).markersDir)) s := by
  have hK := (stable_unstaged : (protocol dir home name).Stable processId _).imp gone
  refine Safe.request_once rfl _ hK (fun _ => hK) ?_ hs hg
  intro s result hs hg
  obtain ⟨disk', hmade, hd⟩ := createDirAll_area hs.hasMarkers
    ((Cache.mk dir processId).markersDir.chars.length + 1)
  have hperform : s.machine.perform (fun _ m => (result, m))
      (.createDirAll (Cache.mk dir processId).markersDir) =
      (decide (disk'.kind? (Cache.mk dir processId).markersDir = some .dir),
        { s.machine with disk := disk' }) := by
    rw [Machine.perform, show s.machine.disk.createDirAll (Cache.mk dir processId).markersDir = _
      from hmade]
    rfl
  have hc : Change home name processId
      (Unpacked (stagingPath dir name processId) processId s.returned) s.machine.disk disk' ∧
      ∀ p, p ≠ markersAt home → disk'.get? p = s.machine.disk.get? p := by
    obtain rfl | ⟨hnone, rfl, -⟩ := hd
    · exact ⟨.look, fun _ _ => rfl⟩
    · refine ⟨.makeMarkers hnone, fun p hp => ?_⟩
      rw [get?_set (ne_nil_of_below (below_markersAt home)), if_neg hp]
  refine ⟨Step.of_answer result (by simp) (hperform ▸ hc.1), fun h => ?_⟩
  rw [Shared.answer_eq processId result s (by simp), hperform]
  exact (hg h).of_markers fun p hp _ => hc.2 p hp

/-- **Writing the marker** of a target. That the target is there has to be known before, and cannot
be spoilt by anybody; so the marker is never without a target. -/
theorem safe_writeMarker (hname : isEntryName name = true) (gone : Prop) (bytes : Bytes)
    (hs : (protocol dir home name).Sound s) (ht : InExtracted dir home name s)
    (hg : gone → Unstaged home name processId s) :
    Safe (protocol dir home name) processId
      (Ends (fun written s => (written = true → Marked dir home name s) ∧
          (gone → Unstaged home name processId s))
        fun _ => False)
      (Action.request (.write ((Cache.mk dir processId).marker name) bytes)) s := by
  have hK := (stable_unstaged : (protocol dir home name).Stable processId _).imp gone
  have hmarker := isEntryName_marker hname
  refine Safe.request_once rfl _ ((lasting_target.stable _).and hK)
    (fun _ => ((lasting_marked.stable _).imp _).and hK) ?_ hs ⟨ht, hg⟩
  rintro s result hs ⟨ht, hg⟩
  cases hwrite : s.machine.disk.writeFile? ((Cache.mk dir processId).marker name) bytes with
  | none =>
      have hperform : s.machine.perform (fun _ m => (result, m))
          (.write ((Cache.mk dir processId).marker name) bytes) = (false, s.machine) := by
        rw [Machine.perform, hwrite, Machine.update]
      refine ⟨Step.of_answer result (by simp) (hperform ▸ .look), ?_⟩
      rw [Shared.answer_eq processId result s (by simp), hperform]
      exact ⟨fun h => absurd h (by simp), hg⟩
  | some disk' =>
      obtain ⟨hr, hd⟩ := writeFile?_entryPath hs.hasMarkers hmarker hs.marker hwrite
      have hperform : s.machine.perform (fun _ m => (result, m))
          (.write ((Cache.mk dir processId).marker name) bytes) =
          (true, { s.machine with disk := disk' }) := by
        rw [Machine.perform, hwrite, Machine.update]
      have hc : Change home name processId
          (Unpacked (stagingPath dir name processId) processId s.returned) s.machine.disk disk' ∧
          (disk'.IsFile (markerAt home name) ∨ disk'.get? (markerAt home name) = some .device) ∧
          ∀ p, p ≠ markerAt home name → disk'.get? p = s.machine.disk.get? p := by
        obtain ⟨mode, rfl⟩ | ⟨rfl, hdevice⟩ := hd
        · have hset := @get?_set s.machine.disk _ (ne_nil_of_below (below_markerAt home name))
            (.file bytes mode)
          refine ⟨.mark ht.2 bytes mode, Or.inl ⟨bytes, mode, ?_⟩, fun p hp => ?_⟩
          · rw [hset, if_pos rfl]
          · rw [hset, if_neg hp]
        · exact ⟨.look, Or.inr hdevice, fun _ _ => rfl⟩
      refine ⟨Step.of_answer result (by simp) (hperform ▸ hc.1), ?_⟩
      rw [Shared.answer_eq processId result s (by simp), hperform]
      exact ⟨fun _ => ⟨reaches_of_change hc.1 hr, hc.2.1⟩,
        fun h => (hg h).of_markers fun p _ hp => hc.2.2 p hp⟩

end Cache
end ProcessKit
