/-
# The places of a cache

Everything that a cache keeps is an entry of one of two areas of its directory: targets and staging
directories are in `extracted`, markers in `markers`. A staging directory's name is never the name
of its own target, and it tells which tarball and which process it belongs to (`stagingName_inj`).
It can be the name of another tarball's target: nothing in the naming prevents that. So two tarballs
never share a target, a marker or a staging directory, and neither do two processes a staging
directory (`paths_told_apart`).

What makes a staging name injective is its end. The process id is written in decimal digits, and
there is no dash among these, so the id is what comes after the last dash (`cut_last`); what is in
front of it is the tarball's name between two fixed texts. Names may hold dots and dashes of their
own, and even a text that looks like the end of a staging name.

The paths are compared as texts and as lists of components. Both are needed: the first is what a
path looks like in a message, and the second is what the operating system goes by.
-/

import ProcessKit.Proofs.Disk.Operations

namespace ProcessKit
namespace Cache

/-- Where the unpacked tarballs of a cache are, given the place of its directory. -/
abbrev extractedAt (home : Place) : Place := home ++ ["extracted"]

/-- Where the markers of a cache are. -/
abbrev markersAt (home : Place) : Place := home ++ ["markers"]

/-- Where the target directory of a tarball is. -/
abbrev targetAt (home : Place) (name : String) : Place := home ++ ["extracted", name]

/-- Where a process unpacks a tarball. -/
abbrev stagingAt (home : Place) (name : String) (processId : Nat) : Place :=
  targetAt home (stagingName name processId)

/-- Where the marker of a tarball is. -/
abbrev markerAt (home : Place) (name : String) : Place := home ++ ["markers", name ++ ".complete"]

/-- A target is in `extracted`. -/
theorem dropLast_targetAt (home : Place) (name : String) :
    (targetAt home name).dropLast = extractedAt home := by
  rw [targetAt, extractedAt, List.append_cons, List.dropLast_concat]

variable {name other : String} {processId otherId : Nat}

/-- The directory of the published trees is one step below the cache. -/
theorem isEntryName_extracted : isEntryName "extracted" = true := by decide

/-- The directory of the markers is one step below the cache. -/
theorem isEntryName_markers : isEntryName "markers" = true := by decide

/-- The characters of a staging directory's name: a dot, the name of the tarball, and the process id
in decimal after a fixed text. The process id is what the last dash is followed by, so it can be
read off. -/
theorem toList_stagingName (name : String) (processId : Nat) :
    (stagingName name processId).toList =
      '.' :: (name.toList ++ ".partial-".toList ++ Nat.toDigits 10 processId) := by
  rw [stagingName, String.toList_append, String.toList_append, String.toList_append,
    show (toString processId).toList = Nat.toDigits 10 processId from Nat.toList_repr]
  rfl

/-- A staging directory's name is the name of an entry. -/
theorem isEntryName_stagingName (h : isEntryName name = true) (processId : Nat) :
    isEntryName (stagingName name processId) = true := by
  obtain ⟨-, -, -, hs⟩ := isEntryName_iff.1 h
  have hne : ∀ text : String, text.toList.length ≤ 2 → stagingName name processId ≠ text := by
    intro text ht heq
    rw [← heq, toList_stagingName, List.length_cons, List.length_append, List.length_append] at ht
    have hlen : ".partial-".toList.length = 9 := rfl
    omega
  refine isEntryName_iff.2 ⟨hne "" (by decide), hne "." (by decide), hne ".." (by decide), ?_⟩
  rw [toList_stagingName, List.mem_cons, List.mem_append, List.mem_append]
  rintro (hc | (hc | hc) | hc)
  · exact absurd hc (by decide)
  · exact hs hc
  · exact absurd hc (by decide)
  · exact absurd (Nat.isDigit_of_mem_toDigits (by decide) (by decide) hc) (by decide)

/-- A marker's name is the name of an entry. -/
theorem isEntryName_marker (h : isEntryName name = true) :
    isEntryName (name ++ ".complete") = true := by
  obtain ⟨-, -, -, hs⟩ := isEntryName_iff.1 h
  have hne : ∀ text : String, text.toList.length ≤ 2 → name ++ ".complete" ≠ text := by
    intro text ht heq
    rw [← heq, String.toList_append, List.length_append] at ht
    have hlen : ".complete".toList.length = 9 := rfl
    omega
  refine isEntryName_iff.2 ⟨hne "" (by decide), hne "." (by decide), hne ".." (by decide), ?_⟩
  rw [String.toList_append, List.mem_append]
  rintro (hc | hc)
  · exact hs hc
  · exact absurd hc (by decide)

/-- A tarball is never unpacked in its own target directory. -/
theorem stagingName_ne (name : String) (processId : Nat) : stagingName name processId ≠ name := by
  intro heq
  have hlen := congrArg List.length (congrArg String.toList heq)
  rw [toList_stagingName, List.length_cons, List.length_append, List.length_append] at hlen
  omega

/-- A text is cut at its last separator in one way. -/
theorem cut_last {sep : Char} {xs ys ds es : List Char} (hd : sep ∉ ds) (he : sep ∉ es)
    (h : xs ++ sep :: ds = ys ++ sep :: es) : xs = ys ∧ ds = es := by
  obtain ⟨cs, rfl, hcs⟩ | ⟨cs, rfl, hcs⟩ := List.append_eq_append_iff.1 h
  · cases cs with
    | nil => exact ⟨(List.append_nil xs).symm, (List.cons.inj hcs).2⟩
    | cons c cs =>
        obtain ⟨-, rfl⟩ := List.cons.inj hcs
        exact absurd (List.mem_append_right cs List.mem_cons_self) hd
  · cases cs with
    | nil => exact ⟨List.append_nil ys, (List.cons.inj hcs).2.symm⟩
    | cons c cs =>
        obtain ⟨-, rfl⟩ := List.cons.inj hcs
        exact absurd (List.mem_append_right cs List.mem_cons_self) he

/-- **A staging directory's name tells which process unpacks which tarball.** The process id is
behind the last dash, and what is in front of that is the name of the tarball between two fixed
texts. -/
theorem stagingName_inj (h : stagingName name processId = stagingName other otherId) :
    name = other ∧ processId = otherId := by
  have hlist := congrArg String.toList h
  rw [toList_stagingName, toList_stagingName] at hlist
  have hdash : ∀ n, '-' ∉ Nat.toDigits 10 n := fun n hc =>
    absurd (Nat.isDigit_of_mem_toDigits (by decide) (by decide) hc) (by decide)
  have hparts : ".partial-".toList = ".partial".toList ++ ['-'] := rfl
  have hcut := (List.cons.inj hlist).2
  rw [hparts, ← List.append_assoc, ← List.append_assoc, ← List.append_cons, ← List.append_cons]
    at hcut
  obtain ⟨hname, hid⟩ := cut_last (hdash processId) (hdash otherId) hcut
  refine ⟨String.toList_inj.1 (List.append_cancel_right hname), ?_⟩
  calc
    processId = Nat.ofDigitChars 10 (Nat.toDigits 10 processId) 0 :=
      Nat.ofDigitChars_ten_toDigits.symm
    _ = Nat.ofDigitChars 10 (Nat.toDigits 10 otherId) 0 := by rw [hid]
    _ = otherId := Nat.ofDigitChars_ten_toDigits

/-- The marker of a tarball says which one it is of: the ending is fixed. -/
theorem marker_inj (h : name ++ ".complete" = other ++ ".complete") : name = other := by
  have hlist := congrArg String.toList h
  rw [String.toList_append, String.toList_append] at hlist
  exact String.toList_inj.1 (List.append_cancel_right hlist)

/-- Two tarballs of one cache share a marker only if they are one. -/
theorem markerAt_inj {home : Place} (h : markerAt home name = markerAt home other) :
    name = other := by
  refine marker_inj ?_
  simpa using h

section Paths

variable {cache cache' : Cache} {tarball neighbour : Tarball} {target target' : Path}

/-- Two entries of `extracted` are the same when the cache and the name are. -/
theorem same_target_iff (h : isEntryName name = true) (ho : isEntryName other = true) :
    (cache.target name).same (cache'.target other) = true ↔
      cache.dir.same cache'.dir = true ∧ name = other := by
  rw [target, target, Path.same_join_iff h ho, extractedDir, extractedDir,
    Path.same_join_iff isEntryName_extracted isEntryName_extracted, and_iff_left rfl]

/-- Two markers are the same when the cache and the name are. -/
theorem same_marker_iff (h : isEntryName name = true) (ho : isEntryName other = true) :
    (cache.marker name).same (cache'.marker other) = true ↔
      cache.dir.same cache'.dir = true ∧ name = other := by
  rw [marker, marker, Path.same_join_iff (isEntryName_marker h) (isEntryName_marker ho),
    markersDir, markersDir, Path.same_join_iff isEntryName_markers isEntryName_markers,
    and_iff_left rfl]
  constructor
  · rintro ⟨hdir, heq⟩
    exact ⟨hdir, marker_inj heq⟩
  · rintro ⟨hdir, rfl⟩
    exact ⟨hdir, rfl⟩

/-- Two staging directories are the same when the cache, the name and the process are. -/
theorem same_staging_iff (h : isEntryName name = true) (ho : isEntryName other = true) :
    (cache.staging name).same (cache'.staging other) = true ↔
      cache.dir.same cache'.dir = true ∧ name = other ∧ cache.processId = cache'.processId := by
  -- Both are entries of `extracted`, so that the two names decide.
  have hentries : (cache.staging name).same (cache'.staging other) = true ↔
      cache.dir.same cache'.dir = true ∧
        stagingName name cache.processId = stagingName other cache'.processId :=
    same_target_iff (isEntryName_stagingName h _) (isEntryName_stagingName ho _)
  rw [hentries]
  constructor
  · rintro ⟨hdir, heq⟩
    exact ⟨hdir, stagingName_inj heq⟩
  · rintro ⟨hdir, rfl, hid⟩
    exact ⟨hdir, by rw [hid]⟩

/-- A staging directory is never the target of its own tarball. -/
theorem staging_not_same_target (h : isEntryName name = true) :
    (cache.staging name).same (cache'.target name) = false := by
  rw [← Bool.not_eq_true]
  intro hsame
  have hentries : cache.dir.same cache'.dir = true ∧ stagingName name cache.processId = name :=
    (same_target_iff (isEntryName_stagingName h _) h).1 hsame
  exact stagingName_ne name cache.processId hentries.2

/-- **The paths of a cache tell what they belong to.** Take two tarballs that have a target
directory, each as a process sees it with a cache of its own. Whatever is in their names:

* their staging directories are the same just when the caches, the tarballs' names and the process
  ids are;
* their markers, and their targets, are the same just when the caches and the names are;
* a tarball is never unpacked in its own target.

Paths are compared step by step, so the directory of a cache may be written in several ways. -/
theorem paths_told_apart (h : cache.targetDir tarball = .ok target)
    (h' : cache'.targetDir neighbour = .ok target') :
    ((cache.staging tarball.path).same (cache'.staging neighbour.path) = true ↔
      cache.dir.same cache'.dir = true ∧ tarball.path = neighbour.path ∧
        cache.processId = cache'.processId) ∧
    ((cache.marker tarball.path).same (cache'.marker neighbour.path) = true ↔
      cache.dir.same cache'.dir = true ∧ tarball.path = neighbour.path) ∧
    (target.same target' = true ↔
      cache.dir.same cache'.dir = true ∧ tarball.path = neighbour.path) ∧
    (cache.staging tarball.path).same target = false := by
  obtain ⟨hname, rfl⟩ := targetDir_eq_ok_iff.1 h
  obtain ⟨hneighbour, rfl⟩ := targetDir_eq_ok_iff.1 h'
  refine ⟨?staging, ?marker, ?target, ?own⟩
  case staging => exact same_staging_iff hname hneighbour
  case marker => exact same_marker_iff hname hneighbour
  case target => exact same_target_iff hname hneighbour
  case own => exact staging_not_same_target hname

/-- A tarball that is named like the marker of another one, which is itself named like a staging
directory: nothing of theirs is the same. -/
theorem named_like_marker_told_apart :
    (Cache.mk ⟨"/c"⟩ 2).targetDir ⟨"x.partial-1.complete", "", none⟩ =
      .ok ⟨"/c/extracted/x.partial-1.complete"⟩ ∧
    (Cache.mk ⟨"/c/"⟩ 12).targetDir ⟨"x.partial-1", "", none⟩ =
      .ok ⟨"/c/extracted/x.partial-1"⟩ ∧
    ((Cache.mk ⟨"/c"⟩ 2).staging "x.partial-1.complete").same
      ((Cache.mk ⟨"/c/"⟩ 12).staging "x.partial-1") = false ∧
    ((Cache.mk ⟨"/c"⟩ 2).marker "x.partial-1.complete").same
      ((Cache.mk ⟨"/c/"⟩ 12).marker "x.partial-1") = false ∧
    Path.same ⟨"/c/extracted/x.partial-1.complete"⟩ ⟨"/c/extracted/x.partial-1"⟩ = false ∧
    ((Cache.mk ⟨"/c"⟩ 2).staging "x.partial-1.complete").same
      ⟨"/c/extracted/x.partial-1.complete"⟩ = false := by
  have h : (Cache.mk ⟨"/c"⟩ 2).targetDir ⟨"x.partial-1.complete", "", none⟩ =
      .ok ⟨"/c/extracted/x.partial-1.complete"⟩ := by
    rw [targetDir_eq_ok_iff]
    decide +kernel
  have h' : (Cache.mk ⟨"/c/"⟩ 12).targetDir ⟨"x.partial-1", "", none⟩ =
      .ok ⟨"/c/extracted/x.partial-1"⟩ := by
    rw [targetDir_eq_ok_iff]
    decide +kernel
  have hne : "x.partial-1.complete" ≠ "x.partial-1" := by decide
  obtain ⟨hstaging, hmarker, htarget, hown⟩ := paths_told_apart h h'
  refine ⟨h, h', ?_, ?_, ?_, hown⟩
  · exact Bool.eq_false_iff.2 fun hsame => hne (hstaging.1 hsame).2.1
  · exact Bool.eq_false_iff.2 fun hsame => hne (hmarker.1 hsame).2
  · exact Bool.eq_false_iff.2 fun hsame => hne (htarget.1 hsame).2

end Paths

end Cache
end ProcessKit
