/-
# Where the segments of a path end up

A path below an install, below a library prefix and below a tarball is put together in three ways:
the segments are pushed onto the root one after the other, they are collected first and then joined
to the root, or the whole path is joined to the directory of everything unpacked. All three put the
root in front of the segments that are not empty (`Path.text_extend`, `Path.text_prepend_extend`,
`components_target`): an empty segment, as a doubled slash leaves one, never makes the rest an
absolute path that takes the place of the root. `joins_agree` puts them side by side.

Joining has a trap. A path joined to another one replaces it if it begins with a slash, and pushing
an empty segment leaves a slash at the end. `Path.withSegments` is the text that does neither: the
root, separated from what follows if it does not end in a slash already, and the members of the
list, which are the segments that are not empty, with a final slash where the last segment was
empty. The first two ways are compared with it as texts.

The third way starts from one text and does not cut it, so that it is compared by the steps that a
path takes (`Path.steps`): those of the target, and then the segments that are not empty. Segments
that are dots are steps like any other here. What they lead to is a matter of the disk.
-/

import Mathlib.Data.List.Basic
import Mathlib.Data.List.Induction
import ProcessKit.Proofs.Cache.Alone
import ProcessKit.Proofs.Technology.Resolution

namespace ProcessKit
namespace Path

/-- A text with a slash behind it, unless it is empty or ends in one. -/
def separated (text : String) : String :=
  if text = "" ∨ text.toList.getLast? = some '/' then text else text ++ "/"

/-- A root with members behind it, each after a slash. -/
def withMembers (root : String) (members : List String) : String :=
  members.foldl (fun text member => separated text ++ member) root

/-- The segments that are not empty. -/
def members (segments : List String) : List String := segments.filter (· ≠ "")

/-- **The text of a root with segments behind it:** the root, the segments that are not empty, and
a slash at the end if the last segment is empty. -/
def withSegments (root : String) (segments : List String) : String :=
  let text := withMembers root (members segments)
  if segments.getLast? = some "" then separated text else text

/-- An empty segment at the end, which a final slash makes, is no member. -/
theorem members_concat_empty (segments : List String) :
    members (segments ++ [""]) = members segments := by
  rw [members, List.filter_append, List.filter_cons_of_neg (by simp), List.filter_nil,
    List.append_nil]
  rfl

/-- Any other segment at the end is the last member. -/
theorem members_concat {segment : String} (h : segment ≠ "") (segments : List String) :
    members (segments ++ [segment]) = members segments ++ [segment] := by
  rw [members, List.filter_append, List.filter_cons_of_pos (by simpa using h), List.filter_nil]
  rfl

/-- A text that ends in a slash needs no other one. -/
theorem separated_of_getLast? {text : String} (h : text.toList.getLast? = some '/') :
    separated text = text := if_pos (Or.inr h)

/-- A text takes one slash. -/
theorem separated_separated (text : String) : separated (separated text) = separated text := by
  by_cases h : text = "" ∨ text.toList.getLast? = some '/'
  · rw [separated, separated, if_pos h, if_pos h]
  · refine separated_of_getLast? ?_
    rw [separated, if_neg h, String.toList_append]
    exact List.getLast?_concat

/-- What is in front of a text that is not empty does not matter for the slash behind it. -/
theorem separated_append (front : String) {text : String} (h : text ≠ "") :
    separated (front ++ text) = front ++ separated text := by
  have hlist : text.toList ≠ [] := fun hc => h (String.toList_eq_nil_iff.1 hc)
  have hlast : (front ++ text).toList.getLast? = text.toList.getLast? := by
    rw [String.toList_append, List.getLast?_append_of_ne_nil _ hlist]
  have hne : front ++ text ≠ "" := fun hc => h (String.append_eq_empty_iff.1 hc).2
  unfold separated
  rw [hlast]
  by_cases hslash : text.toList.getLast? = some '/'
  · rw [if_pos (Or.inr hslash), if_pos (Or.inr hslash)]
  · rw [if_neg (not_or.2 ⟨hne, hslash⟩), if_neg (not_or.2 ⟨h, hslash⟩), String.append_assoc]

/-- A separated text starts with the text. -/
theorem exists_separated (text : String) : ∃ rest, separated text = text ++ rest := by
  unfold separated
  split_ifs
  · exact ⟨"", String.append_empty.symm⟩
  · exact ⟨"/", rfl⟩

/-- One member more is written behind a slash. -/
@[simp]
theorem withMembers_concat (root : String) (ms : List String) (m : String) :
    withMembers root (ms ++ [m]) = separated (withMembers root ms) ++ m := by
  rw [withMembers, List.foldl_concat]
  rfl

/-- **The root stays in front** of the members. -/
theorem exists_withMembers (root : String) (ms : List String) :
    ∃ rest, withMembers root ms = root ++ rest := by
  induction ms using List.reverseRecOn with
  | nil => exact ⟨"", String.append_empty.symm⟩
  | append_singleton ms m ih =>
      obtain ⟨rest, hrest⟩ := ih
      obtain ⟨slash, hslash⟩ := exists_separated (withMembers root ms)
      refine ⟨rest ++ slash ++ m, ?_⟩
      rw [withMembers_concat, hslash, hrest, String.append_assoc, String.append_assoc,
        String.append_assoc]

/-- **The root stays in front** of the segments: whatever these are, the text begins with the root.
-/
theorem exists_withSegments (root : String) (segments : List String) :
    ∃ rest, withSegments root segments = root ++ rest := by
  obtain ⟨rest, hrest⟩ := exists_withMembers root (members segments)
  unfold withSegments
  dsimp only
  split_ifs
  · obtain ⟨slash, hslash⟩ := exists_separated (withMembers root (members segments))
    exact ⟨rest ++ slash, by rw [hslash, hrest, String.append_assoc]⟩
  · exact ⟨rest, hrest⟩

/-! ### Pushing segments one after the other -/

/-- A text without a slash starts at no root directory. -/
theorem isAbsolute_of_not_mem {segment : String} (h : '/' ∉ segment.toList) :
    (Path.mk segment).isAbsolute = false := by
  rw [isAbsolute, beq_eq_false_iff_ne]
  exact fun hc => h (List.mem_of_head? hc)

/-- What joining a relative path writes. -/
theorem text_join (p : Path) {q : Path} (h : q.isAbsolute = false) :
    (p.join q).text = separated p.text ++ q.text := by
  unfold join separated
  rw [h, if_neg Bool.false_ne_true]
  have hiff : (p.text.isEmpty || p.chars.getLast? == some '/') = true ↔
      p.text = "" ∨ p.text.toList.getLast? = some '/' := by
    rw [Bool.or_eq_true, String.isEmpty_iff, beq_iff_eq, chars]
  by_cases hp : p.text = "" ∨ p.text.toList.getLast? = some '/'
  · rw [if_pos (hiff.2 hp), if_pos hp]
  · rw [if_neg (mt hiff.1 hp), if_neg hp]

/-- Extending a path by one segment more is joining that segment. -/
theorem extend_concat (p : Path) (segments : List String) (segment : String) :
    p.extend (segments ++ [segment]) = (p.extend segments).join ⟨segment⟩ := by
  rw [extend, List.foldl_concat]
  rfl

/-- **What pushing segments writes:** the root, the segments that are not empty, each behind a
slash, and a slash at the end if the last one was empty. -/
theorem text_extend (p : Path) {segments : List String} (h : ∀ s ∈ segments, '/' ∉ s.toList) :
    (p.extend segments).text = withSegments p.text segments := by
  induction segments using List.reverseRecOn with
  | nil => rfl
  | append_singleton segments s ih =>
      have hfront : (p.extend segments).text = withSegments p.text segments :=
        ih fun other hmem => h other (List.mem_append_left _ hmem)
      have hs : '/' ∉ s.toList := h s (List.mem_append_right _ (List.mem_singleton.2 rfl))
      -- A slash written for an empty segment is the one that the next segment would write.
      have hslash : separated (withSegments p.text segments) =
          separated (withMembers p.text (members segments)) := by
        unfold withSegments
        dsimp only
        split_ifs
        · exact separated_separated _
        · rfl
      rw [extend_concat, text_join _ (isAbsolute_of_not_mem hs), hfront, hslash, withSegments]
      dsimp only
      rw [List.getLast?_concat]
      by_cases hempty : s = ""
      · subst hempty
        rw [if_pos rfl, members_concat_empty, String.append_empty]
      · rw [if_neg (fun hc => hempty (Option.some.inj hc)), members_concat hempty,
          withMembers_concat]

/-! ### Collecting the segments first -/

/-- What is in front of a root that is not empty does not matter for the members behind it. -/
theorem withMembers_append (front : String) {root : String} (h : root ≠ "") (ms : List String) :
    withMembers (front ++ root) ms = front ++ withMembers root ms := by
  induction ms generalizing root with
  | nil => rfl
  | cons m ms ih =>
      obtain ⟨slash, hslash⟩ := exists_separated root
      have hne : separated root ++ m ≠ "" := by
        rw [hslash, String.append_assoc]
        exact fun hc => h (String.append_eq_empty_iff.1 hc).1
      calc withMembers (front ++ root) (m :: ms)
          = withMembers (separated (front ++ root) ++ m) ms := rfl
        _ = withMembers (front ++ (separated root ++ m)) ms := by
            rw [separated_append front h, String.append_assoc]
        _ = front ++ withMembers root (m :: ms) := ih hne

/-- Where some segment is not empty, the root is one slash away from the first of these, and the
text from there on does not depend on the root. -/
theorem exists_withSegments_eq {segments ms : List String} {m : String} (hm : m ≠ "")
    (h : members segments = m :: ms) :
    ∃ rest, ∀ root, withSegments root segments = separated root ++ (m ++ rest) := by
  have hmembers : ∀ root, withMembers root (members segments) =
      separated root ++ withMembers m ms := by
    intro root
    rw [h]
    exact withMembers_append _ hm ms
  obtain ⟨rest, hrest⟩ := exists_withMembers m ms
  have hne : withMembers m ms ≠ "" := by
    rw [hrest]
    exact fun hc => hm (String.append_eq_empty_iff.1 hc).1
  unfold withSegments
  dsimp only
  split_ifs
  · obtain ⟨slash, hslash⟩ := exists_separated (withMembers m ms)
    refine ⟨rest ++ slash, fun root => ?_⟩
    rw [hmembers, separated_append _ hne, hslash, hrest, String.append_assoc]
  · exact ⟨rest, fun root => by rw [hmembers, hrest]⟩

/-- **What prepending collected segments writes.** A segment that is not empty comes first among
the collected ones, so that they start with no slash. -/
theorem text_prepend_extend (p : LibraryPrefix) {segments : List String}
    (h : ∀ s ∈ segments, '/' ∉ s.toList) :
    (p.prepend (Path.extend ⟨""⟩ segments)).text =
      if members segments = [] then p.root.text else withSegments p.root.text segments := by
  have hrest : (Path.extend ⟨""⟩ segments).text = withSegments "" segments := text_extend ⟨""⟩ h
  unfold LibraryPrefix.prepend
  cases hms : members segments with
  | nil =>
      have hempty : withSegments "" segments = "" := by
        rw [withSegments, hms]
        exact ite_self ""
      rw [hrest, hempty]
      rfl
  | cons m ms =>
      have hmem : m ∈ members segments := hms ▸ List.mem_cons_self
      obtain ⟨hsegment, hne⟩ := List.mem_filter.1 hmem
      have hm : m ≠ "" := by simpa using hne
      obtain ⟨rest, hall⟩ := exists_withSegments_eq hm hms
      have hcollected : (Path.extend ⟨""⟩ segments).text = m ++ rest := by
        rw [hrest, hall]
        exact String.empty_append
      obtain ⟨c, cs, hc⟩ := List.exists_cons_of_ne_nil
        (fun hc => hm (String.toList_eq_nil_iff.1 hc) : m.toList ≠ [])
      have hrelative : (Path.extend ⟨""⟩ segments).isAbsolute = false := by
        rw [isAbsolute, chars, hcollected, String.toList_append, hc, beq_eq_false_iff_ne]
        intro hslash
        obtain rfl : c = '/' := Option.some.inj hslash
        exact h m hsegment (hc ▸ List.mem_cons_self)
      have hthere : (Path.extend ⟨""⟩ segments).text.isEmpty = false := by
        rw [← Bool.not_eq_true, String.isEmpty_iff, hcollected]
        exact fun hc => hm (String.append_eq_empty_iff.1 hc).1
      rw [hthere, if_neg Bool.false_ne_true, if_neg (List.cons_ne_nil _ _),
        text_join _ hrelative, hcollected, hall]

/-! ### Comparing component by component -/

/-- The steps that pieces take. -/
def steps (pieces : List String) : List Component :=
  pieces.filterMap fun piece =>
    if piece = "" ∨ piece = "." then none
    else if piece = ".." then some .up
    else some (.name piece)

/-- The steps of pieces are found piece by piece. -/
theorem steps_append (ps qs : List String) : steps (ps ++ qs) = steps ps ++ steps qs :=
  List.filterMap_append

/-- An empty segment is no step. -/
theorem steps_members (segments : List String) : steps (members segments) = steps segments := by
  induction segments with
  | nil => rfl
  | cons s segments ih =>
      by_cases hs : s = ""
      · subst hs
        exact ih
      · have hm : members (s :: segments) = s :: members segments :=
          List.filter_cons_of_pos (by simpa using hs)
        rw [hm]
        calc steps (s :: members segments) = steps [s] ++ steps (members segments) :=
              steps_append [s] _
          _ = steps [s] ++ steps segments := by rw [ih]
          _ = steps (s :: segments) := (steps_append [s] _).symm

/-- A slash parts the pieces on its two sides. -/
theorem pieces_slash (front rest : String) :
    pieces (front ++ "/" ++ rest) = pieces front ++ pieces rest := by
  have hlist : (front ++ "/" ++ rest).toList = front.toList ++ '/' :: rest.toList := by
    simp [String.toList_append]
  rw [pieces, hlist, splitSlash_append, List.map_append]
  rfl

/-- A text without a slash is one piece. -/
theorem pieces_of_not_mem {text : String} (h : '/' ∉ text.toList) : pieces text = [text] := by
  rw [pieces, splitSlash_of_not_mem h, List.map_singleton, String.ofList_toList]

/-- A path whose pieces have no slash in them is cut into these pieces. -/
theorem pieces_intercalate {base : String} {segments : List String}
    (h : ∀ s ∈ base :: segments, '/' ∉ s.toList) :
    pieces ("/".intercalate (base :: segments)) = base :: segments := by
  induction segments generalizing base with
  | nil =>
      rw [String.intercalate_singleton]
      exact pieces_of_not_mem (h base List.mem_cons_self)
  | cons s segments ih =>
      rw [String.intercalate_cons_cons, pieces_slash,
        pieces_of_not_mem (h base List.mem_cons_self),
        ih fun other hmem => h other (List.mem_cons_of_mem _ hmem)]
      rfl

/-- A path that starts like another one and whose pieces take some more steps. -/
theorem components_append {p q : Path} {more : List Component}
    (habs : q.isAbsolute = p.isAbsolute)
    (hhead : (pieces q.text).head? = (pieces p.text).head?)
    (hsteps : steps (pieces q.text) = steps (pieces p.text) ++ more) :
    q.components = p.components ++ more := by
  unfold components
  dsimp only
  rw [habs, hhead]
  split_ifs
  · exact congrArg (Component.root :: ·) hsteps
  · exact congrArg (Component.here :: ·) hsteps
  · exact hsteps

/-- Every text has a first piece, which may be empty. -/
theorem exists_pieces (text : String) : ∃ piece ps, pieces text = piece :: ps :=
  List.exists_cons_of_ne_nil fun hc => splitSlash_ne_nil _ (List.map_eq_nil_iff.1 hc)

/-- A final slash adds an empty piece, which is no step. -/
theorem pieces_final (text : String) : pieces (text ++ "/") = pieces text ++ [""] := by
  have hslash := pieces_slash text ""
  rw [String.append_empty] at hslash
  exact hslash

/-- What follows a slash adds its steps. -/
theorem components_slash (front rest : String) :
    components ⟨front ++ "/" ++ rest⟩ = components ⟨front ++ "/"⟩ ++ steps (pieces rest) := by
  obtain ⟨piece, ps, hfront⟩ := exists_pieces front
  refine components_append ?_ ?_ ?_
  · unfold isAbsolute chars
    rw [String.toList_append, List.head?_append_of_ne_nil _ (by simp [String.toList_append])]
  · rw [pieces_slash, pieces_final, hfront]
    rfl
  · rw [pieces_slash, pieces_final, steps_append, steps_append]
    exact congrArg (· ++ _) (List.append_nil _).symm

/-- A slash behind a text that is not empty is no step. -/
theorem components_final {text : String} (h : text ≠ "") :
    components ⟨text ++ "/"⟩ = components ⟨text⟩ := by
  obtain ⟨piece, ps, hpieces⟩ := exists_pieces text
  have hlist : text.toList ≠ [] := fun hc => h (String.toList_eq_nil_iff.1 hc)
  rw [← List.append_nil (components ⟨text⟩)]
  refine components_append ?_ ?_ ?_
  · unfold isAbsolute chars
    rw [String.toList_append, List.head?_append_of_ne_nil _ hlist]
  · rw [pieces_final, hpieces]
    rfl
  · rw [pieces_final, steps_append]
    rfl

/-- What is written below a directory takes the steps of the directory and then its own. -/
theorem components_under {dir : Path} (h : dir.text ≠ "") (rest : String) :
    components ⟨dir.text ++ "/" ++ rest⟩ = dir.components ++ steps (pieces rest) := by
  rw [components_slash, components_final h]

/-- Joining a segment takes its step, if it is one. -/
theorem components_join_segment {p : Path} (hp : p.text ≠ "") {segment : String}
    (h : '/' ∉ segment.toList) :
    (p.join ⟨segment⟩).components = p.components ++ steps [segment] := by
  have htext : (p.join ⟨segment⟩).text = separated p.text ++ segment :=
    text_join p (isAbsolute_of_not_mem h)
  by_cases hslash : p.text.toList.getLast? = some '/'
  · obtain ⟨front, hfront⟩ := List.getLast?_eq_some_iff.1 hslash
    have hp : p.text = String.ofList front ++ "/" := by
      rw [← String.toList_inj, hfront, String.toList_append, String.toList_ofList]
      rfl
    rw [show p.join ⟨segment⟩ = ⟨String.ofList front ++ "/" ++ segment⟩ by
        rw [← hp, ← separated_of_getLast? hslash, ← htext],
      components_slash, ← hp, pieces_of_not_mem h]
  · rw [show p.join ⟨segment⟩ = ⟨p.text ++ "/" ++ segment⟩ by
        rw [separated, if_neg (not_or.2 ⟨hp, hslash⟩)] at htext
        rw [← htext],
      components_under hp, pieces_of_not_mem h]

/-- **Pushing segments takes their steps,** one after the other. Empty segments take none, and
neither do single dots. -/
theorem components_extend {p : Path} (hp : p.text ≠ "") {segments : List String}
    (h : ∀ s ∈ segments, '/' ∉ s.toList) :
    (p.extend segments).components = p.components ++ steps segments := by
  induction segments using List.reverseRecOn with
  | nil => exact (List.append_nil _).symm
  | append_singleton segments s ih =>
      have hall : ∀ other ∈ segments, '/' ∉ other.toList := fun other hmem =>
        h other (List.mem_append_left _ hmem)
      have hs : '/' ∉ s.toList := h s (List.mem_append_right _ (List.mem_singleton.2 rfl))
      have hne : (p.extend segments).text ≠ "" := by
        obtain ⟨rest, hrest⟩ := exists_withSegments p.text segments
        rw [text_extend p hall, hrest]
        exact fun hc => hp (String.append_eq_empty_iff.1 hc).1
      rw [extend_concat, components_join_segment hne hs, ih hall, List.append_assoc,
        ← steps_append]

end Path

namespace Technology

variable {base : String} {segments : List String}

/-- **How a path is cut:** a relative path of segments is cut into these segments, and is neither
empty nor absolute. -/
theorem segments_intercalate (hbase : base ≠ "") (h : ∀ s ∈ base :: segments, '/' ∉ s.toList) :
    firstSegment ("/".intercalate (base :: segments)) = base ∧
      laterSegments ("/".intercalate (base :: segments)) = segments ∧
      "/".intercalate (base :: segments) ≠ "" ∧
      ("/".intercalate (base :: segments)).toList.head? ≠ some '/' := by
  have hpieces := Path.pieces_intercalate h
  have hcut := List.cons.inj ((pieces_eq ("/".intercalate (base :: segments))).symm.trans hpieces)
  refine ⟨hcut.1, hcut.2, fun hempty => ?_, fun hhead => ?_⟩
  · rw [hempty] at hpieces
    exact hbase (List.cons.inj hpieces).1.symm
  · obtain ⟨cs, hcs⟩ := List.head?_eq_some_iff.1 hhead
    rw [Path.pieces, hcs, Path.splitSlash, if_pos rfl, List.map_cons] at hpieces
    exact hbase (List.cons.inj hpieces).1.symm

/-- **The path of everything unpacked, with the path of a tarball behind it,** takes the steps of
the tarball's target with the members of the rest behind it. -/
theorem components_target (cache : Cache) (hname : isEntryName base = true)
    (h : ∀ s ∈ base :: segments, '/' ∉ s.toList) :
    Path.components ⟨cache.extractedDir.text ++ "/" ++ "/".intercalate (base :: segments)⟩ =
      ((cache.target base).extend (Path.members segments)).components := by
  have hdir : cache.extractedDir.text ≠ "" :=
    Path.text_join_ne (show isEntryName "extracted" = true by decide) cache.dir
  have htarget : (cache.target base).text ≠ "" := Path.text_join_ne hname cache.extractedDir
  have hmembers : ∀ s ∈ Path.members segments, '/' ∉ s.toList := fun s hs =>
    h s (List.mem_cons_of_mem _ (List.mem_filter.1 hs).1)
  have hstep : Path.steps [base] = [.name base] := by
    obtain ⟨hne, hdot, hdots, -⟩ := isEntryName_iff.1 hname
    rw [Path.steps, List.filterMap_cons_some (by rw [if_neg (not_or.2 ⟨hne, hdot⟩), if_neg hdots]),
      List.filterMap_nil]
  calc Path.components ⟨cache.extractedDir.text ++ "/" ++ "/".intercalate (base :: segments)⟩
      = cache.extractedDir.components ++ Path.steps ([base] ++ segments) := by
        rw [Path.components_under hdir, Path.pieces_intercalate h]
        rfl
    _ = (cache.target base).components ++ Path.steps (Path.members segments) := by
        rw [Path.steps_append, hstep, ← List.append_assoc, Cache.target,
          Path.components_join hname, Path.steps_members]
    _ = ((cache.target base).extend (Path.members segments)).components :=
        (Path.components_extend htarget hmembers).symm

/-- **Below a tarball** a relative path resolves to nothing but itself behind the directory of
everything unpacked, with a cache in which the tarball has a target. -/
theorem exists_of_resolve_tarball {technology : Technology} {settings : Settings}
    {cache : Option Cache} {library : Option Library} {tool : Tool} {machine : Machine}
    {path : String} {tarball : Tarball} {resolved : Path} (hne : path ≠ "")
    (hrelative : path.toList.head? ≠ some '/')
    (hsource : technology.matching library (firstSegment path) = [.tarball tarball])
    (hok : ((technology.resolve settings cache library path).run tool machine).1 = .ok resolved) :
    ∃ c, cache = some c ∧ isEntryName tarball.path = true ∧
      c.targetDir tarball = .ok (c.target tarball.path) ∧
      resolved = ⟨c.extractedDir.text ++ "/" ++ path⟩ := by
  cases cache with
  | none =>
      rw [resolve_tarball_of_none hne hrelative hsource] at hok
      exact absurd hok (by simp)
  | some c =>
      rw [resolve_tarball hne hrelative hsource c] at hok
      have hname : isEntryName tarball.path = true := by
        rw [← Bool.not_eq_false]
        intro hinvalid
        rw [Cache.run_ensureExtracted_invalid c tool machine technology settings tarball
          hinvalid] at hok
        exact absurd hok (by simp)
      have htarget : c.targetDir tarball = .ok (c.target tarball.path) :=
        Cache.targetDir_eq_ok_iff.2 ⟨hname, rfl⟩
      refine ⟨c, rfl, hname, htarget, ?_⟩
      cases hrun : (c.ensureExtracted technology settings tarball).run tool machine with
      | mk result machine' =>
          rw [hrun] at hok
          cases result with
          | ok target => exact (Except.ok.inj hok).symm
          | error error => exact absurd hok (by simp)

/-- **The three ways of joining agree.** Of a relative path `base/s₁/…/sₖ`, whose segments may be
empty or dots:

* below an install, it resolves to the base directory with the segments behind it;
* below a library prefix, to the same behind the root of the prefix, save that without a segment
  that is not empty it is the root exactly;
* below a tarball, if at all, to the whole path behind the directory of everything unpacked, which
  takes the steps of the tarball's target with the segments that are not empty pushed onto it.

So the root of an install or a prefix is always in front of what it resolves to. -/
theorem joins_agree (technology : Technology) (settings : Settings) (cache : Option Cache)
    (library : Option Library) (hbase : base ≠ "") (h : ∀ s ∈ base :: segments, '/' ∉ s.toList)
    (tool : Tool) (machine : Machine) :
    let path := "/".intercalate (base :: segments)
    let sources := technology.matching library base
    let outcome := (technology.resolve settings cache library path).run tool machine
    (∀ install root, sources = [.install install] →
      technology.baseDir settings install.baseVar = .ok root →
      ∃ resolved, outcome = resolvedOn machine path resolved ∧
        resolved.text = Path.withSegments root.text segments ∧
        ∃ rest, resolved.text = root.text ++ rest) ∧
    (∀ p, sources = [.libraryPrefix p] →
      ∃ resolved, outcome = resolvedOn machine path resolved ∧
        resolved.text = (if Path.members segments = [] then p.root.text
          else Path.withSegments p.root.text segments) ∧
        ∃ rest, resolved.text = p.root.text ++ rest) ∧
    ∀ tarball resolved, sources = [.tarball tarball] → outcome.1 = .ok resolved →
      ∃ c target, cache = some c ∧ c.targetDir tarball = .ok target ∧
        resolved.text = (c.dir.join ⟨"extracted"⟩).text ++ "/" ++ path ∧
        resolved.components = (target.extend (Path.members segments)).components := by
  intro path sources outcome
  obtain ⟨hfirst, hlater, hne, hrelative⟩ := segments_intercalate hbase h
  have hsegments : ∀ s ∈ segments, '/' ∉ s.toList := fun s hs => h s (List.mem_cons_of_mem _ hs)
  have hsources : technology.matching library (firstSegment path) = sources :=
    congrArg (technology.matching library) hfirst
  refine ⟨fun install root hone hroot => ?_, fun p hone => ?_, fun tarball resolved hone hok => ?_⟩
  · have houtcome : outcome = resolvedOn machine path (root.extend segments) := by
      rw [show outcome = _ from resolve_install hne hrelative (hsources.trans hone), hroot, hlater]
    have htext := Path.text_extend root hsegments
    obtain ⟨rest, hrest⟩ := Path.exists_withSegments root.text segments
    exact ⟨_, houtcome, htext, rest, htext.trans hrest⟩
  · have houtcome : outcome = resolvedOn machine path (p.prepend (Path.extend ⟨""⟩ segments)) := by
      rw [show outcome = _ from resolve_libraryPrefix hne hrelative (hsources.trans hone), hlater]
    have htext := Path.text_prepend_extend p hsegments
    refine ⟨_, houtcome, htext, ?_⟩
    rw [htext]
    split_ifs
    · exact ⟨"", String.append_empty.symm⟩
    · exact Path.exists_withSegments p.root.text segments
  · have hbasename : tarball.path = base :=
      (mem_matching_iff.1 (show Source.tarball tarball ∈ sources from
        hone ▸ List.mem_singleton.2 rfl)).2
    obtain ⟨c, hcache, hname, htarget, hresolved⟩ :=
      exists_of_resolve_tarball hne hrelative (hsources.trans hone) hok
    rw [hbasename] at hname htarget
    refine ⟨c, c.target base, hcache, htarget, congrArg Path.text hresolved, ?_⟩
    rw [hresolved]
    exact components_target c hname h

/-- A technology with the install `i` and the tarball `t`, both below its own directory. -/
def installAndTarball : Technology :=
  ⟨"tech", ⟨"/tech"⟩, { installs := some [⟨"i", ""⟩], tarballs := some [⟨"t", "", none⟩] }⟩

/-- A library with the extra prefix `p`. -/
def prefixed : Library := { extraPrefixes := [⟨"p", ⟨"/lib/"⟩⟩] }

/-- The segments `//a/` end up behind an install, behind a prefix and below a tarball. -/
theorem joins_of_empty_segments :
    let segments := ["", "a", ""]
    let outcome (base : String) :=
      ((installAndTarball.resolve {} (some Cache.firstCache) (some prefixed)
        ("/".intercalate (base :: segments))).run (Tool.unpacking "cells") Cache.emptyCache).1
    outcome "i" = .ok ⟨"/tech/a/"⟩ ∧ outcome "p" = .ok ⟨"/lib/a/"⟩ ∧
      ∃ resolved target, outcome "t" = .ok resolved ∧
        Cache.firstCache.targetDir ⟨"t", "", none⟩ = .ok target ∧
        resolved.text = "/c/extracted/t//a/" ∧
        resolved.components = (target.extend ["a"]).components := by
  intro segments outcome
  have hall := fun (base : String) (hbase : base ≠ "")
      (h : ∀ s ∈ base :: segments, '/' ∉ s.toList) =>
    joins_agree installAndTarball {} (some Cache.firstCache) (some prefixed) hbase h
      (Tool.unpacking "cells") Cache.emptyCache
  refine ⟨?_, ?_, ?_⟩
  · obtain ⟨resolved, houtcome, htext, -⟩ :=
      (hall "i" (by decide) (by decide)).1 ⟨"i", ""⟩ ⟨"/tech"⟩ (by decide) (by decide)
    have hresolved : resolved = ⟨"/tech/a/"⟩ :=
      congrArg Path.mk (htext.trans (by decide : Path.withSegments "/tech" segments = "/tech/a/"))
    rw [hresolved] at houtcome
    exact congrArg Prod.fst houtcome
  · obtain ⟨resolved, houtcome, htext, -⟩ :=
      (hall "p" (by decide) (by decide)).2.1 ⟨"p", ⟨"/lib/"⟩⟩ (by decide)
    have hresolved : resolved = ⟨"/lib/a/"⟩ :=
      congrArg Path.mk (htext.trans (by decide))
    rw [hresolved] at houtcome
    exact congrArg Prod.fst houtcome
  · have hok : outcome "t" = .ok ⟨"/c/extracted/t//a/"⟩ := by decide +kernel
    obtain ⟨c, target, hc, htarget, htext, hcomponents⟩ :=
      (hall "t" (by decide) (by decide)).2.2 ⟨"t", "", none⟩ _ (by decide) hok
    obtain rfl := Option.some.inj hc
    exact ⟨_, target, hok, htarget, rfl, hcomponents⟩

end Technology
end ProcessKit
