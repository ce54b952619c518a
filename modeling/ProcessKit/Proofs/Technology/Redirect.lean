/-
# Resolution under more and reordered declarations

Following a source reads nothing of a technology but its name and its directory
(`resolveWith_congr`), so two technologies that agree on these differ only in the sources that a
segment names. `Extends` adds declarations anywhere among those that are there: a path that resolves
without them resolves to the same, or is ambiguous (`resolve_of_extends`). `Reorders` changes the
order of the declarations, which shows in nothing but the order in which an ambiguous path lists its
sources (`resolve_of_reorders`).

The three lists of a document, and the prefixes of a library at hand, are extended and reordered
together. In the list of sources that a segment names the first makes a longer list that has the
shorter one in it, in its order, and the second a permutation (`Extends.matching`,
`Reorders.matching`). A path with one source keeps it or gets a second one, and one with two or more
stays ambiguous. There is no third way, because no source takes precedence over another.

That outcomes are the same is meant of the whole run: the result, and the machine with its disk, its
log and the calls of the tool.
-/

import ProcessKit.Proofs.Technology.Resolution

namespace ProcessKit
namespace Technology

variable {technology technology' : Technology} {library library' : Option Library}

/-- The prefixes of the library at hand; without a library there are none. -/
def prefixesOf (library : Option Library) : List LibraryPrefix :=
  (library.map Library.extraPrefixes).getD []

/-- Two technologies with one name and directory, each with a library at hand, whose declarations
are related kind by kind. -/
structure Declares (R : ∀ {α : Type}, List α → List α → Prop)
    (technology technology' : Technology) (library library' : Option Library) : Prop where
  name : technology'.name = technology.name
  path : technology'.path = technology.path
  installs : R technology.installs technology'.installs
  tarballs : R technology.tarballs technology'.tarballs
  prefixes : R (prefixesOf library) (prefixesOf library')

/-- **More is declared,** and what was declared keeps its order. -/
def Extends : Technology → Technology → Option Library → Option Library → Prop :=
  Declares List.Sublist

/-- **The same is declared,** in any order. -/
def Reorders : Technology → Technology → Option Library → Option Library → Prop :=
  Declares List.Perm

/-- The sources of a segment are related as the declarations are. -/
theorem Declares.matching {R : ∀ {α : Type}, List α → List α → Prop}
    (happend : ∀ {α : Type} {xs xs' ys ys' : List α}, R xs xs' → R ys ys' →
      R (xs ++ ys) (xs' ++ ys'))
    (hfilter : ∀ {α : Type} (p : α → Bool) {xs xs' : List α}, R xs xs' →
      R (xs.filter p) (xs'.filter p))
    (hmap : ∀ {α β : Type} (f : α → β) {xs xs' : List α}, R xs xs' → R (xs.map f) (xs'.map f))
    (h : Declares R technology technology' library library') (segment : String) :
    R (technology.matching library segment) (technology'.matching library' segment) := by
  refine happend (happend ?_ ?_) ?_
  · exact hmap _ (hfilter _ h.installs)
  · exact hmap _ (hfilter _ h.tarballs)
  · exact hmap _ (hfilter _ h.prefixes)

/-- **Adding declarations** keeps those that match a segment, in their order: there may be more of
them, none is lost. -/
theorem Extends.matching (h : Extends technology technology' library library')
    (segment : String) :
    (technology.matching library segment).Sublist (technology'.matching library' segment) :=
  Declares.matching .append .filter .map h segment

/-- **Reordering declarations** keeps those that match a segment, in some order. -/
theorem Reorders.matching (h : Reorders technology technology' library library')
    (segment : String) :
    (technology.matching library segment).Perm (technology'.matching library' segment) :=
  Declares.matching .append .filter .map h segment

section

variable (hname : technology'.name = technology.name) (hpath : technology'.path = technology.path)

include hname hpath

/-- **Following a source** reads the name and the directory of the technology, and nothing else. In
particular it does not look at the other declarations. -/
theorem resolveWith_congr (settings : Settings) (cache : Option Cache) (path : String)
    (rest : List String) (source : Source) :
    technology'.resolveWith settings cache path rest source =
      technology.resolveWith settings cache path rest source := by
  obtain ⟨name, dir, document⟩ := technology
  obtain ⟨name', dir', document'⟩ := technology'
  obtain rfl : name' = name := hname
  obtain rfl : dir' = dir := hpath
  cases source with
  | install install => rfl
  | tarball tarball => cases cache <;> rfl
  | libraryPrefix p => rfl

/-- Technologies in which a path has the same sources resolve it in the same way. -/
theorem resolve_congr {path : String}
    (hsources : technology'.matching library' (firstSegment path) =
      technology.matching library (firstSegment path))
    (settings : Settings) (cache : Option Cache) :
    technology'.resolve settings cache library' path =
      technology.resolve settings cache library path := by
  have hsegments : technology'.resolveSegments settings cache library' path (firstSegment path)
      (laterSegments path) =
      technology.resolveSegments settings cache library path (firstSegment path)
        (laterSegments path) := by
    rw [resolveSegments, resolveSegments, candidates_eq, candidates_eq, hsources, hname]
    split
    · rfl
    · exact resolveWith_congr hname hpath settings cache path _ _
    · rfl
  rw [resolve, resolve, pieces_eq]
  dsimp only
  rw [hsegments]

end

variable {settings : Settings} {cache : Option Cache} {tool : Tool} {machine : Machine}
  {path : String}

/-- A path without a relative first segment does not depend on what is declared. -/
theorem resolve_of_not_relative (h : path = "" ∨ path.toList.head? = some '/') :
    technology'.resolve settings cache library' path =
      technology.resolve settings cache library path := by
  rw [resolve, resolve]
  obtain rfl | h := h
  · rfl
  · have habs : (Path.mk path).isAbsolute = true := beq_iff_eq.2 h
    rw [if_pos habs, if_pos habs]

/-- A relative path that resolves has one source. -/
theorem exists_source_of_resolve (hne : path ≠ "") (h : path.toList.head? ≠ some '/')
    {resolved : Path}
    (hok : ((technology.resolve settings cache library path).run tool machine).1 = .ok resolved) :
    ∃ source, technology.matching library (firstSegment path) = [source] := by
  match hsources : technology.matching library (firstSegment path) with
  | [] =>
      rw [resolve_none hne h hsources] at hok
      exact absurd hok (by simp)
  | [source] => exact ⟨source, rfl⟩
  | _ :: _ :: _ =>
      rw [resolve_many hne h (by rw [hsources]; simp)] at hok
      exact absurd hok (by simp)

/-- **With more declared, a path that resolved** resolves in the same way, or it is ambiguous and
nothing is done. A source that was alone is still there, and what is new can only join it. -/
theorem resolve_of_extends (hext : Extends technology technology' library library')
    {resolved : Path}
    (hok : ((technology.resolve settings cache library path).run tool machine).1 = .ok resolved) :
    technology'.resolve settings cache library' path =
        technology.resolve settings cache library path ∨
      (technology'.resolve settings cache library' path).run tool machine =
        (.error (.ambiguousPath path technology'.name
          ((technology'.matching library' (firstSegment path)).map Source.describe)), machine) := by
  by_cases hrelative : path = "" ∨ path.toList.head? = some '/'
  · exact Or.inl (resolve_of_not_relative hrelative)
  obtain ⟨hne, h⟩ := not_or.1 hrelative
  obtain ⟨source, hsource⟩ := exists_source_of_resolve hne h hok
  have hsub := hext.matching (firstSegment path)
  rw [hsource] at hsub
  obtain hone | hmany := Nat.eq_or_lt_of_le hsub.length_le
  · refine Or.inl (resolve_congr hext.name hext.path ?_ settings cache)
    rw [hsource]
    exact (hsub.eq_of_length hone).symm
  · exact Or.inr (resolve_many hne h hmany)

/-- **With the declarations in another order** a path resolves in the same way, or it is ambiguous
in both orders. A list of one element has no other order. -/
theorem resolve_of_reorders (hre : Reorders technology technology' library library') :
    technology'.resolve settings cache library' path =
        technology.resolve settings cache library path ∨
      ∃ sources sources', sources.Perm sources' ∧
        (technology.resolve settings cache library path).run tool machine =
          (.error (.ambiguousPath path technology.name sources), machine) ∧
        (technology'.resolve settings cache library' path).run tool machine =
          (.error (.ambiguousPath path technology.name sources'), machine) := by
  by_cases hrelative : path = "" ∨ path.toList.head? = some '/'
  · exact Or.inl (resolve_of_not_relative hrelative)
  obtain ⟨hne, h⟩ := not_or.1 hrelative
  have hperm := hre.matching (firstSegment path)
  match hsources : technology.matching library (firstSegment path) with
  | [] =>
      rw [hsources] at hperm
      refine Or.inl (resolve_congr hre.name hre.path ?_ settings cache)
      rw [hsources, hperm.symm.eq_nil]
  | [source] =>
      rw [hsources] at hperm
      refine Or.inl (resolve_congr hre.name hre.path ?_ settings cache)
      rw [hsources, hperm.symm.eq_singleton]
  | first :: second :: others =>
      have hmany : 2 ≤ (technology.matching library (firstSegment path)).length := by
        rw [hsources]
        exact Nat.le_add_left 2 others.length
      refine Or.inr ⟨_, _, hperm.map Source.describe, resolve_many hne h hmany, ?_⟩
      rw [← hre.name]
      exact resolve_many hne h (hperm.length_eq ▸ hmany)

/-- **No path is redirected in silence.** When more is declared, a path that resolves with and
without it resolves to the same path, and the machine is left the same. When the declarations are
put in another order, every path has the same outcome, but for the order in which the sources of an
ambiguous path are listed. -/
theorem resolve_never_redirects (technology technology' : Technology)
    (library library' : Option Library) (settings : Settings) (cache : Option Cache)
    (path : String) (tool : Tool) (machine : Machine) :
    let outcome := (technology.resolve settings cache library path).run tool machine
    let outcome' := (technology'.resolve settings cache library' path).run tool machine
    (Extends technology technology' library library' →
      ∀ resolved resolved', outcome.1 = .ok resolved → outcome'.1 = .ok resolved' →
        resolved' = resolved ∧ outcome'.2 = outcome.2) ∧
    (Reorders technology technology' library library' →
      outcome' = outcome ∨
      ∃ sources sources', sources.Perm sources' ∧
        outcome = (.error (.ambiguousPath path technology.name sources), machine) ∧
        outcome' = (.error (.ambiguousPath path technology.name sources'), machine)) := by
  refine ⟨fun hext resolved resolved' hok hok' => ?_, fun hre => ?_⟩
  · obtain hsame | hambiguous := resolve_of_extends hext hok
    · rw [hsame] at hok' ⊢
      exact ⟨Except.ok.inj (hok'.symm.trans hok), rfl⟩
    · rw [hambiguous] at hok'
      exact absurd hok' (by simp)
  · obtain hsame | hambiguous := resolve_of_reorders hre
    · exact Or.inl (by rw [hsame])
    · exact Or.inr hambiguous

/-- A technology whose only source is the install `ip`. -/
def ipAlone : Technology := ⟨"tech", ⟨"/tech"⟩, { installs := some [⟨"ip", ""⟩] }⟩

/-- The same with an install and a tarball besides, and with `io` declared twice. -/
def ipAmongOthers : Technology := ⟨"tech", ⟨"/tech"⟩,
  { installs := some [⟨"io", ""⟩, ⟨"ip", ""⟩], tarballs := some [⟨"io", "", none⟩] }⟩

/-- The same with the installs in the other order. -/
def ipFirst : Technology := ⟨"tech", ⟨"/tech"⟩,
  { installs := some [⟨"ip", ""⟩, ⟨"io", ""⟩], tarballs := some [⟨"io", "", none⟩] }⟩

/-- The install `ip` is found among others as it was alone, and in another order too. -/
theorem ip_stays :
    let idle : Tool := fun _ machine => (.ok (), machine)
    let blank : Machine := { disk := ⟨[], []⟩ }
    let outcome (technology : Technology) :=
      (technology.resolve {} none none "ip/a.lef").run idle blank
    (outcome ipAlone).1 = .ok ⟨"/tech/a.lef"⟩ ∧ (outcome ipAmongOthers).1 = .ok ⟨"/tech/a.lef"⟩ ∧
      (outcome ipAmongOthers).2 = (outcome ipAlone).2 ∧
      (outcome ipFirst = outcome ipAmongOthers ∨ ∃ sources sources', sources.Perm sources' ∧
        outcome ipAmongOthers = (.error (.ambiguousPath "ip/a.lef" "tech" sources), blank) ∧
        outcome ipFirst = (.error (.ambiguousPath "ip/a.lef" "tech" sources'), blank)) := by
  intro idle blank outcome
  have halone : (outcome ipAlone).1 = .ok ⟨"/tech/a.lef"⟩ := rfl
  have hamong : (outcome ipAmongOthers).1 = .ok ⟨"/tech/a.lef"⟩ := rfl
  have hextends : Extends ipAlone ipAmongOthers none none :=
    ⟨rfl, rfl, .cons _ (.refl _), List.nil_sublist _, .refl _⟩
  have hreorders : Reorders ipAmongOthers ipFirst none none :=
    ⟨rfl, rfl, .swap .., .refl _, .refl _⟩
  have hmore := (resolve_never_redirects ipAlone ipAmongOthers none none {} none "ip/a.lef"
    idle blank).1 hextends _ _ halone hamong
  have horder := (resolve_never_redirects ipAmongOthers ipFirst none none {} none "ip/a.lef"
    idle blank).2 hreorders
  exact ⟨halone, hamong, hmore.2, horder⟩

end Technology
end ProcessKit
