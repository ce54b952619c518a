/-
# What a path resolves to

A relative path is cut at its first slash. What is in front of it names the sources of the path, and
the rest is looked up in the only one of them. `matching` lists these sources as the documents
declare them, each kind by its own name, and `resolve_classifies` says what becomes of a path for
every way in which that list can look.

There is a lemma for each case, from the empty path to the library prefix, and the theorem is no
more than their list. A case says what the run comes to as a whole: its result and the machine that
it leaves. In all but one the machine is the one that the path met, with a line or two in its log
(`resolve_quiet`); only a tarball with a cache at hand may have something unpacked.

Installs come first in the list, then tarballs, then library prefixes. The order shows in the
message about an ambiguous path and nowhere else.
-/

import ProcessKit.Proofs.Host.Run
import ProcessKit.Proofs.Path
import ProcessKit.Technology.Resolution

namespace ProcessKit
namespace Technology

variable {technology : Technology} {settings : Settings} {cache : Option Cache}
  {library : Option Library} {tool : Tool} {machine machine' : Machine}

/-- The text in front of the first slash. -/
def firstSegment (path : String) : String := String.ofList (path.toList.takeWhile (· != '/'))

/-- The segments behind the first slash, if there is one. -/
def laterSegments (path : String) : List String :=
  match path.toList.dropWhile (· != '/') with
  | [] => []
  | _ :: rest => Path.pieces (String.ofList rest)

/-- The sources that a segment names, each kind by its own name, in the order of declaration. -/
def matching (technology : Technology) (library : Option Library) (segment : String) :
    List Source :=
  (technology.installs.filter (·.path == segment)).map .install ++
    (technology.tarballs.filter (·.path == segment)).map .tarball ++
    (((library.map Library.extraPrefixes).getD []).filter (·.name == segment)).map .libraryPrefix

/-- The candidates for a first segment are the sources of that name, in their order. -/
theorem candidates_eq (technology : Technology) (library : Option Library) (segment : String) :
    technology.candidates library segment = technology.matching library segment := by
  rw [candidates, sources, matching, List.filter_append, List.filter_append, List.filter_map,
    List.filter_map, List.filter_map]
  rfl

/-- The sources that a segment names are those in scope that have it for their name. -/
theorem mem_matching_iff {segment : String} {source : Source} :
    source ∈ technology.matching library segment ↔
      source ∈ technology.sources library ∧ source.name = segment := by
  rw [← candidates_eq, candidates, List.mem_filter, beq_iff_eq]

/-- The installs among the sources are those that are declared. A library adds none. -/
theorem install_mem_sources {install : Install} :
    .install install ∈ technology.sources library ↔ install ∈ technology.installs := by
  simp [sources]

/-- The tarballs among the sources are those that are declared. A library adds none. -/
theorem tarball_mem_sources {tarball : Tarball} :
    .tarball tarball ∈ technology.sources library ↔ tarball ∈ technology.tarballs := by
  simp [sources]

/-- A tarball that a segment names is declared. -/
theorem mem_tarballs_of_matching {segment : String} {tarball : Tarball}
    (h : .tarball tarball ∈ technology.matching library segment) :
    tarball ∈ technology.tarballs :=
  tarball_mem_sources.1 (mem_matching_iff.1 h).1

/-- A text is cut at its first slash, and from there on at every slash. -/
theorem splitSlash_eq (cs : List Char) :
    Path.splitSlash cs = cs.takeWhile (· != '/') ::
      match cs.dropWhile (· != '/') with
      | [] => []
      | _ :: rest => Path.splitSlash rest := by
  induction cs with
  | nil => rfl
  | cons c cs ih =>
      rw [Path.splitSlash]
      by_cases hc : c = '/'
      · subst hc
        rfl
      · have hb : (c != '/') = true := bne_iff_ne.2 hc
        rw [if_neg hc, ih, List.takeWhile_cons, List.dropWhile_cons, hb]
        rfl

/-- The pieces of a path are its first segment and the later ones. -/
theorem pieces_eq (path : String) :
    Path.pieces path = firstSegment path :: laterSegments path := by
  rw [Path.pieces, splitSlash_eq, List.map_cons, firstSegment, laterSegments]
  cases path.toList.dropWhile (· != '/') with
  | nil => rfl
  | cons c rest =>
      dsimp only
      rw [Path.pieces, String.toList_ofList]

/-- The machine on which a path has been resolved, which logs what it was resolved to. -/
def resolvedOn (machine : Machine) (path : String) (resolved : Path) :
    Except Error Path × Machine :=
  (.ok resolved, { machine with
    log := machine.log ++ [(.debug, "Resolved " ++ path ++ " to " ++ resolved.text)] })

/-- The path of everything unpacked, with a relative path behind it. -/
theorem join_extractedDir (cache : Cache) {path : Path} (h : path.isAbsolute = false) :
    cache.extractedDir.join path = ⟨cache.extractedDir.text ++ "/" ++ path.text⟩ := by
  obtain ⟨cs, c, hc, hslash⟩ :=
    Path.exists_chars_join (show isEntryName "extracted" = true by decide) cache.dir
  have hlast : cache.extractedDir.chars.getLast? = some c := by
    rw [Cache.extractedDir, hc, List.getLast?_concat]
  have hempty : cache.extractedDir.text.isEmpty = false := by
    rw [← Bool.not_eq_true, String.isEmpty_iff]
    exact Path.text_join_ne (by decide) _
  rw [Path.join, h, if_neg Bool.false_ne_true, hlast, hempty, if_neg]
  simpa using hslash

section

variable {path : String}

/-- An empty path is refused before anything is looked for. -/
theorem resolve_empty (h : path = "") :
    (technology.resolve settings cache library path).run tool machine =
      (.error (.pathInvalid path "path must not be empty"), machine) := by
  rw [resolve, if_pos h, Action.run_fail]

/-- An absolute path resolves to itself, whatever is declared. -/
theorem resolve_absolute (h : path.toList.head? = some '/') :
    (technology.resolve settings cache library path).run tool machine =
      (.ok ⟨path⟩, machine) := by
  have hne : path ≠ "" := by
    rintro rfl
    exact absurd h (by simp)
  have habs : (Path.mk path).isAbsolute = true := beq_iff_eq.2 h
  rw [resolve, if_neg hne, if_pos habs, Action.run_pure]

/-- **What a relative path resolves to** is what its sources give, and the machine is the one that
they leave. -/
theorem resolve_relative (hne : path ≠ "") (h : path.toList.head? ≠ some '/') :
    (technology.resolve settings cache library path).run tool machine =
      match (technology.resolveSegments settings cache library path (firstSegment path)
        (laterSegments path)).run tool machine with
      | (.ok resolved, machine) => resolvedOn machine path resolved
      | (.error error, machine) => (.error error, machine) := by
  have habs : (Path.mk path).isAbsolute = false := beq_eq_false_iff_ne.2 h
  rw [resolve, if_neg hne, habs, if_neg Bool.false_ne_true, pieces_eq]
  dsimp only
  rw [Action.run_bind]
  cases (technology.resolveSegments settings cache library path (firstSegment path)
      (laterSegments path)).run tool machine with
  | mk result machine =>
      cases result with
      | ok resolved => rfl
      | error error => rfl

/-- A path whose first segment matches no source does not resolve. -/
theorem resolve_none (hne : path ≠ "") (h : path.toList.head? ≠ some '/')
    (hsources : technology.matching library (firstSegment path) = []) :
    (technology.resolve settings cache library path).run tool machine =
      (.error (.unresolvedPath path technology.name), machine) := by
  rw [resolve_relative hne h, resolveSegments, candidates_eq, hsources, Action.run_fail]

/-- Several sources of one segment are refused, whatever they are. -/
theorem resolve_many (hne : path ≠ "") (h : path.toList.head? ≠ some '/')
    (hsources : 2 ≤ (technology.matching library (firstSegment path)).length) :
    (technology.resolve settings cache library path).run tool machine =
      (.error (.ambiguousPath path technology.name
        ((technology.matching library (firstSegment path)).map Source.describe)), machine) := by
  have hfail : technology.resolveSegments settings cache library path (firstSegment path)
      (laterSegments path) = .fail (.ambiguousPath path technology.name
        ((technology.matching library (firstSegment path)).map Source.describe)) := by
    rw [resolveSegments, candidates_eq]
    split
    · rename_i hnil
      rw [hnil] at hsources
      exact absurd hsources (by decide)
    · rename_i source hone
      rw [hone] at hsources
      exact absurd hsources (by simp)
    · rfl
  rw [resolve_relative hne h, hfail, Action.run_fail]

/-- The only source of a segment is followed. -/
theorem resolve_one (hne : path ≠ "") (h : path.toList.head? ≠ some '/') {source : Source}
    (hsource : technology.matching library (firstSegment path) = [source]) :
    (technology.resolve settings cache library path).run tool machine =
      match (technology.resolveWith settings cache path (laterSegments path) source).run tool
        machine with
      | (.ok resolved, machine) => resolvedOn machine path resolved
      | (.error error, machine) => (.error error, machine) := by
  rw [resolve_relative hne h, resolveSegments, candidates_eq, hsource]

/-- A path below an install resolves to the same path below the directory of the install, if that
can be determined. -/
theorem resolve_install (hne : path ≠ "") (h : path.toList.head? ≠ some '/') {install : Install}
    (hsource : technology.matching library (firstSegment path) = [.install install]) :
    (technology.resolve settings cache library path).run tool machine =
      match technology.baseDir settings install.baseVar with
      | .ok root => resolvedOn machine path (root.extend (laterSegments path))
      | .error error => (.error error, machine) := by
  rw [resolve_one hne h hsource, resolveWith, Action.run_bind, Action.run_ofExcept]
  cases technology.baseDir settings install.baseVar <;> rfl

/-- A path into a tarball does not resolve without a cache. -/
theorem resolve_tarball_of_none (hne : path ≠ "") (h : path.toList.head? ≠ some '/')
    {tarball : Tarball}
    (hsource : technology.matching library (firstSegment path) = [.tarball tarball]) :
    (technology.resolve settings none library path).run tool machine =
      (.error (.cacheDirNotSet path technology.name), machine) := by
  rw [resolve_one hne h hsource, resolveWith, Action.run_fail]

/-- A path into a tarball has the tarball unpacked first. Then it resolves to the same path among
what is extracted. -/
theorem resolve_tarball (hne : path ≠ "") (h : path.toList.head? ≠ some '/') {tarball : Tarball}
    (hsource : technology.matching library (firstSegment path) = [.tarball tarball])
    (c : Cache) :
    (technology.resolve settings (some c) library path).run tool machine =
      match (c.ensureExtracted technology settings tarball).run tool machine with
      | (.ok _, machine) => resolvedOn machine path ⟨c.extractedDir.text ++ "/" ++ path⟩
      | (.error error, machine) => (.error error, machine) := by
  rw [resolve_one hne h hsource, resolveWith, Action.run_bind]
  cases (c.ensureExtracted technology settings tarball).run tool machine with
  | mk result machine =>
      cases result with
      | ok target =>
          dsimp only
          rw [Action.run_pure, join_extractedDir c (beq_eq_false_iff_ne.2 h)]
      | error error => rfl

/-- A path with a prefix of the library resolves to what the prefix makes of the later segments. -/
theorem resolve_libraryPrefix (hne : path ≠ "") (h : path.toList.head? ≠ some '/')
    {p : LibraryPrefix}
    (hsource : technology.matching library (firstSegment path) = [.libraryPrefix p]) :
    (technology.resolve settings cache library path).run tool machine =
      resolvedOn machine path (p.prepend (Path.extend ⟨""⟩ (laterSegments path))) := by
  rw [resolve_one hne h hsource, resolveWith, Action.run_pure]

/-- **Nothing but a tarball with a cache** changes the disk or calls the tool. All other outcomes
are found by looking at the declarations and the settings. -/
theorem resolve_quiet
    (hquiet : ∀ tarball c, path ≠ "" → path.toList.head? ≠ some '/' →
      technology.matching library (firstSegment path) = [.tarball tarball] → cache ≠ some c) :
    ((technology.resolve settings cache library path).run tool machine).2.disk = machine.disk ∧
      ((technology.resolve settings cache library path).run tool machine).2.calls =
        machine.calls := by
  by_cases hne : path = ""
  · rw [resolve_empty hne]
    exact ⟨rfl, rfl⟩
  by_cases h : path.toList.head? = some '/'
  · rw [resolve_absolute h]
    exact ⟨rfl, rfl⟩
  match hsources : technology.matching library (firstSegment path) with
  | [] =>
      rw [resolve_none hne h hsources]
      exact ⟨rfl, rfl⟩
  | [.install install] =>
      rw [resolve_install hne h hsources]
      cases technology.baseDir settings install.baseVar <;> exact ⟨rfl, rfl⟩
  | [.tarball tarball] =>
      cases cache with
      | none =>
          rw [resolve_tarball_of_none hne h hsources]
          exact ⟨rfl, rfl⟩
      | some c => exact absurd rfl (hquiet tarball c hne h hsources)
  | [.libraryPrefix p] =>
      rw [resolve_libraryPrefix hne h hsources]
      exact ⟨rfl, rfl⟩
  | _ :: _ :: _ =>
      rw [resolve_many hne h (by rw [hsources]; simp)]
      exact ⟨rfl, rfl⟩

end

/-- **Resolution** of every path, by the sources that its first segment names:

* the empty path is refused, and an absolute one stands for itself;
* no source, or more than one, is an error that names them all, in order;
* an install gives its base directory with the later segments behind it, or the error of the base
  directory;
* a tarball needs a cache; it is unpacked, and then gives the path below everything unpacked;
* a prefix prepends its root to the later segments.

Nothing but a tarball with a cache changes the disk or calls the tool. -/
theorem resolve_classifies (technology : Technology) (settings : Settings) (cache : Option Cache)
    (library : Option Library) (path : String) (tool : Tool) (machine : Machine) :
    let sources := technology.matching library (firstSegment path)
    let outcome := (technology.resolve settings cache library path).run tool machine
    (path = "" → outcome = (.error (.pathInvalid path "path must not be empty"), machine)) ∧
    (path.toList.head? = some '/' → outcome = (.ok ⟨path⟩, machine)) ∧
    (path ≠ "" → path.toList.head? ≠ some '/' →
      (sources = [] → outcome = (.error (.unresolvedPath path technology.name), machine)) ∧
      (2 ≤ sources.length → outcome =
        (.error (.ambiguousPath path technology.name (sources.map Source.describe)), machine)) ∧
      (∀ install, sources = [.install install] → outcome =
        match technology.baseDir settings install.baseVar with
        | .ok root => resolvedOn machine path (root.extend (laterSegments path))
        | .error error => (.error error, machine)) ∧
      (∀ tarball, sources = [.tarball tarball] → cache = none →
        outcome = (.error (.cacheDirNotSet path technology.name), machine)) ∧
      (∀ tarball c, sources = [.tarball tarball] → cache = some c → outcome =
        match (c.ensureExtracted technology settings tarball).run tool machine with
        | (.ok _, machine) => resolvedOn machine path ⟨c.extractedDir.text ++ "/" ++ path⟩
        | (.error error, machine) => (.error error, machine)) ∧
      ∀ p, sources = [.libraryPrefix p] → outcome =
        resolvedOn machine path (p.prepend (Path.extend ⟨""⟩ (laterSegments path)))) ∧
    ((∀ tarball c, path ≠ "" → path.toList.head? ≠ some '/' →
        sources = [.tarball tarball] → cache ≠ some c) →
      outcome.2.disk = machine.disk ∧ outcome.2.calls = machine.calls) := by
  refine ⟨resolve_empty, resolve_absolute, fun hne h => ⟨resolve_none hne h, resolve_many hne h,
    fun _ => resolve_install hne h, ?_, ?_, fun _ => resolve_libraryPrefix hne h⟩, resolve_quiet⟩
  · rintro tarball hsource rfl
    exact resolve_tarball_of_none hne h hsource
  · rintro tarball c hsource rfl
    exact resolve_tarball hne h hsource c

end Technology
end ProcessKit
