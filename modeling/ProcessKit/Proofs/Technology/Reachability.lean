/-
# Which declared sources can be reached

A path names its source by the text in front of its first slash. A source without a slash in its
name is reached by its name, as long as no other source has the same one (`matching_name`); one with
a slash is reached by no path at all (`exists_path_iff`). The schema keeps slashes out of the names
of tarballs (`Loaded.named`) but not out of those of installs, so that a document may declare an
install that nothing leads to (`slashed_install_unresolved`).

The name of a source is the path of an install or a tarball as it is declared, or the name of a
library prefix. They share one list, whatever kind they are of, so an install and a tarball of one
name stand in each other's way and the path is ambiguous.

To be reached is to be the only source that a path names. What following the source comes to
afterwards, with its setting and its cache, is not part of it: whatever else goes wrong, the path is
not one without a source (`resolve_ne_unresolvedPath`).
-/

import ProcessKit.Proofs.Technology.Failures
import ProcessKit.Proofs.Technology.Loading

namespace ProcessKit
namespace Technology

variable {technology : Technology} {settings : Settings} {cache : Option Cache}
  {library : Option Library} {tool : Tool} {machine : Machine}

/-- There is no slash in the text in front of the first slash. -/
theorem slash_not_mem_firstSegment (path : String) : '/' ∉ (firstSegment path).toList := by
  have hmem : firstSegment path ∈ Path.pieces path := by
    rw [pieces_eq]
    exact List.mem_cons_self ..
  obtain ⟨piece, hpiece, heq⟩ := List.mem_map.1 hmem
  rw [← heq, String.toList_ofList]
  exact Path.not_mem_of_mem_splitSlash hpiece

/-- A text without a slash is all in front of it. -/
theorem segments_of_not_mem {path : String} (h : '/' ∉ path.toList) :
    firstSegment path = path ∧ laterSegments path = [] := by
  have hpieces : firstSegment path :: laterSegments path = [path] := by
    rw [← pieces_eq, Path.pieces, Path.splitSlash_of_not_mem h, List.map_singleton,
      String.ofList_toList]
  exact List.cons.inj hpieces

/-- **A declared source is named by some path** exactly if there is no slash in its name. The name
itself is such a path then. -/
theorem exists_path_iff {source : Source} (h : source ∈ technology.sources none) :
    (∃ library path, source ∈ technology.matching library (firstSegment path)) ↔
      '/' ∉ source.name.toList := by
  constructor
  · rintro ⟨library, path, hmatching⟩
    rw [(mem_matching_iff.1 hmatching).2]
    exact slash_not_mem_firstSegment path
  · intro hslash
    exact ⟨none, source.name, mem_matching_iff.2 ⟨h, (segments_of_not_mem hslash).1.symm⟩⟩

/-- **A name that no other source has** names its source alone, whatever kinds of sources the others
are. -/
theorem matching_name {before after : List Source} {source : Source}
    (hsources : technology.sources library = before ++ source :: after)
    (hunique : ∀ other ∈ before ++ after, other.name ≠ source.name) :
    technology.matching library source.name = [source] := by
  have hothers : ∀ sources : List Source, (∀ other ∈ sources, other.name ≠ source.name) →
      sources.filter (fun other => other.name == source.name) = [] := by
    intro sources hne
    rw [List.filter_eq_nil_iff]
    intro other hmem
    simpa using hne other hmem
  rw [← candidates_eq, candidates, hsources, List.filter_append,
    List.filter_cons_of_pos (by simp),
    hothers before fun other hmem => hunique other (List.mem_append_left _ hmem),
    hothers after fun other hmem => hunique other (List.mem_append_right _ hmem), List.nil_append]

/-- A path with one source is never left without one. -/
theorem resolve_ne_unresolvedPath {path : String} (hne : path ≠ "")
    (hrelative : path.toList.head? ≠ some '/') {source : Source}
    (hone : technology.matching library (firstSegment path) = [source])
    (htool : tool.FailsAsProgram) (unresolved name : String) :
    ((technology.resolve settings cache library path).run tool machine).1 ≠
      .error (.unresolvedPath unresolved name) := by
  rw [resolve_one hne hrelative hone]
  cases hrun : (technology.resolveWith settings cache path (laterSegments path) source).run tool
      machine with
  | mk result machine' =>
      cases result with
      | ok resolved => simp [resolvedOn]
      | error error =>
          have herror := (fails_resolveWith path (laterSegments path) source).run htool
            (congrArg Prod.fst hrun)
          exact fun h => (herror unresolved name).1 (Except.error.inj h)

/-- **Every declared source with a name of its own is reached by it,** unless there is a slash in
the name. For a source of a document that is loaded, whose name no other source has:

* some path names it exactly if there is no slash in its name, and there is none in that of a
  tarball;
* then resolving its name gives the base directory of an install, or what is wrong with it, and the
  target of a tarball, or what is wrong with unpacking it, and never that no source was found. -/
theorem declared_source_reached (name : String) (dir : Path) (text : String) (tool : Tool)
    (machine : Machine) (technology : Technology)
    (hload : ((loadJson name dir text).run tool machine).1 = .ok technology)
    (before after : List Source) (source : Source)
    (hsources : technology.sources none = before ++ source :: after)
    (hunique : ∀ other ∈ before ++ after, other.name ≠ source.name) :
    ((∃ library path, source ∈ technology.matching library (firstSegment path)) ↔
      '/' ∉ source.name.toList) ∧
    (∀ tarball, source = .tarball tarball → '/' ∉ tarball.path.toList) ∧
    ('/' ∉ source.name.toList →
      ∀ (settings : Settings) (cache : Option Cache) (tool : Tool) (machine : Machine),
        let outcome := (technology.resolve settings cache none source.name).run tool machine
        (∀ install, source = .install install → outcome =
          match technology.baseDir settings install.baseVar with
          | .ok root => resolvedOn machine install.path root
          | .error error => (.error error, machine)) ∧
        (∀ tarball c, source = .tarball tarball → cache = some c → outcome =
          match (c.ensureExtracted technology settings tarball).run tool machine with
          | (.ok _, machine) =>
            resolvedOn machine tarball.path ⟨c.extractedDir.text ++ "/" ++ tarball.path⟩
          | (.error error, machine) => (.error error, machine)) ∧
        (tool.FailsAsProgram →
          ∀ path name, outcome.1 ≠ .error (.unresolvedPath path name))) := by
  have hnamed := ((yields_loadJson text).run hload).named
  have hdeclared : source ∈ technology.sources none := by
    rw [hsources]
    exact List.mem_append_right _ (List.mem_cons_self ..)
  refine ⟨exists_path_iff hdeclared, fun tarball heq => ?_,
    fun hslash settings cache tool machine => ?_⟩
  · obtain ⟨-, -, -, hslash⟩ :=
      isEntryName_iff.1 (hnamed.tarballs tarball (tarball_mem_sources.1 (heq ▸ hdeclared)))
    exact hslash
  have hrelative : source.name.toList.head? ≠ some '/' := fun hhead =>
    hslash (List.mem_of_head? hhead)
  have hone : technology.matching none (firstSegment source.name) = [source] := by
    rw [(segments_of_not_mem hslash).1]
    exact matching_name hsources hunique
  have hlater := (segments_of_not_mem hslash).2
  have hne : source.name ≠ "" := by
    cases source with
    | install install => exact hnamed.installs install (install_mem_sources.1 hdeclared)
    | tarball tarball =>
        exact (isEntryName_iff.1
          (hnamed.tarballs tarball (tarball_mem_sources.1 hdeclared))).1
    | libraryPrefix p => exact absurd hdeclared (by simp [sources])
  refine ⟨fun install heq => ?_, fun tarball c heq hcache => ?_,
    resolve_ne_unresolvedPath hne hrelative hone⟩
  · subst heq
    rw [resolve_install hne hrelative hone, hlater]
    rfl
  · subst heq hcache
    exact resolve_tarball hne hrelative hone c

/-- The document with the install `a/b` is accepted, but its install is not found under that
name, though its directory is the technology's own. -/
theorem slashed_install_unresolved :
    let idle : Tool := fun _ machine => (.ok (), machine)
    let blank : Machine := { disk := ⟨[], []⟩ }
    let text := "\x7b\"installs\": [\x7b\"path\": \"a/b\", \"base_var\": \"\"\x7d]\x7d"
    ∃ technology, ((loadJson "ex" ⟨"/ex"⟩ text).run idle blank).1 = .ok technology ∧
      technology.sources none = [.install ⟨"a/b", ""⟩] ∧
      technology.baseDir {} "" = .ok ⟨"/ex"⟩ ∧
      ((technology.resolve {} none none "a/b").run idle blank).1 =
        .error (.unresolvedPath "a/b" "ex") := by
  intro idle blank text
  have hload : ((loadJson "ex" ⟨"/ex"⟩ text).run idle blank).1.toOption.map
      (fun technology => (technology.name, technology.path, technology.sources none)) =
      some ("ex", ⟨"/ex"⟩, [.install ⟨"a/b", ""⟩]) := by decide +kernel
  obtain ⟨technology, hsome, hfields⟩ := Option.map_eq_some_iff.1 hload
  obtain ⟨hname, hrest⟩ := Prod.mk.inj hfields
  obtain ⟨hpath, hsources⟩ := Prod.mk.inj hrest
  have hnone : technology.matching none (firstSegment "a/b") = [] := by
    rw [← candidates_eq, candidates, hsources]
    decide
  refine ⟨technology, eq_ok_of_toOption hsome, hsources, ?_, ?_⟩
  · rw [baseDir, if_pos rfl, hpath]
  · rw [resolve_none (by decide) (by decide) hnone, hname]

/-- In a document with an install and a tarball, each is reached by its name: the install gives the
technology's own directory, and without a cache the tarball is missed for want of one, not for want
of a source. -/
theorem ip_and_io_reached :
    let idle : Tool := fun _ machine => (.ok (), machine)
    let blank : Machine := { disk := ⟨[], []⟩ }
    let text := "\x7b\"installs\": [\x7b\"path\": \"ip\", \"base_var\": \"\"\x7d], " ++
      "\"tarballs\": [\x7b\"path\": \"io\", \"base_var\": \"\"\x7d]\x7d"
    ∃ technology, ((loadJson "ex" ⟨"/ex"⟩ text).run idle blank).1 = .ok technology ∧
      (technology.resolve {} none none "ip").run idle blank = resolvedOn blank "ip" ⟨"/ex"⟩ ∧
      ∀ path name, ((technology.resolve {} none none "io").run idle blank).1 ≠
        .error (.unresolvedPath path name) := by
  intro idle blank text
  have hload : ((loadJson "ex" ⟨"/ex"⟩ text).run idle blank).1.toOption.map
      (fun technology => (technology.path, technology.sources none)) =
      some (⟨"/ex"⟩, [.install ⟨"ip", ""⟩, .tarball ⟨"io", "", none⟩]) := by decide +kernel
  obtain ⟨technology, hsome, hfields⟩ := Option.map_eq_some_iff.1 hload
  obtain ⟨hpath, hsources⟩ := Prod.mk.inj hfields
  have hok := eq_ok_of_toOption hsome
  have hidle : idle.FailsAsProgram := fun _ _ _ h => absurd h (by simp [idle])
  have hinstall := ((declared_source_reached "ex" ⟨"/ex"⟩ text idle blank technology hok []
    [.tarball ⟨"io", "", none⟩] (.install ⟨"ip", ""⟩) hsources (by decide)).2.2 (by decide) {} none
    idle blank).1 ⟨"ip", ""⟩ rfl
  have htarball := ((declared_source_reached "ex" ⟨"/ex"⟩ text idle blank technology hok
    [.install ⟨"ip", ""⟩] [] (.tarball ⟨"io", "", none⟩) hsources (by decide)).2.2 (by decide) {}
    none idle blank).2.2 hidle
  rw [baseDir, if_pos rfl, hpath] at hinstall
  exact ⟨technology, hok, hinstall, htarball⟩

end Technology
end ProcessKit
