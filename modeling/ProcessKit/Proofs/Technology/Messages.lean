/-
# What the message of a failure says

When a path does not resolve, something is to blame: the path itself, the base variable of its only
source, or the path of its only tarball. `Blames` tells which, for every failure that is about
resolving, and the message mentions it (`Blames.mentions`). Most of these messages mention the
technology as well (`Blames.mentions_name`). The refusal of a path and the refusal of a setting do
not, because neither knows of a technology: that of an empty path is the same for every technology
(`refusals_omit_name`).

The archive tool may fail in any way it likes. What is said here of a run is said as long as the
tool fails in it as a program does.

A message is a text, and to mention something is to have it as a part (`Mentions`). So the
statements are about what a user reads, not about the fields of an error. Failures of the file
system are left out (`OfResolution`): they say what could not be done and where, and need not have
to do with the path that was asked for.
-/

import ProcessKit.Proofs.Cache.Retrying
import ProcessKit.Proofs.Technology.Failures

namespace ProcessKit

/-- A text has another one inside it. -/
def Mentions (text part : String) : Prop := part.toList <:+: text.toList

instance (text part : String) : Decidable (Mentions text part) :=
  inferInstanceAs (Decidable (part.toList <:+: text.toList))

/-- A text mentions a part of it that others come after. -/
theorem mentions_before (before part : String) (after : List String) :
    Mentions (after.foldl (· ++ ·) (before ++ part)) part := by
  have hbegins : ∃ rest, after.foldl (· ++ ·) (before ++ part) = before ++ part ++ rest := by
    generalize before ++ part = text
    induction after generalizing text with
    | nil => exact ⟨"", String.append_empty.symm⟩
    | cons next after ih =>
        obtain ⟨rest, hrest⟩ := ih (text ++ next)
        exact ⟨next ++ rest, hrest.trans String.append_assoc⟩
  obtain ⟨rest, hrest⟩ := hbegins
  refine ⟨before.toList, rest.toList, ?_⟩
  rw [hrest, String.toList_append, String.toList_append]

namespace Error

/-- The failures that are about resolving a path, rather than about the machine. -/
def OfResolution : Error → Prop
  | .pathInvalid .. | .unresolvedPath .. | .ambiguousPath .. | .settingNotFound ..
  | .settingInvalid .. | .cacheDirNotSet .. | .extraction .. => True
  | _ => False

/-- The refusals of a path and of a setting, which know of no technology. -/
def IsRefusal : Error → Prop
  | .pathInvalid .. | .settingInvalid .. => True
  | _ => False

end Error

/-- The base variable of a source, if it has one. -/
def Source.baseVar? : Source → Option String
  | .install i => some i.baseVar
  | .tarball t => some t.baseVar
  | .libraryPrefix _ => none

/-- **A run fails** with what the action may fail with, if every failure of the tool in this run is
that of a program. -/
theorem Action.Fails.run_of_toolFails {α : Type} {P : Error → Prop} {action : Action α}
    (h : action.Fails P) {tool : Tool} {machine : Machine}
    (hprogram : ∀ error, action.ToolFails tool machine error → error.OfProgram) {error : Error}
    (herror : (action.run tool machine).1 = .error error) : P error := by
  induction action generalizing machine with
  | done value => exact absurd herror (by simp [Action.run])
  | fail error' =>
      obtain rfl := Except.error.inj herror
      exact h
  | ask r next ih =>
      have hreply : r.MayGet (machine.perform tool r).1 := by
        cases r with
        | tool call =>
            intro toolError hresult
            exact hprogram toolError ⟨call, machine, List.mem_cons_self .., hresult⟩
        | _ => trivial
      refine ih _ (h _ hreply) (fun toolError hfails => ?_) herror
      obtain ⟨call, met, hmem, hresult⟩ := hfails
      exact hprogram toolError ⟨call, met, List.mem_cons_of_mem _ hmem, hresult⟩

namespace Technology

variable {technology : Technology} {settings : Settings} {cache : Option Cache}
  {library : Option Library} {path : String} {tool : Tool} {machine : Machine} {error : Error}

/-- **What is to blame** for a failure of resolving a path. -/
inductive Blames (technology : Technology) (library : Option Library) (path : String) :
    Error → String → Prop
  | empty (reason : String) (h : path = "") :
      Blames technology library path (.pathInvalid path reason) path
  | unresolved : Blames technology library path (.unresolvedPath path technology.name) path
  | ambiguous (sources : List String) :
      Blames technology library path (.ambiguousPath path technology.name sources) path
  | noCache : Blames technology library path (.cacheDirNotSet path technology.name) path
  | notFound {source : Source} {key : String}
      (honly : technology.matching library (firstSegment path) = [source])
      (hkey : source.baseVar? = some key) :
      Blames technology library path (.settingNotFound key technology.name) key
  | noText {source : Source} {key : String} (reason : String)
      (honly : technology.matching library (firstSegment path) = [source])
      (hkey : source.baseVar? = some key) :
      Blames technology library path (.settingInvalid key reason) key
  | refused {tarball : Tarball}
      (honly : technology.matching library (firstSegment path) = [.tarball tarball]) :
      Blames technology library path tarball.refusal tarball.path
  | extraction {tarball : Tarball} (command : String) (code : Option Int) (stderr : String)
      (honly : technology.matching library (firstSegment path) = [.tarball tarball]) :
      Blames technology library path
        (.extraction tarball.path technology.name command code stderr) tarball.path

/-- **The message mentions** what is to blame. One case for each way to fail; the text stands
between fixed ones in each of them. -/
theorem Blames.mentions {subject : String} (h : Blames technology library path error subject) :
    Mentions error.message subject := by
  cases h with
  | empty => exact mentions_before "Invalid path: " path [_, _]
  | unresolved => exact mentions_before "Path " path [_, _]
  | ambiguous => exact mentions_before "Path " path [_, _, _, _]
  | noCache =>
      exact mentions_before ("Cache directory not set for technology " ++ technology.name ++
        " (needed to resolve ") path [_]
  | notFound => exact mentions_before "Setting " subject [_, _, _]
  | noText => exact mentions_before "Invalid setting " subject [_, _]
  | @refused tarball => exact mentions_before "Invalid path: " tarball.path [_, _]
  | @extraction tarball =>
      exact mentions_before "Extracting tarball " tarball.path [_, _, _, _, _, _, _, _]

/-- **The message mentions the technology,** unless it is a refusal. All other errors about
resolving carry its name. -/
theorem Blames.mentions_name {subject : String} (h : Blames technology library path error subject)
    (hrefusal : ¬ error.IsRefusal) : Mentions error.message technology.name := by
  cases h with
  | empty => exact absurd trivial hrefusal
  | unresolved =>
      exact mentions_before ("Path " ++ path ++
        " did not match any tarballs, installs or library prefixes in technology ")
        technology.name []
  | ambiguous =>
      exact mentions_before ("Path " ++ path ++
        " matched more than one path source in technology ") technology.name [_, _]
  | noCache =>
      exact mentions_before "Cache directory not set for technology " technology.name [_, _, _]
  | notFound =>
      exact mentions_before ("Setting " ++ subject ++ " not found (required by technology ")
        technology.name [_]
  | noText => exact absurd trivial hrefusal
  | refused => exact absurd trivial hrefusal
  | @extraction tarball =>
      exact mentions_before ("Extracting tarball " ++ tarball.path ++ " for technology ")
        technology.name [_, _, _, _, _, _]

/-- A base directory that cannot be determined is put down to the base variable. -/
theorem exists_blames_of_baseDir {source : Source} {key : String}
    (honly : technology.matching library (firstSegment path) = [source])
    (hkey : source.baseVar? = some key)
    (herror : technology.baseDir settings key = .error error) :
    ∃ subject, Blames technology library path error subject := by
  obtain rfl | ⟨reason, rfl⟩ := baseDir_eq_error herror
  · exact ⟨key, .notFound honly hkey⟩
  · exact ⟨key, .noText reason honly hkey⟩

/-- **Following the only source** fails with something to blame, as far as it is about resolving. -/
theorem fails_resolveWith_blames {source : Source}
    (honly : technology.matching library (firstSegment path) = [source]) (rest : List String) :
    (technology.resolveWith settings cache path rest source).Fails fun error =>
      error.OfResolution → ∃ subject, Blames technology library path error subject := by
  cases source with
  | install install =>
      refine Action.Fails.bind (Action.fails_ofExcept fun error herror _ => ?_) fun _ =>
        Action.fails_pure _
      exact exists_blames_of_baseDir honly rfl herror
  | libraryPrefix p => exact Action.fails_pure _
  | tarball tarball =>
      cases cache with
      | none => exact Action.fails_fail.2 fun _ => ⟨path, .noCache⟩
      | some c =>
          refine Action.Fails.bind ?_ fun _ => Action.fails_pure _
          refine (Cache.fails_ensureExtracted c technology settings tarball).mono ?_
          intro error hfailure hkind
          cases hfailure with
          | refused => exact ⟨tarball.path, .refused honly⟩
          | noBase hbase => exact exists_blames_of_baseDir honly rfl hbase
          | tool command code stderr =>
              exact ⟨tarball.path, .extraction command code stderr honly⟩
          | io context => exact hkind.elim
          | notStarted command => exact hkind.elim

/-- **Resolving** fails with something to blame, as far as it is about resolving. The cases are
those of the resolution itself: the empty path, no source, several, or the only one. -/
theorem fails_resolve_blames (technology : Technology) (settings : Settings)
    (cache : Option Cache) (library : Option Library) (path : String) :
    (technology.resolve settings cache library path).Fails fun error =>
      error.OfResolution → ∃ subject, Blames technology library path error subject := by
  rw [resolve, pieces_eq]
  split_ifs with hempty
  · exact Action.fails_fail.2 fun _ => ⟨path, .empty _ hempty⟩
  · exact Action.fails_pure _
  refine Action.Fails.bind ?_ fun _ => Action.fails_log.bind fun _ => Action.fails_pure _
  rw [resolveSegments, candidates_eq]
  split
  · exact Action.fails_fail.2 fun _ => ⟨path, .unresolved⟩
  · rename_i source honly
    exact fails_resolveWith_blames honly _
  · exact Action.fails_fail.2 fun _ => ⟨path, .ambiguous _⟩

/-- **A failure of resolving says what and where.** As long as the tool fails in the run as a
program does, every failure that is about resolving has something to blame: the path, the base
variable of the only source, or the path of the only tarball. Its message mentions that, and the
technology too, unless the failure is the refusal of a path or of a setting. -/
theorem resolve_failure_mentions (technology : Technology) (settings : Settings)
    (cache : Option Cache) (library : Option Library) (path : String) (tool : Tool)
    (machine : Machine) (error : Error)
    (herror : ((technology.resolve settings cache library path).run tool machine).1 = .error error)
    (hkind : error.OfResolution)
    (hprogram : ∀ toolError, (technology.resolve settings cache library path).ToolFails tool
      machine toolError → toolError.OfProgram) :
    ∃ subject, Blames technology library path error subject ∧ Mentions error.message subject ∧
      (¬ error.IsRefusal → Mentions error.message technology.name) := by
  have hfails := fails_resolve_blames technology settings cache library path
  obtain ⟨subject, hblames⟩ := hfails.run_of_toolFails hprogram herror hkind
  exact ⟨subject, hblames, hblames.mentions, hblames.mentions_name⟩

/-- The refusals of an empty path and of a setting that is a list are about resolving, and neither
mentions the technology `asap7`. -/
theorem refusals_omit_name :
    let idle : Tool := fun _ machine => (.ok (), machine)
    let blank : Machine := { disk := ⟨[], []⟩ }
    let asap7 : Technology := ⟨"asap7", ⟨"/asap7"⟩, { installs := some [⟨"vendor", "VENDOR"⟩] }⟩
    let settings := Settings.ofPairs [("VENDOR", .array [])]
    let outcome path := ((asap7.resolve settings none none path).run idle blank).1
    ∀ path ∈ ["", "vendor/lef"], ∃ error, outcome path = .error error ∧ error.OfResolution ∧
      ¬ Mentions error.message asap7.name := by
  intro idle blank asap7 settings outcome path hpath
  obtain rfl | hpath := List.mem_cons.1 hpath
  · exact ⟨.pathInvalid "" "path must not be empty", rfl, trivial, by decide +kernel⟩
  · obtain rfl := List.mem_singleton.1 hpath
    exact ⟨.settingInvalid "VENDOR" "expected a string, found a list or table", rfl, trivial,
      by decide +kernel⟩

/-- When `tar` does not unpack the tarball `stdcell` of `asap7`, the message mentions both. -/
theorem broken_stdcell_mentioned :
    let asap7 : Technology :=
      ⟨"asap7", ⟨"/asap7"⟩, { tarballs := some [⟨"stdcell", "", none⟩] }⟩
    let resolving := asap7.resolve {} (some Cache.firstCache) none "stdcell/lef"
    let broken := Cache.brokenTool "part" Cache.tarError
    let error := Error.extraction "stdcell" "asap7" "tar" (some 2) "unexpected EOF"
    (resolving.run broken Cache.emptyCache).1 = .error error ∧ error.OfResolution ∧
      (∀ toolError, resolving.ToolFails broken Cache.emptyCache toolError →
        toolError.OfProgram) ∧
      Mentions error.message "stdcell" ∧ Mentions error.message "asap7" := by
  intro asap7 resolving broken error
  have herror : (resolving.run broken Cache.emptyCache).1 = .error error := by decide +kernel
  have hprogram : ∀ toolError, resolving.ToolFails broken Cache.emptyCache toolError →
      toolError.OfProgram := by
    rintro toolError ⟨call, met, -, hresult⟩
    obtain rfl : Cache.tarError = toolError := Except.error.inj hresult
    trivial
  obtain ⟨subject, hblames, hsubject, hname⟩ := resolve_failure_mentions asap7 {}
    (some Cache.firstCache) none "stdcell/lef" broken Cache.emptyCache error herror trivial hprogram
  obtain rfl : subject = "stdcell" := by
    generalize hshape : error = found at hblames
    cases hblames with
    | extraction => exact (Error.extraction.inj hshape).1.symm
    | _ => exact absurd hshape (by simp [error, Tarball.refusal])
  exact ⟨herror, trivial, hprogram, hsubject, hname id⟩

end Technology
end ProcessKit
