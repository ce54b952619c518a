/-
# Resolving paths on the command line

Paths are resolved one after the other, each on the machine that the one before it left, and a line
is printed for each (`Resolving`). The first path that does not resolve ends the command
(`run_resolveEach`). All that a library at hand adds to the scope of a path is its extra prefixes,
and a declared library has none, so that it makes no difference which one is named
(`resolve_declared_library`). The cache is never missed, because it is made whenever a tarball is
declared (`fails_resolve`). `resolve_in_order` puts this together.

`Resolving` is a run in which every path resolves, written as an inductive predicate, so that a
command that stops at a path has such a run of the paths before it. What was printed by then is the
list of their results (`Resolving.output_eq`), which is what the command leaves on its output in the
end, whether it fails or not.

A library may be named on the command line. One that is not declared is an error before anything is
resolved, and prefixes that are given with it are checked there as well
(`exists_of_scopedLibrary_eq_error`). This comes before the cache is made.
-/

import ProcessKit.Command.Report
import ProcessKit.Proofs.Command.Selection
import ProcessKit.Proofs.Technology.Failures
import ProcessKit.Proofs.Technology.Redirect
import ProcessKit.Proofs.Technology.Requests

namespace ProcessKit

namespace Technology

variable {technology : Technology} {library library' : Option Library}

/-- The sources of a path depend on the extra prefixes of the library, and on nothing else of it. -/
theorem matching_of_prefixesOf (h : prefixesOf library' = prefixesOf library) (segment : String) :
    technology.matching library' segment = technology.matching library segment := by
  unfold matching
  rw [show ((library'.map Library.extraPrefixes).getD []) = _ from h]
  rfl

end Technology

namespace Outcome

/-- The exit is a success exactly if there was no error. -/
@[simp] theorem exitCode_ofResult {result : Except Error Unit} {output shown : List String} :
    (ofResult result output shown).exitCode = 0 ↔ result = .ok () := by
  cases result <;> simp [ofResult]

/-- What was printed does not depend on how the command ended: the paths that were resolved before
an error stay printed. -/
@[simp] theorem output_ofResult (result : Except Error Unit) (output shown : List String) :
    (ofResult result output shown).output = output := by
  cases result <;> rfl

end Outcome

namespace Context

open Technology (prefixesOf)

variable {context : Context} {cache : Option Cache} {library library' : Option Library}
  {tool : Tool} {machine last : Machine} {paths done : List String} {resolved : List Path}

/-- **Paths resolved one after the other,** each on the machine that the one before it left, with a
line printed for each. -/
inductive Resolving (context : Context) (cache : Option Cache) (library : Option Library)
    (tool : Tool) : Machine → List String → List Path → Machine → Prop
  | nil (machine : Machine) : Resolving context cache library tool machine [] [] machine
  | cons {machine next last : Machine} {path : String} {paths : List String} {first : Path}
      {resolved : List Path}
      (hfirst : (context.technology.resolve context.settings cache library path).run tool
        machine = (.ok first, next))
      (hrest : Resolving context cache library tool
        { next with output := next.output ++ [first.text] } paths resolved last) :
      Resolving context cache library tool machine (path :: paths) (first :: resolved) last

/-- There is one result for each path. -/
theorem Resolving.length_eq (h : Resolving context cache library tool machine done resolved last) :
    resolved.length = done.length := by
  induction h with
  | nil => rfl
  | cons _ _ ih => exact congrArg Nat.succ ih

/-- **What is printed** is the results, line by line, behind what was printed before. -/
theorem Resolving.output_eq (h : Resolving context cache library tool machine done resolved last)
    (htool : tool.Silent) : last.output = machine.output ++ resolved.map Path.text := by
  induction h with
  | nil => rw [List.map_nil, List.append_nil]
  | cons hfirst _ ih =>
      rw [ih, List.map_cons, Technology.output_of_resolve htool hfirst, List.append_assoc,
        List.singleton_append]

/-- **A list of paths** is resolved up to the first path that does not resolve, whose error is the
one of the command. By induction on the list, with the run of those before it as an invariant. -/
theorem run_resolveEach (context : Context) (cache : Option Cache) (library : Option Library)
    (tool : Tool) (machine : Machine) (paths : List String) :
    ∃ done rest resolved last, paths = done ++ rest ∧
      Resolving context cache library tool machine done resolved last ∧
      (rest = [] ∧ (context.resolveEach cache library paths).run tool machine = (.ok (), last) ∨
        ∃ path later error failed, rest = path :: later ∧
          (context.technology.resolve context.settings cache library path).run tool last =
            (.error error, failed) ∧
          (context.resolveEach cache library paths).run tool machine =
            (.error error, failed)) := by
  induction paths generalizing machine with
  | nil => exact ⟨[], [], [], machine, rfl, .nil machine, Or.inl ⟨rfl, rfl⟩⟩
  | cons path paths ih =>
      rw [resolveEach, Action.run_bind]
      cases hrun : (context.technology.resolve context.settings cache library path).run tool
          machine with
      | mk result next =>
          cases result with
          | error error =>
              exact ⟨[], path :: paths, [], machine, rfl, .nil machine,
                Or.inr ⟨path, paths, error, next, rfl, hrun, rfl⟩⟩
          | ok first =>
              obtain ⟨done, rest, resolved, last, hpaths, hrest, hends⟩ :=
                ih { next with output := next.output ++ [first.text] }
              exact ⟨path :: done, rest, first :: resolved, last,
                congrArg (path :: ·) hpaths, .cons hrun hrest, hends⟩

/-- What does not depend on a library does not depend on it for a list of paths either. -/
theorem resolveEach_congr (h : prefixesOf library' = prefixesOf library) (paths : List String) :
    context.resolveEach cache library' paths = context.resolveEach cache library paths := by
  induction paths with
  | nil => rfl
  | cons path paths ih =>
      rw [resolveEach, resolveEach, ih, Technology.resolve_congr rfl rfl
        (Technology.matching_of_prefixesOf h (Technology.firstSegment path)) context.settings cache]

/-- Prefixes added one by one stand behind those that a library has. -/
theorem extraPrefixes_foldl (prefixes : List (String × String)) (library : Library) :
    (prefixes.foldl (fun library (name, root) => library.addExtraPrefix ⟨name, ⟨root⟩⟩)
      library).extraPrefixes =
      library.extraPrefixes ++ prefixes.map fun (name, root) => ⟨name, ⟨root⟩⟩ := by
  induction prefixes generalizing library with
  | nil => rw [List.foldl_nil, List.map_nil, List.append_nil]
  | cons pair prefixes ih =>
      rw [List.foldl_cons, ih, List.map_cons]
      exact List.append_assoc library.extraPrefixes [_] _

/-- A library that is not declared is refused. -/
theorem scopedLibrary_undeclared {name : String} (h : context.technology.library? name = none)
    (prefixes : List (String × String)) :
    context.scopedLibrary (some name) prefixes =
      .error (.user ("Library '" ++ name ++ "' is not declared by technology " ++
        context.technology.name)) := by
  rw [scopedLibrary]
  dsimp only
  rw [h]
  rfl

/-- Nothing else is refused. -/
theorem exists_of_scopedLibrary_eq_error {name : Option String}
    {prefixes : List (String × String)} {error : Error}
    (h : context.scopedLibrary name prefixes = .error error) :
    ∃ given, name = some given ∧ context.technology.library? given = none := by
  cases name with
  | none =>
      rw [scopedLibrary] at h
      exact absurd h (by simp [bind, Except.bind, pure, Except.pure])
  | some given =>
      refine ⟨given, rfl, Option.eq_none_iff_forall_not_mem.2 fun library hlibrary => ?_⟩
      rw [scopedLibrary] at h
      dsimp only at h
      rw [Option.mem_def.1 hlibrary] at h
      exact absurd h (by simp [bind, Except.bind, pure, Except.pure])

/-- **The scope of the paths** holds the given prefixes and no others, whichever declared library is
named, if any. -/
theorem exists_scope (hplain : ∀ library ∈ context.technology.libraries, library.extraPrefixes = [])
    {name : Option String}
    (hdeclared : ∀ given ∈ name, (context.technology.library? given).isSome = true)
    (prefixes : List (String × String)) :
    ∃ scope, context.scopedLibrary name prefixes = .ok scope ∧
      prefixesOf scope = prefixes.map fun (name, root) => ⟨name, ⟨root⟩⟩ := by
  cases name with
  | none =>
      rw [scopedLibrary]
      cases prefixes with
      | nil => exact ⟨none, rfl, rfl⟩
      | cons pair prefixes => exact ⟨_, rfl, extraPrefixes_foldl (pair :: prefixes) {}⟩
  | some given =>
      obtain ⟨library, hlibrary⟩ := Option.isSome_iff_exists.1 (hdeclared given rfl)
      have hnone : library.extraPrefixes = [] := hplain library (List.mem_of_find?_eq_some hlibrary)
      rw [scopedLibrary]
      dsimp only
      rw [hlibrary]
      refine ⟨_, rfl, ?_⟩
      have hprefixes := extraPrefixes_foldl prefixes library
      rw [hnone, List.nil_append] at hprefixes
      exact hprefixes

/-- The cache that paths are resolved with: one is made when a tarball is declared. -/
def cacheFor (context : Context) (processId : Nat) : Option Cache :=
  if context.technology.tarballs.isEmpty then none else some ⟨context.cacheDir, processId⟩

/-- The machine after the cache has been made, as far as it could be. -/
def prepared (context : Context) (machine : Machine) : Machine :=
  if context.technology.tarballs.isEmpty then machine
  else { machine with disk := (machine.disk.createDirAll context.cacheDir).2 }

/-- **The cache is made when it is needed:** if the technology declares a tarball, even one that no
path of the command leads to. -/
theorem run_createCacheIfNeeded {processId : Nat}
    (h : context.technology.tarballs ≠ [] →
      (machine.disk.createDirAll context.cacheDir).1 = true) :
    (context.createCacheIfNeeded processId).run tool machine =
      (.ok (context.cacheFor processId), context.prepared machine) := by
  rw [createCacheIfNeeded, cacheFor, prepared]
  split_ifs with hempty
  · rfl
  · have hmade := h fun hnil => hempty (List.isEmpty_iff.2 hnil)
    rw [createCache, Cache.create, Action.run_bind, Action.run_bind, Action.run_createDirAll,
      if_pos hmade]
    rfl

/-- The cache is there afterwards, or no tarball is declared. -/
theorem yields_createCacheIfNeeded (context : Context) (processId : Nat) :
    (context.createCacheIfNeeded processId).Yields fun cache =>
      cache.isSome = true ∨ context.technology.tarballs = [] := by
  rw [createCacheIfNeeded]
  split_ifs with hempty
  · exact Action.yields_pure.2 (Or.inr (List.isEmpty_iff.1 hempty))
  · exact Action.yields_bind fun _ => Action.yields_pure.2 (Or.inl rfl)

/-- Making the cache directory can fail only with an error of the disk, never with one of the
document's or the settings'. -/
theorem fails_createCacheIfNeeded {P : Error → Prop} (hio : ∀ text, P (.io text))
    (context : Context) (processId : Nat) : (context.createCacheIfNeeded processId).Fails P := by
  rw [createCacheIfNeeded]
  split_ifs
  · exact Action.fails_pure _
  · refine Action.Fails.bind ?_ fun _ => Action.fails_pure _
    exact (Action.fails_createDirAll (hio _)).bind fun _ => Action.fails_pure _

/-- Resolving paths never fails for want of a cache directory where there is one, or where no
tarball is declared that would need it. -/
theorem fails_resolveEach (library : Option Library) (paths : List String)
    (h : cache.isSome = true ∨ context.technology.tarballs = []) :
    (context.resolveEach cache library paths).Fails fun error =>
      ∀ path name, error ≠ .cacheDirNotSet path name := by
  induction paths with
  | nil => exact Action.fails_pure _
  | cons path paths ih =>
      exact (Technology.fails_resolve library path h).bind fun _ =>
        (Action.fails_request _).bind fun _ => ih

/-- **The cache is never missed:** it is there whenever a tarball is declared, and only a tarball
asks for it. -/
theorem fails_resolve (context : Context) (processId : Nat) (paths : List String)
    (library : Option String) (prefixes : List (String × String)) :
    (context.resolve processId paths library prefixes).Fails fun error =>
      ∀ path name, error ≠ .cacheDirNotSet path name := by
  refine Action.Fails.bind (Action.fails_ofExcept fun error herror => ?_) fun scope => ?_
  · obtain ⟨name, rfl, hnone⟩ := exists_of_scopedLibrary_eq_error herror
    rw [scopedLibrary_undeclared hnone] at herror
    obtain rfl := Except.error.inj herror
    exact fun _ _ => by simp
  · exact (fails_createCacheIfNeeded (fun _ _ _ => by simp) context processId).bind_yields
      (context.yields_createCacheIfNeeded processId) fun cache h => fails_resolveEach scope paths h

/-- **A library that is not declared** ends the command before anything is done: no cache is made,
and no path is resolved. -/
theorem run_resolve_undeclared {name : String} (h : context.technology.library? name = none)
    (processId : Nat) (paths : List String) (prefixes : List (String × String)) :
    (context.resolve processId paths (some name) prefixes).run tool machine =
      (.error (.user ("Library '" ++ name ++ "' is not declared by technology " ++
        context.technology.name)), machine) := by
  rw [resolve, scopedLibrary_undeclared h, Action.run_bind, Action.run_ofExcept]

section

variable (hplain : ∀ library ∈ context.technology.libraries, library.extraPrefixes = [])
  {name : Option String}
  (hdeclared : ∀ given ∈ name, (context.technology.library? given).isSome = true)

include hplain hdeclared

/-- **A declared library makes no difference,** since it has no extra prefixes of its own. What it
is named for is to be known to exist. -/
theorem resolve_declared_library (processId : Nat) (paths : List String)
    (prefixes : List (String × String)) :
    context.resolve processId paths name prefixes =
      context.resolve processId paths none prefixes := by
  obtain ⟨scope, hscope, hprefixes⟩ := exists_scope hplain hdeclared prefixes
  have hnone : ∀ given ∈ (none : Option String),
      (context.technology.library? given).isSome = true := fun _ h => absurd h (by simp)
  obtain ⟨bare, hbare, hsame⟩ := exists_scope hplain hnone prefixes
  have heach (cache : Option Cache) : context.resolveEach cache scope paths =
      context.resolveEach cache bare paths := resolveEach_congr (hprefixes.trans hsame.symm) paths
  rw [resolve, resolve, hscope, hbare]
  exact congrArg (context.createCacheIfNeeded processId >>= ·) (funext heach)

/-- With the cache made, what is left of the command is to resolve the paths. -/
theorem run_resolve (tool : Tool) (processId : Nat) (paths : List String)
    (prefixes : List (String × String))
    (hmade : context.technology.tarballs ≠ [] →
      (machine.disk.createDirAll context.cacheDir).1 = true) :
    ∃ scope, context.scopedLibrary name prefixes = .ok scope ∧
      prefixesOf scope = prefixes.map (fun (name, root) => ⟨name, ⟨root⟩⟩) ∧
      (context.resolve processId paths name prefixes).run tool machine =
        (context.resolveEach (context.cacheFor processId) scope paths).run tool
          (context.prepared machine) := by
  obtain ⟨scope, hscope, hprefixes⟩ := exists_scope hplain hdeclared prefixes
  refine ⟨scope, hscope, hprefixes, ?_⟩
  rw [resolve, hscope, Action.run_bind, Action.run_ofExcept]
  dsimp only
  rw [Action.run_bind, run_createCacheIfNeeded hmade]

end

/-- Preparing the cache prints nothing. -/
theorem output_prepared (context : Context) (machine : Machine) :
    (context.prepared machine).output = machine.output := by
  rw [prepared]
  split_ifs <;> rfl

/-- **Paths are resolved in their order, up to the first that does not resolve.** In a context that
has been loaded,

* a library that is not declared is the error, and nothing has been done before, neither has
  anything been printed;
* otherwise, if the cache can be made when a tarball is declared, the paths are resolved in the
  scope of all the given prefixes, each on the machine that the one before it left, as far as they
  do; their results are what is printed, line by line, and the error is that of the first path that
  does not resolve, so that the exit is a success exactly if there is none;
* the cache is never missed;
* a declared library makes no difference to the outcome. -/
theorem resolve_in_order (invocation : Invocation) (config : Config) (environment : Environment)
    (loading : Tool) (start : Machine) (context : Context)
    (hload : ((load invocation config environment).run loading start).1 = .ok context)
    (processId : Nat) (paths : List String) (library : Option String)
    (prefixes : List (String × String)) (tool : Tool) (machine : Machine) :
    let outcome := (context.resolve processId paths library prefixes).run tool machine
    (∀ name, library = some name → context.technology.library? name = none →
      outcome = (.error (.user ("Library '" ++ name ++ "' is not declared by technology " ++
        context.technology.name)), machine)) ∧
    ((∀ name, library = some name → (context.technology.library? name).isSome = true) →
      (context.technology.tarballs ≠ [] →
        (machine.disk.createDirAll context.cacheDir).1 = true) →
      ∃ scope done rest resolved last,
        context.scopedLibrary library prefixes = .ok scope ∧
        prefixesOf scope = prefixes.map (fun (name, root) => ⟨name, ⟨root⟩⟩) ∧
        paths = done ++ rest ∧
        Resolving context (context.cacheFor processId) scope tool (context.prepared machine)
          done resolved last ∧
        resolved.length = done.length ∧
        (tool.Silent → outcome.2.output = machine.output ++ resolved.map Path.text) ∧
        (rest = [] → outcome = (.ok (), last)) ∧
        (∀ path later, rest = path :: later → ∃ error failed,
          (context.technology.resolve context.settings (context.cacheFor processId) scope
            path).run tool last = (.error error, failed) ∧ outcome = (.error error, failed)) ∧
        ∀ shown, (Outcome.ofResult outcome.1 outcome.2.output shown).exitCode = 0 ↔ rest = []) ∧
    (tool.FailsAsProgram → ∀ path name, outcome.1 ≠ .error (.cacheDirNotSet path name)) ∧
    ∀ name, library = some name → (context.technology.library? name).isSome = true →
      outcome = (context.resolve processId paths none prefixes).run tool machine := by
  have hplain := ((yields_load invocation config environment).run hload).loaded.extraPrefixes_eq_nil
  intro outcome
  refine ⟨fun name hname hnone => ?_, fun hdeclared hmade => ?_, fun htool path name h => ?_,
    fun name hname hdeclared => ?_⟩
  · subst hname
    exact run_resolve_undeclared hnone processId paths prefixes
  · obtain ⟨scope, hscope, hprefixes, hrun⟩ :=
      run_resolve hplain hdeclared tool processId paths prefixes hmade
    obtain ⟨done, rest, resolved, last, hpaths, hresolving, hends⟩ :=
      run_resolveEach context (context.cacheFor processId) scope tool (context.prepared machine)
        paths
    have hprinted (htool : tool.Silent) : last.output = machine.output ++ resolved.map Path.text :=
      (hresolving.output_eq htool).trans (by rw [output_prepared])
    refine ⟨scope, done, rest, resolved, last, hscope, hprefixes, hpaths, hresolving,
      hresolving.length_eq, ?_⟩
    -- Either all paths resolve, or there is a first one that does not, and it ends the command.
    obtain ⟨rfl, hdone⟩ | ⟨path, later, error, failed, rfl, hfails, hstopped⟩ := hends
    · have houtcome : outcome = (.ok (), last) := hrun.trans hdone
      rw [houtcome]
      exact ⟨hprinted, fun _ => rfl, fun _ _ h => absurd h (by simp), fun _ => by simp⟩
    · have houtcome : outcome = (.error error, failed) := hrun.trans hstopped
      rw [houtcome]
      refine ⟨fun htool => (Technology.output_of_resolve htool hfails).trans (hprinted htool),
        fun h => absurd h (by simp), fun path' later' h => ?_, fun _ => by simp⟩
      obtain ⟨rfl, rfl⟩ := List.cons.inj h
      exact ⟨error, failed, hfails, rfl⟩
  · exact (context.fails_resolve processId paths library prefixes).run htool h path name rfl
  · subst hname
    have hnamed : ∀ given ∈ some name, (context.technology.library? given).isSome = true :=
      fun given h => Option.mem_some.1 h ▸ hdeclared
    have hsame := resolve_declared_library hplain hnamed processId paths prefixes
    exact congrArg (fun action => action.run tool machine) hsame

/-- A machine with the technology `t`, which has the install `ip` and the library `lib`. -/
def libraryMachine : Machine :=
  { disk := ⟨[(["t"], .dir .newDir),
      (["t", "t.tech.json"], .file (Utf8.encode ("\x7b\"installs\": [\x7b\"path\": \"ip\", " ++
        "\"base_var\": \"\"\x7d], \"libraries\": [\x7b\"name\": \"lib\"\x7d]\x7d")) .newFile)],
    []⟩ }

/-- Of three paths of which the second does not resolve, the first is printed, with the library or
without it; another library is refused. -/
theorem second_of_three_unresolved :
    let idle : Tool := fun _ machine => (.ok (), machine)
    let blank : Machine := { disk := ⟨[], []⟩ }
    let invocation : Invocation := { command := .check, techDir := some ⟨"/t"⟩ }
    let paths := ["ip/a", "x", "ip/b"]
    let shown (outcome : Except Error Unit × Machine) :=
      Outcome.ofResult outcome.1 outcome.2.output []
    ∃ context, ((load invocation {} {}).run idle libraryMachine).1 = .ok context ∧
      (context.resolve 7 paths (some "u") []).run idle blank =
        (.error (.user "Library 'u' is not declared by technology t"), blank) ∧
      shown ((context.resolve 7 paths (some "lib") []).run idle blank) =
        ⟨1, ["/t/a"], (Error.unresolvedPath "x" "t").report⟩ ∧
      (context.resolve 7 paths (some "lib") []).run idle blank =
        (context.resolve 7 paths none []).run idle blank ∧
      ∃ done rest, paths = done ++ rest ∧ done.length = 1 ∧ rest ≠ [] := by
  intro idle blank invocation paths shown
  have hload : ((load invocation {} {}).run idle libraryMachine).1.toOption.map (fun context =>
      (context.technology.name, (context.technology.library? "u").isNone,
        (context.technology.library? "lib").isSome, context.technology.tarballs,
        shown ((context.resolve 7 paths (some "lib") []).run idle blank))) =
      some ("t", true, true, [], ⟨1, ["/t/a"], (Error.unresolvedPath "x" "t").report⟩) := by
    decide +kernel
  obtain ⟨context, hsome, hfields⟩ := Option.map_eq_some_iff.1 hload
  simp only [Prod.mk.injEq] at hfields
  obtain ⟨hname, hu, hlib, htarballs, hshown⟩ := hfields
  have hok := eq_ok_of_toOption hsome
  have hin (library : Option String) :=
    resolve_in_order invocation {} {} idle libraryMachine context hok 7 paths library [] idle blank
  obtain ⟨hundeclared, -⟩ := hin (some "u")
  obtain ⟨-, hresolved, -, hsame⟩ := hin (some "lib")
  obtain ⟨scope, done, rest, resolved, last, -, -, hpaths, -, hlength, hprinted, -, -, hexit⟩ :=
    hresolved (fun name h => Option.some.inj h ▸ hlib) fun h => absurd htarballs h
  refine ⟨context, hok, ?_, hshown, hsame "lib" rfl hlib, done, rest, hpaths, ?_, fun hnil => ?_⟩
  · rw [hundeclared "u" rfl (Option.isNone_iff_eq_none.1 hu), hname]
    rfl
  · have houtput := (congrArg Outcome.output hshown).symm.trans
      ((Outcome.output_ofResult _ _ _).trans (hprinted fun _ _ => rfl))
    rw [← hlength, ← List.length_map Path.text, ← List.nil_append (resolved.map Path.text)]
    exact congrArg List.length houtput.symm
  · have hzero := (hexit []).2 hnil
    rw [show Outcome.exitCode _ = 1 from congrArg Outcome.exitCode hshown] at hzero
    exact absurd hzero (by decide)

end Context
end ProcessKit
