/-
# Which technology a command works on

An invocation selects a technology by a name, or by a directory, whose last step then is the name.
The technology of a command has been loaded under that name, and its cache is the one of that name,
unless a directory for it was given (`yields_load`).

Everything else that is known of the context of a command is derived from this: that its libraries
have no extra prefixes and its tarballs have names, since it was loaded, and that its cache is a
child of the cache root, since a step of a path is a name. `Selects` keeps the two ways apart,
because a name that is given need not be a step of any path.
-/

import ProcessKit.Command.Context
import ProcessKit.Proofs.Technology.Loading

namespace ProcessKit
namespace Context

open Technology (Loaded)

variable {invocation : Invocation} {config : Config} {environment : Environment}

/-- **The name that an invocation selects** a technology by. -/
inductive Selects (invocation : Invocation) (name : String) : Prop
  | named (h : invocation.tech = some name)
  | located {dir : Path} (htech : invocation.tech = none) (hdir : invocation.techDir = some dir)
      (hname : dir.fileName? = some name)

/-- The name that the directory of a technology gives it is one the invocation selects. -/
theorem selects_of_nameOf {dir : Path} {name : String} (hdir : invocation.techDir = some dir)
    (h : nameOf dir invocation.tech = .ok name) : Selects invocation name := by
  cases htech : invocation.tech with
  | some given =>
      rw [htech] at h
      obtain rfl := Except.ok.inj h
      exact .named htech
  | none =>
      rw [htech, nameOf] at h
      cases hname : dir.fileName? with
      | none =>
          rw [hname] at h
          exact absurd h (by simp)
      | some last =>
          rw [hname] at h
          obtain rfl := Except.ok.inj h
          exact .located htech hdir hname

/-- **The technology of an invocation** has been loaded under the name that it selects. -/
theorem yields_loadTechnology (invocation : Invocation) (config : Config) :
    (loadTechnology invocation config).Yields fun technology =>
      Loaded technology.name technology ∧ Selects invocation technology.name := by
  have hloaded {name : String} {technology : Technology} (h : Loaded name technology)
      (hname : Selects invocation name) :
      Loaded technology.name technology ∧ Selects invocation technology.name := by
    rw [h.name_eq]
    exact ⟨h, hname⟩
  cases hdir : invocation.techDir with
  | some dir =>
      rw [loadTechnology, hdir]
      refine (Action.yields_ofExcept (Q := Selects invocation)
        fun name h => selects_of_nameOf hdir h).bind fun name hname => ?_
      refine (Technology.yields_loadFromDir name dir).bind fun found h => ?_
      cases found with
      | none => exact Action.yields_fail _
      | some technology => exact Action.yields_pure.2 (hloaded (h technology rfl) hname)
  | none =>
      cases htech : invocation.tech with
      | none =>
          rw [loadTechnology, hdir, htech]
          exact Action.yields_fail _
      | some name =>
          have hfind : loadTechnology invocation config =
              Technology.find name config.searchPaths := by
            rw [loadTechnology, hdir, htech]
          rw [hfind]
          exact (Technology.yields_find name _).mono fun technology h => hloaded h (.named htech)

/-- **What a command works on.** -/
structure Ready (invocation : Invocation) (config : Config) (environment : Environment)
    (context : Context) : Prop where
  loaded : Loaded context.technology.name context.technology
  selected : Selects invocation context.technology.name
  cacheDir : context.cacheDir =
    cacheDirOf invocation config environment context.technology.name

/-- Loading a context gives one that is ready: the technology is loaded under its own name, it is
the one the invocation selects, and the cache directory is the one the rules give. -/
theorem yields_load (invocation : Invocation) (config : Config) (environment : Environment) :
    (load invocation config environment).Yields (Ready invocation config environment) :=
  (yields_loadTechnology invocation config).bind fun _ h => Action.yields_bind fun _ =>
    Action.yields_bind fun _ => Action.yields_pure.2 ⟨h.1, h.2, rfl⟩

end Context
end ProcessKit
