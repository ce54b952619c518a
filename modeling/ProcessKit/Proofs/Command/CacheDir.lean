/-
# The cache of a technology

Without a directory given for it, the cache of a technology is named after the technology, below the
cache root. If that name is the name of an entry, as that of a directory is, the cache is a child of
the root, and those of different technologies lie side by side (`caches_side_by_side`). A command
does all its work in its own one: the paths that it writes to go down from there
(`UsesCache.written`), and what it touches lies in there as long as no links lead away
(`UsesCache.touches`).

A name that is given on the command line may be any text that leads to a document. One such as
`../x` makes a cache outside of the root (`cache_above_root`).

Two commands use the cache: the one that resolves paths and the one that makes the files available.
For both, what they ask for falls into three parts, and so do the proofs: requests that only look,
making the directory of the cache, and making sure of tarballs in it (`UsesCache.quiet_or_creates`).
Paths are followed as texts here (`Path.Inside`), since what is written to is told by the request
alone; where the paths lead on a disk is a second statement, with its own condition on links.
-/

import ProcessKit.Command.Execution
import ProcessKit.Proofs.Cache.Staying
import ProcessKit.Proofs.Command.Selection
import ProcessKit.Proofs.Technology.Requests

namespace ProcessKit

/-- The paths that a request writes to. -/
def Request.written : Request → List Path
  | .write path _ | .createDirAll path | .removeDirAll path => [path]
  | .rename source target => [source, target]
  | .tool call => [call.dest]
  | _ => []

/-- A request that is quiet writes to no path at all. -/
theorem Request.Quiet.written_eq_nil {r : Request} (h : r.Quiet) : r.written = [] := by
  cases r with
  | kind | read | log | print => rfl
  | _ => exact h.elim

/-- **A path that goes down from a directory,** or not at all: what it takes besides are names. -/
def Path.Inside (dir path : Path) : Prop :=
  ∃ names : List String, path.components = dir.components ++ names.map .name

/-- A directory is inside itself. -/
theorem Path.Inside.refl (dir : Path) : Path.Inside dir dir := ⟨[], (List.append_nil _).symm⟩

/-- One step down from a path inside a directory is inside it, too. The step must be a plain name:
`..` would lead out. -/
theorem Path.Inside.join {dir path : Path} {name : String} (h : Path.Inside dir path)
    (hname : isEntryName name = true) : Path.Inside dir (path.join ⟨name⟩) := by
  obtain ⟨names, hnames⟩ := h
  refine ⟨names ++ [name], ?_⟩
  rw [components_join hname, hnames, List.map_append, List.append_assoc]
  rfl

/-- The last component of a path is a plain name, whenever there is one: what ends in `..` has none.
-/
theorem Path.isEntryName_of_fileName? {p : Path} {name : String} (h : p.fileName? = some name) :
    isEntryName name = true := by
  rw [fileName?] at h
  split at h
  · rename_i last hlast
    obtain rfl := Option.some.inj h
    exact isEntryName_of_mem_components (List.mem_of_getLast? hlast)
  · exact absurd h (by simp)

/-- Two entries of one directory that have something in common are the same. -/
theorem eq_of_prefixes {α : Type} {front whole : List α} {x y : α} (hx : front ++ [x] <+: whole)
    (hy : front ++ [y] <+: whole) : x = y := by
  have hsame : front ++ [x] = front ++ [y] :=
    (List.prefix_of_prefix_length_le hx hy (by simp)).eq_of_length (by simp)
  exact (List.cons.inj (List.append_cancel_left hsame)).1

namespace Cache

/-- **Everything about a tarball** is written below the directory of the cache, as paths go: each
request names a path that is put together from that directory and from names. -/
theorem OwnRequest.written {cache : Cache} {name : String} {r : Request}
    (h : OwnRequest cache name r) (hname : isEntryName name = true) :
    ∀ path ∈ r.written, Path.Inside cache.dir path := by
  have hextracted : Path.Inside cache.dir cache.extractedDir :=
    (Path.Inside.refl _).join isEntryName_extracted
  have hmarkers : Path.Inside cache.dir cache.markersDir :=
    (Path.Inside.refl _).join isEntryName_markers
  have hstaging : Path.Inside cache.dir (cache.staging name) :=
    hextracted.join (isEntryName_stagingName hname _)
  cases h with
  | look => exact List.forall_mem_nil _
  | log => exact List.forall_mem_nil _
  | makeStaging => exact List.forall_mem_singleton.2 hstaging
  | removeStaging => exact List.forall_mem_singleton.2 hstaging
  | call hdest => exact List.forall_mem_singleton.2 (hdest ▸ hstaging)
  | publish =>
      exact List.forall_mem_cons.2 ⟨hstaging, List.forall_mem_singleton.2 (hextracted.join hname)⟩
  | makeMarkers => exact List.forall_mem_singleton.2 hmarkers
  | mark => exact List.forall_mem_singleton.2 (hmarkers.join (isEntryName_marker hname))

end Cache

namespace Context

open ProcessKit.Action (Composed)
open ProcessKit.Path (Component)
open Cache (OwnRequest Clear)
open Technology (Ensures Looks)

variable {context : Context} {processId : Nat} {command : Action Unit} {root : Path} {tool : Tool}
  {machine met : Machine} {r : Request}

/-- **The commands that use the cache.** -/
inductive UsesCache (context : Context) (processId : Nat) : Action Unit → Prop
  | resolve (paths : List String) (library : Option String) (prefixes : List (String × String)) :
      UsesCache context processId (context.resolve processId paths library prefixes)
  | extract : UsesCache context processId (context.extract processId)

/-- Resolving a list of paths is put together from making sure of tarballs. -/
theorem composed_resolveEach (cache : Option Cache) (library : Option Library)
    (paths : List String) :
    (context.resolveEach cache library paths).Composed Request.Quiet
      (Ensures context.technology context.settings cache) := by
  induction paths with
  | nil => exact .asks (Action.asks_pure ())
  | cons path paths ih =>
      refine .bind ?_ fun _ => .bind (.asks ((Action.asks_request _).2 trivial)) fun _ => ih
      exact (Technology.composed_resolve cache library path).mono fun _ h => h.1

/-- Making the cache, with something behind it. -/
theorem createCache_bind {α : Type} (context : Context) (processId : Nat) (f : Cache → Action α) :
    ∃ text, context.createCache processId >>= f =
      Action.createDirAll context.cacheDir text >>= fun _ => f ⟨context.cacheDir, processId⟩ :=
  ⟨_, Action.bind_assoc _ _ _⟩

/-- **A command that uses the cache** only looks, or makes its directory and then is put together
from making sure of tarballs. -/
theorem UsesCache.quiet_or_creates (h : UsesCache context processId command) :
    command.Asks Request.Quiet ∨ ∃ text rest,
      command = (Action.createDirAll context.cacheDir text >>= fun _ => rest) ∧
      rest.Composed Request.Quiet
        (Ensures context.technology context.settings (some ⟨context.cacheDir, processId⟩)) := by
  cases h with
  | resolve paths library prefixes =>
      rw [Context.resolve]
      cases context.scopedLibrary library prefixes with
      | error error => exact Or.inl (Action.asks_fail error)
      | ok scope =>
          rw [createCacheIfNeeded]
          split_ifs
          · refine Or.inl ((composed_resolveEach none scope paths).asks_of (fun _ h => h) ?_)
            rintro part ⟨c, hc, -⟩
            exact absurd hc (by simp)
          · obtain ⟨text, heq⟩ := context.createCache_bind processId
              fun cache => context.resolveEach (some cache) scope paths
            refine Or.inr ⟨text, _, ?_, composed_resolveEach _ scope paths⟩
            change (context.createCache processId >>= fun cache => pure (some cache)) >>=
              (fun cache => context.resolveEach cache scope paths) = _
            exact (Action.bind_assoc _ _ _).trans heq
  | extract =>
      obtain ⟨text, heq⟩ := context.createCache_bind processId
        fun cache => do
          if ← context.technology.makeAvailable context.settings cache then
            Action.print ("[OK] Technology files for " ++ context.technology.name ++
              " are available")
          else if context.technology.document.installs.isSome then
            .fail (.missingInstall context.technology.name)
          else
            .fail (.user ("Technology " ++ context.technology.name ++
              " specified neither tarballs nor installs"))
      refine Or.inr ⟨text, _, heq, .bind ?_ fun available => .asks ?_⟩
      · exact (Technology.composed_makeAvailable _).mono fun _ h => h.1
      · split_ifs
        · exact (Action.asks_request _).2 trivial
        · exact Action.asks_fail _
        · exact Action.asks_fail _

section

variable (hnamed : ∀ tarball ∈ context.technology.tarballs, isEntryName tarball.path = true)

include hnamed

/-- **What a command writes to** is inside the directory of the cache. This is about the paths in
its requests, and holds on every machine. -/
theorem UsesCache.written (h : UsesCache context processId command)
    (hmem : (r, met) ∈ command.trace tool machine) :
    ∀ path ∈ r.written, Path.Inside context.cacheDir path := by
  have hquiet {r : Request} (h : r.Quiet) :
      ∀ path ∈ r.written, Path.Inside context.cacheDir path := by
    rw [h.written_eq_nil]
    exact List.forall_mem_nil _
  have hasks : command.Asks fun r => ∀ path ∈ r.written, Path.Inside context.cacheDir path := by
    obtain h | ⟨text, rest, rfl, hrest⟩ := h.quiet_or_creates
    · exact h.mono fun _ => hquiet
    · refine (Action.asks_createDirAll text ?_).bind fun _ => hrest.asks_of (fun _ => hquiet) ?_
      · exact List.forall_mem_singleton.2 (.refl _)
      · intro part hpart
        refine hpart.asks.mono ?_
        rintro r ⟨c, hc, tarball, htarball, hown⟩
        obtain rfl := Option.mem_some.1 hc
        exact hown.written (hnamed tarball htarball)
  exact hasks.mem_trace hmem

end

/-- **What a command touches** is in the directory of the cache, if that is named after an entry of
the root and there are no links in its place or below. -/
theorem UsesCache.touches (h : UsesCache context processId command) (htool : tool.Confined)
    {name : String} (hname : isEntryName name = true) (hdir : context.cacheDir = root.join ⟨name⟩)
    {home p : Place} (hclear : Clear root home name machine.disk)
    (hmem : (r, met) ∈ command.trace tool machine) (htouch : met.Touches tool r p) :
    home ++ [name] <+: p := by
  obtain hquiet | ⟨text, rest, rfl, hrest⟩ := h.quiet_or_creates
  · exact absurd htouch ((hquiet.mem_trace hmem).not_touches met p)
  · have hstays : rest.StaysIn tool (home ++ [name] <+: ·)
        (fun disk => ∀ x, Cache.Plain (root.join ⟨name⟩) (home ++ [name]) x disk)
        fun _ disk => ∀ x, Cache.Plain (root.join ⟨name⟩) (home ++ [name]) x disk := by
      refine hrest.staysIn (fun _ h => h) ?_
      rintro part ⟨c, hc, tarball, -, rfl⟩
      obtain rfl := Option.mem_some.1 hc
      rw [← hdir]
      exact Cache.staysIn_ensureExtracted ⟨context.cacheDir, processId⟩ (home ++ [name])
        context.technology context.settings tarball htool
    rw [hdir] at hmem
    -- The directory is made on a clear disk, and the cache in it is plain from then on.
    have hall := (Cache.staysIn_createDirAll hname text).bind fun _ => hstays
    exact hall.touches machine hclear r met p hmem htouch

/-- Without a cache directory on the command line, the cache is named for the technology, below the
root that the configuration or the environment gives. -/
theorem Ready.cacheDir_eq {invocation : Invocation} {config : Config} {environment : Environment}
    (h : Ready invocation config environment context) (hnone : invocation.cacheDir = none) :
    context.cacheDir = (config.cacheRoot environment).join ⟨context.technology.name⟩ := by
  rw [h.cacheDir, cacheDirOf, hnone]

/-- The name of a technology that is found by its directory is that of an entry. -/
theorem Selects.isEntryName {invocation : Invocation} {name : String}
    (h : Selects invocation name) (htech : invocation.tech = none) : isEntryName name = true := by
  cases h with
  | named h => exact absurd (htech.symm.trans h) (by simp)
  | located _ _ hname => exact Path.isEntryName_of_fileName? hname

/-- **The caches of different technologies lie side by side,** as long as their names are names of
entries. For a context that has been loaded without a directory given for its cache,

* the name of its technology is that of an entry unless it was given on the command line, and the
  cache is a child of the cache root of that name exactly if it is;
* then the caches of two such technologies with different names are different, and neither is inside
  the other, whatever else of the two commands differs;
* every path that a command writes to is inside the cache, and with a tool that keeps to its
  directory everything that is touched is in the cache and in that of no other name, given that the
  cache root is there and no links are in the place of the cache or below. -/
theorem caches_side_by_side (config : Config) (environment : Environment) (invocation : Invocation)
    (loading : Tool) (start : Machine) (context : Context)
    (hload : ((load invocation config environment).run loading start).1 = .ok context)
    (hnone : invocation.cacheDir = none) :
    let root := config.cacheRoot environment
    let name := context.technology.name
    (invocation.tech = none → isEntryName name = true) ∧
    (context.cacheDir.components = root.components ++ [.name name] ↔ isEntryName name = true) ∧
    (isEntryName name = true →
      (∀ (invocation' : Invocation) (loading' : Tool) (start' : Machine) (context' : Context),
        ((load invocation' config environment).run loading' start').1 = .ok context' →
        invocation'.cacheDir = none → isEntryName context'.technology.name = true →
        context'.technology.name ≠ name →
        ¬ context.cacheDir.components <+: context'.cacheDir.components ∧
          ¬ context'.cacheDir.components <+: context.cacheDir.components) ∧
      ∀ (processId : Nat) (command : Action Unit), UsesCache context processId command →
        ∀ (tool : Tool) (machine : Machine) (r : Request) (met : Machine),
          (r, met) ∈ command.trace tool machine →
          (∀ path ∈ r.written, Path.Inside context.cacheDir path) ∧
          (tool.Confined → ∀ home, Clear root home name machine.disk →
            ∀ p, met.Touches tool r p →
              home ++ [name] <+: p ∧ ∀ other, other ≠ name → ¬ home ++ [other] <+: p)) := by
  intro root name
  have hready := (yields_load invocation config environment).run hload
  have hdir : context.cacheDir = root.join ⟨name⟩ := hready.cacheDir_eq hnone
  refine ⟨hready.selected.isEntryName, ⟨fun h => ?_, fun hname => ?_⟩, fun hname => ⟨?_, ?_⟩⟩
  · refine Path.isEntryName_of_mem_components (p := context.cacheDir) ?_
    rw [h]
    exact List.mem_append_right _ (List.mem_singleton.2 rfl)
  · rw [hdir, Path.components_join hname]
  · intro invocation' loading' start' context' hload' hnone' hname' hne
    have hready' := (yields_load invocation' config environment).run hload'
    rw [hdir, hready'.cacheDir_eq hnone', Path.components_join hname, Path.components_join hname']
    refine ⟨fun h => hne ?_, fun h => hne ?_⟩
    · exact (Component.name.inj (eq_of_prefixes h (List.prefix_refl _))).symm
    · exact Component.name.inj (eq_of_prefixes h (List.prefix_refl _))
  · intro processId command huses tool machine r met hmem
    refine ⟨huses.written hready.loaded.named.tarballs hmem, fun htool home hclear p htouch => ?_⟩
    have hinside := huses.touches htool hname hdir hclear hmem htouch
    exact ⟨hinside, fun other hne h => hne (eq_of_prefixes h hinside)⟩

/-- A machine with an empty directory for caches and the documents of the technologies `t`, `u` and
`x`, where the last one stands beside the directory `d`. -/
def cacheMachine : Machine :=
  let empty : Entry := .file (Utf8.encode "\x7b\x7d") .newFile
  { disk := ⟨[(["cache"], .dir .newDir), (["t"], .dir .newDir), (["t", "t.tech.json"], empty),
      (["u"], .dir .newDir), (["u", "u.tech.json"], empty), (["d"], .dir .newDir),
      (["x.tech.json"], empty)], []⟩ }

/-- Caches below `/cache`. -/
def cacheConfig : Config := { cacheDir := some ⟨"/cache"⟩ }

/-- Selected by the name `../x`, the technology in the directory `d` has its cache beside the cache
root and not below it, and it is made there. -/
theorem cache_above_root :
    let idle : Tool := fun _ machine => (.ok (), machine)
    let invocation : Invocation :=
      { command := .extract, techDir := some ⟨"/d"⟩, tech := some "../x" }
    ∃ context, ((load invocation cacheConfig {}).run idle cacheMachine).1 = .ok context ∧
      (∀ name, context.cacheDir.components ≠
        (cacheConfig.cacheRoot {}).components ++ [.name name]) ∧
      cacheMachine.disk.get? ["x"] = none ∧
      ((context.extract 7).run idle cacheMachine).2.disk.get? ["x"] = some (.dir .newDir) := by
  intro idle invocation
  have hload : ((load invocation cacheConfig {}).run idle cacheMachine).1.toOption.map
      (fun context => (context.cacheDir.components,
        ((context.extract 7).run idle cacheMachine).2.disk.get? ["x"])) =
      some ([.root, .name "cache", .up, .name "x"], some (.dir .newDir)) := by decide +kernel
  obtain ⟨context, hsome, hfields⟩ := Option.map_eq_some_iff.1 hload
  obtain ⟨hdir, hmade⟩ := Prod.mk.inj hfields
  have hroot : (cacheConfig.cacheRoot {}).components = [.root, .name "cache"] := by decide
  refine ⟨context, eq_ok_of_toOption hsome, fun name => ?_, by decide, hmade⟩
  rw [hdir, hroot]
  simp

/-- The technologies `t` and `u`, found by their directories, have caches side by side, and making
that of `t` touches nothing of that of `u`. -/
theorem t_and_u_side_by_side :
    let idle : Tool := fun _ machine => (.ok (), machine)
    let selecting (dir : String) : Invocation := { command := .extract, techDir := some ⟨dir⟩ }
    ∃ t u, ((load (selecting "/t") cacheConfig {}).run idle cacheMachine).1 = .ok t ∧
      ((load (selecting "/u") cacheConfig {}).run idle cacheMachine).1 = .ok u ∧
      t.cacheDir.components = (cacheConfig.cacheRoot {}).components ++ [.name "t"] ∧
      ¬ t.cacheDir.components <+: u.cacheDir.components ∧
      ∃ r met p, (r, met) ∈ (t.extract 7).trace idle cacheMachine ∧ met.Touches idle r p ∧
        ["cache", "t"] <+: p ∧ ¬ ["cache", "u"] <+: p := by
  intro idle selecting
  have ht : ((load (selecting "/t") cacheConfig {}).run idle cacheMachine).1.toOption.map
      (fun context => (context.technology.name, ((context.extract 7).trace idle cacheMachine).any
        fun (r, met) => decide ((met.perform idle r).2.disk.get? ["cache", "t"] ≠
          met.disk.get? ["cache", "t"]))) = some ("t", true) := by decide +kernel
  have hu : ((load (selecting "/u") cacheConfig {}).run idle cacheMachine).1.toOption.map
      (·.technology.name) = some "u" := by decide +kernel
  obtain ⟨t, htsome, htfields⟩ := Option.map_eq_some_iff.1 ht
  obtain ⟨hname, hmakes⟩ := Prod.mk.inj htfields
  obtain ⟨u, husome, hother⟩ := Option.map_eq_some_iff.1 hu
  obtain ⟨⟨r, met⟩, hmem, hchanged⟩ := List.any_eq_true.1 hmakes
  have hconfined : idle.Confined := fun _ _ => ⟨rfl, Or.inl rfl⟩
  have hentry : isEntryName t.technology.name = true := by rw [hname]; decide
  have hclear : Clear (cacheConfig.cacheRoot {}) ["cache"] t.technology.name cacheMachine.disk := by
    refine ⟨?_, fun _ _ => Disk.unlinked_of_entries (by simp [cacheMachine]) _⟩
    exact (Disk.leadsTo_root _).join (show isEntryName "cache" = true by decide) (by decide)
      ⟨.newDir, rfl⟩
  obtain ⟨-, hchild, hapart⟩ := caches_side_by_side cacheConfig {} (selecting "/t") idle
    cacheMachine t (eq_ok_of_toOption htsome) rfl
  obtain ⟨hbeside, hcommands⟩ := hapart hentry
  obtain ⟨hnot, -⟩ := hbeside (selecting "/u") idle cacheMachine u (eq_ok_of_toOption husome) rfl
    (by rw [hother]; decide) (by rw [hother, hname]; decide)
  have htouch : met.Touches idle r ["cache", "t"] := .changed (of_decide_eq_true hchanged)
  obtain ⟨-, hwithin⟩ := hcommands 7 _ .extract idle cacheMachine r met hmem
  obtain ⟨hinside, hothers⟩ := hwithin hconfined ["cache"] hclear _ htouch
  rw [hname] at hchild hinside hothers
  exact ⟨t, u, eq_ok_of_toOption htsome, eq_ok_of_toOption husome, hchild.2 (by decide), hnot, r,
    met, _, hmem, htouch, hinside, hothers "u" (by decide)⟩

end Context
end ProcessKit
