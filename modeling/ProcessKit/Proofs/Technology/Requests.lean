/-
# What is asked of the machine about a technology

Resolving a path and making the files of a technology available is put together from making sure of
declared tarballs, and besides that only looks at the disk and logs (`composed_resolve`,
`composed_makeAvailable`). Nothing of that is printed.

This is all that the commands need to know about the two: where work may happen, what it may touch
and what is left alone follows from the same of a single tarball, which has to be shown only once.
`Ensures` is that one part, for the tarballs that the document declares and for a cache that is
there.
-/

import ProcessKit.Proofs.Cache.Containment
import ProcessKit.Proofs.Technology.Resolution
import ProcessKit.Technology.Availability

namespace ProcessKit
namespace Technology

open ProcessKit.Action (Composed)
open Cache (OwnRequest)

variable {technology : Technology} {settings : Settings}

/-- A request that neither changes nor prints anything. -/
def Looks (r : Request) : Prop := r.Quiet ∧ r.Silent

/-- Making sure of a tarball that is declared, where there is a cache. -/
def Ensures (technology : Technology) (settings : Settings) (cache : Option Cache)
    (action : Action Path) : Prop :=
  ∃ c ∈ cache, ∃ tarball ∈ technology.tarballs,
    action = c.ensureExtracted technology settings tarball

/-- Asking what is at a path neither changes nor prints anything. -/
theorem looks_kind {path : Path} : Looks (.kind path) := ⟨trivial, trivial⟩

/-- A message in the log is neither a change of the disk nor a line of the output. -/
theorem looks_log {level : Level} {message : String} : Looks (.log level message) :=
  ⟨trivial, trivial⟩

/-- **Resolving a path** makes sure of at most one tarball, the only source of the path, and
otherwise asks for nothing that changes or prints anything. -/
theorem composed_resolve (cache : Option Cache) (library : Option Library) (path : String) :
    (technology.resolve settings cache library path).Composed Looks
      (Ensures technology settings cache) := by
  have hdone {α : Type} {value : α} :
      Composed Looks (Ensures technology settings cache) (pure value : Action α) :=
    .asks (Action.asks_pure value)
  rw [resolve, pieces_eq]
  split_ifs
  · exact .asks (Action.asks_fail _)
  · exact hdone
  refine .bind ?_ fun _ => .asks ((Action.asks_log looks_log).bind fun _ => Action.asks_pure _)
  rw [resolveSegments, candidates_eq]
  split
  · exact .asks (Action.asks_fail _)
  · rename_i source hone
    cases source with
    | install install =>
        exact .asks ((Action.asks_ofExcept _).bind fun _ => Action.asks_pure _)
    | tarball tarball =>
        cases cache with
        | none => exact .asks (Action.asks_fail _)
        | some c =>
            have hdeclared : tarball ∈ technology.tarballs :=
              mem_tarballs_of_matching (by rw [hone]; exact List.mem_singleton.2 rfl)
            exact .bind (.part ⟨c, rfl, tarball, hdeclared, rfl⟩) fun _ => hdone
    | libraryPrefix p => exact hdone
  · exact .asks (Action.asks_fail _)

/-- Looking at installs is nothing else. -/
theorem asks_checkEach (installs : List Install) :
    (technology.checkEach settings installs).Asks Looks := by
  induction installs with
  | nil => exact Action.asks_pure _
  | cons install installs ih =>
      refine Action.Asks.bind ?_ fun present => ?_
      · rw [checkInstall]
        split_ifs
        · exact Action.asks_pure _
        · refine (Action.asks_ofExcept _).bind fun dir => ?_
          refine (Action.asks_pathExists looks_kind).bind fun there => ?_
          cases there with
          | true => exact (Action.asks_log looks_log).bind fun _ => Action.asks_pure _
          | false => exact (Action.asks_log looks_log).bind fun _ => Action.asks_pure _
      · cases present with
        | true => exact ih
        | false => exact Action.asks_pure _

/-- **Making the files available** makes sure of declared tarballs, one after the other, or looks at
installs. -/
theorem composed_makeAvailable (cache : Cache) :
    (technology.makeAvailable settings cache).Composed Looks
      (Ensures technology settings (some cache)) := by
  have heach : ∀ tarballs : List Tarball, (∀ tarball ∈ tarballs, tarball ∈ technology.tarballs) →
      (cache.ensureEach technology settings tarballs).Composed Looks
        (Ensures technology settings (some cache)) := by
    intro tarballs hdeclared
    induction tarballs with
    | nil => exact .asks (Action.asks_pure _)
    | cons tarball tarballs ih =>
        have hfirst := hdeclared tarball (List.mem_cons_self ..)
        exact .bind (.part ⟨cache, rfl, tarball, hfirst, rfl⟩) fun _ =>
          ih fun t ht => hdeclared t (List.mem_cons_of_mem _ ht)
  rw [makeAvailable]
  split_ifs
  · exact .asks (asks_checkEach _)
  · exact .bind (heach _ fun _ h => h) fun _ => .asks (Action.asks_pure _)
  · exact .asks ((Action.asks_log looks_log).bind fun _ => Action.asks_pure _)

/-- What is asked for about a tarball. -/
theorem Ensures.asks {cache : Option Cache} {action : Action Path}
    (h : Ensures technology settings cache action) :
    action.Asks fun r => ∃ c ∈ cache, ∃ tarball ∈ technology.tarballs,
      OwnRequest c tarball.path r := by
  obtain ⟨c, hc, tarball, htarball, rfl⟩ := h
  exact (Cache.asks_ensureExtracted c technology settings tarball).mono fun r hr =>
    ⟨c, hc, tarball, htarball, hr⟩

/-- **Resolving prints nothing,** as long as the tool does not: what a command prints about a path
it prints itself. -/
theorem silent_resolve (technology : Technology) (settings : Settings) (cache : Option Cache)
    (library : Option Library) (path : String) :
    (technology.resolve settings cache library path).Asks Request.Silent := by
  refine (composed_resolve cache library path).asks_of (fun _ h => h.2) fun part hpart =>
    hpart.asks.mono fun r hr => ?_
  obtain ⟨c, -, tarball, -, hown⟩ := hr
  exact hown.silent

/-- With a tool that prints nothing, the output stays as it was. -/
theorem output_of_resolve {tool : Tool} (htool : tool.Silent) {machine next : Machine}
    {cache : Option Cache} {library : Option Library} {path : String} {result : Except Error Path}
    (h : (technology.resolve settings cache library path).run tool machine = (result, next)) :
    next.output = machine.output := by
  have hsame := Action.run_silent (technology.silent_resolve settings cache library path) htool
    machine
  rw [h] at hsame
  exact hsame

end Technology
end ProcessKit
