/-
# Runs of several processes

The processes of a crew start at any time, provided that no process alive has the same id, do their
steps in any order, and may stop for ever between any two of them. What a protocol keeps then holds
in every world that the crew reaches (`Orderly.reach`), as long as each process alone is safe.

`Orderly` is the invariant. The processes alive have different ids, each of them is safe from the
state that the world is in, with what it has still to do, and those that have finished ended with
what was wanted of them, which still holds. A step of one process is within the protocol, because
that process is safe; for all the others it is a step of somebody else, which they are safe against
(`Orderly.spares`). So the step leaves an orderly world (`Orderly.step`), and the rest is induction
over the steps.

The index of a process and its id are two things. Any number of processes of a crew may have one id,
one after the other, as an operating system gives an id again when the process that had it is gone.
What a dead process has left behind under its id is then in the hands of the next one.
-/

import Mathlib.Logic.Function.Basic
import ProcessKit.Proofs.Host.Interleaving

namespace ProcessKit

open Relation

/-- Processes, each with its id and with what it does. Ids may repeat. -/
structure Crew (ι α : Type) where
  processId : ι → Nat
  program : ι → Action α

/-- How far a process has come. -/
inductive Stage (α : Type) where
  | waiting
  /-- The process is alive, and this is what it still has to do. -/
  | running (rest : Action α)
  | finished (result : Except Error α)
  /-- The process has died on the way. -/
  | stopped

/-- What the processes share, and how far each of them has come. -/
structure World (ι α : Type) where
  shared : Shared
  stage : ι → Stage α

namespace Crew

variable {ι α : Type}

/-- One step of one process. -/
inductive Step [DecidableEq ι] (crew : Crew ι α) (w : World ι α) : World ι α → Prop
  /-- A process starts, with an id that no process alive has. -/
  | start {i : ι} (h : w.stage i = .waiting)
      (hid : ∀ j rest, w.stage j = .running rest → crew.processId j ≠ crew.processId i) :
      Step crew w { w with stage := Function.update w.stage i (.running (crew.program i)) }
  /-- A request under way changes something in the directory it works on. -/
  | alter {i : ι} {r : Request} {next : r.Reply → Action α} {s : Shared}
      (h : w.stage i = .running (.ask r next)) (ha : w.shared.Alters r s) :
      Step crew w { w with shared := s }
  /-- A request is answered. -/
  | answer {i : ι} {r : Request} {next : r.Reply → Action α}
      (h : w.stage i = .running (.ask r next)) (result : Except Error Unit) :
      Step crew w
        { shared := (w.shared.answer (crew.processId i) result r).2
          stage := Function.update w.stage i
            (.running (next (w.shared.answer (crew.processId i) result r).1)) }
  /-- A process comes to its value. -/
  | finish {i : ι} {value : α} (h : w.stage i = .running (.done value)) :
      Step crew w { w with stage := Function.update w.stage i (.finished (.ok value)) }
  /-- A process comes to its failure. -/
  | fail {i : ι} {error : Error} (h : w.stage i = .running (.fail error)) :
      Step crew w { w with stage := Function.update w.stage i (.finished (.error error)) }
  /-- A process dies. -/
  | stop {i : ι} {rest : Action α} (h : w.stage i = .running rest) :
      Step crew w { w with stage := Function.update w.stage i .stopped }

/-- What a crew keeps in order: the processes alive have different ids and are safe, and what the
others ended with still is as wanted. -/
structure Orderly (crew : Crew ι α) (protocol : Protocol)
    (Q : ι → Except Error α → Shared → Prop) (w : World ι α) : Prop where
  sound : protocol.Sound w.shared
  apart : ∀ i j rest rest', w.stage i = .running rest → w.stage j = .running rest' →
    crew.processId i = crew.processId j → i = j
  running : ∀ i rest, w.stage i = .running rest →
    Safe protocol (crew.processId i) (Q i) rest w.shared
  finished : ∀ i result, w.stage i = .finished result → Q i result w.shared

/-- What becomes of what is shared in the course of a run within a protocol. -/
abbrev Steps (crew : Crew ι α) (protocol : Protocol) : Shared → Shared → Prop :=
  ReflTransGen fun s s' => ∃ i, protocol.Guarantee (crew.processId i) s s'

variable {crew : Crew ι α} {protocol : Protocol} {Q : ι → Except Error α → Shared → Prop}
  {w w' : World ι α}

/-- A process alive has an id of its own. -/
theorem Orderly.ne_processId (h : crew.Orderly protocol Q w) {i j : ι} {rest rest' : Action α}
    (hi : w.stage i = .running rest) (hj : w.stage j = .running rest') (hne : j ≠ i) :
    crew.processId j ≠ crew.processId i := fun hid => hne (h.apart j i _ _ hj hi hid)

/-- A step within the protocol, by a process alive, is nothing to the others. -/
theorem Orderly.spares (h : crew.Orderly protocol Q w) {i : ι} {rest : Action α} {s : Shared}
    (hi : w.stage i = .running rest) (hg : protocol.Guarantee (crew.processId i) w.shared s)
    {j : ι} {rest' : Action α} (hj : w.stage j = .running rest') (hne : j ≠ i) :
    Safe protocol (crew.processId j) (Q j) rest' s :=
  (h.running j rest' hj).rely
    ⟨crew.processId i, (h.ne_processId hi hj hne).symm, hg⟩

variable [DecidableEq ι]

/-- A stage that is set is either the process's own new one, or another one's as it was. -/
theorem stage_update {stage : ι → Stage α} {i j : ι} {new st : Stage α}
    (h : Function.update stage i new j = st) : j = i ∧ new = st ∨ j ≠ i ∧ stage j = st := by
  by_cases hj : j = i
  · subst hj
    rw [Function.update_self] at h
    exact Or.inl ⟨rfl, h⟩
  · rw [Function.update_of_ne hj] at h
    exact Or.inr ⟨hj, h⟩

/-- A crew stays in order when one process comes to a new stage, given that it is safe there and
that nobody else minds. -/
theorem Orderly.update (h : crew.Orderly protocol Q w) {i : ι} {s : Shared} {st : Stage α}
    (hs : protocol.Sound s)
    (hother : ∀ j rest, j ≠ i → w.stage j = .running rest →
      Safe protocol (crew.processId j) (Q j) rest s)
    (hdone : ∀ j result, w.stage j = .finished result → Q j result s)
    (hsafe : ∀ rest, st = .running rest → Safe protocol (crew.processId i) (Q i) rest s ∧
      ∀ j rest', j ≠ i → w.stage j = .running rest' → crew.processId j ≠ crew.processId i)
    (hend : ∀ result, st = .finished result → Q i result s) :
    crew.Orderly protocol Q ⟨s, Function.update w.stage i st⟩ := by
  refine ⟨hs, ?_, ?_, ?_⟩
  · intro j k rest rest' hj hk hid
    obtain ⟨hji, hst⟩ | ⟨hji, hj'⟩ := stage_update hj
    · obtain ⟨hki, -⟩ | ⟨hki, hk'⟩ := stage_update hk
      · rw [hji, hki]
      · exact absurd (hji ▸ hid).symm ((hsafe rest hst).2 k rest' hki hk')
    · obtain ⟨hki, hst⟩ | ⟨-, hk'⟩ := stage_update hk
      · exact absurd (hki ▸ hid) ((hsafe rest' hst).2 j rest hji hj')
      · exact h.apart j k rest rest' hj' hk' hid
  · intro j rest hj
    obtain ⟨rfl, hst⟩ | ⟨hji, hj⟩ := stage_update hj
    · exact (hsafe rest hst).1
    · exact hother j rest hji hj
  · intro j result hj
    obtain ⟨rfl, hst⟩ | ⟨hji, hj⟩ := stage_update hj
    · exact hend result hst
    · exact hdone j result hj

/-- **A step keeps a crew in order,** and changes what is shared within the protocol. The process
that does it is safe and goes on to be so; the others are safe against it. -/
theorem Orderly.step
    (hsafe : ∀ i s, protocol.Sound s →
      Safe protocol (crew.processId i) (Q i) (crew.program i) s)
    (hQ : ∀ i result, protocol.Lasting (Q i result))
    (h : crew.Orderly protocol Q w) (hstep : crew.Step w w') :
    crew.Orderly protocol Q w' ∧
      (w'.shared = w.shared ∨
        ∃ i, protocol.Guarantee (crew.processId i) w.shared w'.shared) := by
  have hsame : ∀ i j rest, j ≠ i → w.stage j = .running rest →
      Safe protocol (crew.processId j) (Q j) rest w.shared := fun _ j rest _ => h.running j rest
  cases hstep with
  | start hi hid =>
      refine ⟨h.update h.sound (hsame _) h.finished ?_ fun _ hst => by simp at hst, Or.inl rfl⟩
      rintro rest hst
      obtain rfl := Stage.running.inj hst
      exact ⟨hsafe _ _ h.sound, fun j rest' _ hj => hid j rest' hj⟩
  | alter hi ha =>
      obtain ⟨hg, hnew⟩ := (h.running _ _ hi).alter ha
      refine ⟨?_, Or.inr ⟨_, hg⟩⟩
      have hupdate := h.update (protocol.sound _ _ _ hg h.sound)
        (fun j rest hne hj => h.spares hi hg hj hne)
        (fun j result hj => hQ j result _ _ _ h.sound hg (h.finished j result hj))
        (fun rest hst => by
          obtain rfl := Stage.running.inj hst
          exact ⟨hnew, fun j rest' hne hj => h.ne_processId hi hj hne⟩)
        fun _ hst => by simp at hst
      rwa [← hi, Function.update_eq_self] at hupdate
  | answer hi result =>
      obtain ⟨hg, hnew⟩ := (h.running _ _ hi).answer result
      refine ⟨?_, Or.inr ⟨_, hg⟩⟩
      refine h.update (protocol.sound _ _ _ hg h.sound)
        (fun j rest hne hj => h.spares hi hg hj hne)
        (fun j result hj => hQ j result _ _ _ h.sound hg (h.finished j result hj)) ?_
        fun _ hst => by simp at hst
      rintro rest hst
      obtain rfl := Stage.running.inj hst
      exact ⟨hnew, fun j rest' hne hj => h.ne_processId hi hj hne⟩
  | finish hi =>
      refine ⟨h.update h.sound (hsame _) h.finished (fun _ hst => by simp at hst) ?_, Or.inl rfl⟩
      rintro result hst
      obtain rfl := Stage.finished.inj hst
      exact h.running _ _ hi _ .refl
  | fail hi =>
      refine ⟨h.update h.sound (hsame _) h.finished (fun _ hst => by simp at hst) ?_, Or.inl rfl⟩
      rintro result hst
      obtain rfl := Stage.finished.inj hst
      exact h.running _ _ hi _ .refl
  | stop hi =>
      exact ⟨h.update h.sound (hsame _) h.finished (fun _ hst => by simp at hst)
        fun _ hst => by simp at hst, Or.inl rfl⟩

end Crew
end ProcessKit
