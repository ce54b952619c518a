/-
# How unpacking and resolving fail

Making sure of a tarball fails in one of five ways (`fails_ensureExtracted`): its path is refused,
its base directory cannot be determined, the file system refuses something, or the archive tool
cannot be started or does not succeed. Determining a base directory fails only with what is wrong
with a setting (`baseDir_eq_error`).

A source that a path has never leaves the path without one (`fails_resolveWith`), and the cache is
missed only where there is none and a tarball needs it (`fails_resolve`).

The failures are read off the actions, part by part, without running them. An error of the tool
comes back with the tarball and the technology it is about (`ExtractionFailure.attribute`), and
errors of the file system as they are. What is excluded in this way is excluded on every machine and
for every settings: unpacking never fails with an error about a path, and resolving a path that has
a source never says that it has none.
-/

import ProcessKit.Proofs.Host.Ending
import ProcessKit.Proofs.Settings.Layers
import ProcessKit.Proofs.Technology.Resolution

namespace ProcessKit

namespace Technology

/-- **A base directory that cannot be determined:** the setting is missing, or it is no text. A
source without a base variable has the directory of the technology. -/
theorem baseDir_eq_error {technology : Technology} {settings : Settings} {baseVar : String}
    {error : Error} (h : technology.baseDir settings baseVar = .error error) :
    error = .settingNotFound baseVar technology.name ∨
      ∃ reason, error = .settingInvalid baseVar reason := by
  rw [baseDir] at h
  split_ifs at h with hvar
  cases htext : settings.text? baseVar with
  | error error' =>
      rw [htext] at h
      obtain rfl := Except.error.inj h
      exact Or.inr (settings.eq_settingInvalid_of_text? baseVar htext)
  | ok value =>
      rw [htext] at h
      cases value with
      | none => exact Or.inl (Except.error.inj h).symm
      | some dir => exact absurd h (by simp [bind, Except.bind, pure, Except.pure])

end Technology

namespace Cache

/-- **How making sure of a tarball fails.** -/
inductive ExtractionFailure (technology : Technology) (settings : Settings) (tarball : Tarball) :
    Error → Prop
  | refused : ExtractionFailure technology settings tarball tarball.refusal
  | noBase {error : Error} (h : technology.baseDir settings tarball.baseVar = .error error) :
      ExtractionFailure technology settings tarball error
  | io (context : String) : ExtractionFailure technology settings tarball (.io context)
  | tool (command : String) (code : Option Int) (stderr : String) :
      ExtractionFailure technology settings tarball
        (.extraction tarball.path technology.name command code stderr)
  | notStarted (command : String) :
      ExtractionFailure technology settings tarball (.commandFailed command)

variable {cache : Cache} {technology : Technology} {settings : Settings} {tarball : Tarball}
  {P : Error → Prop}

/-- Asking for the state of a tarball never fails, so all that is said of its errors holds. -/
theorem fails_stateOf (cache : Cache) (name : String) : (cache.stateOf name).Fails P := by
  refine Action.fails_isDir.bind fun there => ?_
  cases there with
  | false => exact Action.fails_pure _
  | true =>
      refine Action.fails_isFile.bind fun marked => ?_
      cases marked <;> exact Action.fails_pure _

section

variable (hio : ∀ context, P (.io context))

include hio

/-- Marking a tarball as complete fails, when it does, because its directory cannot be made or the
marker cannot be written. Both are errors of the disk. -/
theorem fails_markComplete (cache : Cache) (name : String) (archive : Path) :
    (cache.markComplete name archive).Fails P :=
  (Action.fails_createDirAll (hio _)).bind fun _ => Action.fails_writeFile _ (hio _)

/-- Preparing the staging directory fails, when it does, with an error of the disk: a stale one
cannot be removed, or the new one cannot be made. -/
theorem fails_prepareStaging (cache : Cache) (name : String) :
    (cache.prepareStaging name).Fails P := by
  refine Action.fails_pathExists.bind fun there => ?_
  cases there with
  | false => exact Action.fails_createDirAll (hio _)
  | true =>
      exact (Action.fails_removeDirAll (hio _)).bind fun _ => Action.fails_createDirAll (hio _)

/-- Publishing fails, when it does, with an error of the disk. -/
theorem fails_publish (cache : Cache) (name : String) : (cache.publish name).Fails P := by
  refine (Action.fails_request _).bind fun moved => ?_
  cases moved with
  | true => exact Action.fails_pure _
  | false =>
      refine Action.fails_isDir.bind fun there => ?_
      cases there with
      | true => exact Action.fails_log.bind fun _ => Action.fails_tryRemoveDirAll
      | false =>
          exact Action.fails_tryRemoveDirAll.bind fun _ => Action.fails_fail.2 (hio _)

end

/-- Unpacking fails with what the tool says, and with nothing else. -/
theorem fails_unpack (archive staging : Path) : (unpack archive staging).Fails Error.OfProgram :=
  (Action.fails_callTool _).bind fun _ => Action.fails_callTool _

/-- A failure of a program, put down to the tarball. -/
theorem ExtractionFailure.attribute {error : Error} (h : error.OfProgram) :
    ExtractionFailure technology settings tarball (error.attribute technology tarball) := by
  cases error with
  | toolFailed command code stderr => exact .tool command code stderr
  | commandFailed command => exact .notStarted command
  | _ => exact h.elim

/-- An unpacking that fails does so for the disk or for the tool. What the tool says comes back with
the tarball and the technology it is about. -/
theorem fails_extract (cache : Cache) (archive : Path) :
    (cache.extract technology tarball archive).Fails
      (ExtractionFailure technology settings tarball) := by
  refine (fails_prepareStaging .io cache _).bind fun _ => ?_
  refine (fails_unpack archive _).attempt_bind (fun _ => ?_) fun error herror => ?_
  · exact (fails_publish .io cache _).bind fun _ => fails_markComplete .io cache _ archive
  · exact Action.fails_tryRemoveDirAll.bind fun _ => Action.fails_fail.2 (.attribute herror)

/-- **Making sure of a tarball** fails in no other way. Each part of it has been followed above, and
what the tool says comes with the tarball and the technology. -/
theorem fails_ensureExtracted (cache : Cache) (technology : Technology) (settings : Settings)
    (tarball : Tarball) :
    (cache.ensureExtracted technology settings tarball).Fails
      (ExtractionFailure technology settings tarball) := by
  refine Action.Fails.bind (Action.fails_ofExcept fun error herror => ?_) fun target => ?_
  · rw [targetDir_eq] at herror
    split_ifs at herror
    obtain rfl := Except.error.inj herror
    exact .refused
  refine (Action.fails_ofExcept fun error herror => .noBase herror).bind fun base => ?_
  refine Action.fails_log.bind fun _ => (fails_stateOf cache _).bind fun state => ?_
  cases state with
  | complete => exact Action.fails_pure _
  | incomplete =>
      exact Action.fails_log.bind fun _ => (fails_markComplete .io cache _ _).bind fun _ =>
        Action.fails_pure _
  | missing =>
      exact (fails_extract cache _).bind fun _ => Action.fails_log.bind fun _ =>
        Action.fails_pure _

/-- None of these failures is about the path that is being resolved. -/
theorem ExtractionFailure.not_of_path {error : Error}
    (h : ExtractionFailure technology settings tarball error) (path name : String) :
    error ≠ .unresolvedPath path name ∧ error ≠ .cacheDirNotSet path name := by
  cases h with
  | noBase h =>
      obtain rfl | ⟨reason, rfl⟩ := Technology.baseDir_eq_error h
      · exact ⟨by simp, by simp⟩
      · exact ⟨by simp, by simp⟩
  | _ => exact ⟨by simp [Tarball.refusal], by simp [Tarball.refusal]⟩

end Cache

namespace Technology

variable {technology : Technology} {settings : Settings} {cache : Option Cache}

/-- **Following a source** never finds the path without a source, and misses the cache only where
there is none. -/
theorem fails_resolveWith (path : String) (rest : List String) (source : Source) :
    (technology.resolveWith settings cache path rest source).Fails fun error =>
      ∀ path name, error ≠ .unresolvedPath path name ∧
        (cache.isSome = true ∨ (∀ tarball, source ≠ .tarball tarball) →
          error ≠ .cacheDirNotSet path name) := by
  cases source with
  | install install =>
      refine Action.Fails.bind (Action.fails_ofExcept fun error herror => ?_) fun _ =>
        Action.fails_pure _
      obtain rfl | ⟨reason, rfl⟩ := baseDir_eq_error herror
      · exact fun path name => ⟨by simp, fun _ => by simp⟩
      · exact fun path name => ⟨by simp, fun _ => by simp⟩
  | tarball tarball =>
      cases cache with
      | none =>
          refine Action.fails_fail.2 fun path name => ⟨by simp, fun h => ?_⟩
          exact absurd h (by simp)
      | some c =>
          refine Action.Fails.bind ?_ fun _ => Action.fails_pure _
          refine (Cache.fails_ensureExtracted c technology settings tarball).mono ?_
          exact fun error h path name => ⟨(h.not_of_path path name).1,
            fun _ => (h.not_of_path path name).2⟩
  | libraryPrefix p => exact Action.fails_pure _

/-- **Resolving** misses the cache only where there is none though a tarball is declared. The source
that needs it is one of the declared tarballs. -/
theorem fails_resolve (library : Option Library) (path : String)
    (h : cache.isSome = true ∨ technology.tarballs = []) :
    (technology.resolve settings cache library path).Fails fun error =>
      ∀ path name, error ≠ .cacheDirNotSet path name := by
  rw [resolve, pieces_eq]
  split_ifs
  · exact Action.fails_fail.2 fun _ _ => by simp
  · exact Action.fails_pure _
  refine Action.Fails.bind ?_ fun _ => Action.fails_log.bind fun _ => Action.fails_pure _
  rw [resolveSegments, candidates_eq]
  split
  · exact Action.fails_fail.2 fun _ _ => by simp
  · rename_i source hone
    refine (fails_resolveWith path _ source).mono fun error hne path name =>
      (hne path name).2 (h.imp_right fun hnone tarball => ?_)
    rintro rfl
    have hdeclared : tarball ∈ technology.tarballs :=
      mem_tarballs_of_matching (by rw [hone]; exact List.mem_singleton.2 rfl)
    rw [hnone] at hdeclared
    exact absurd hdeclared List.not_mem_nil
  · exact Action.fails_fail.2 fun _ _ => by simp

end Technology
end ProcessKit
