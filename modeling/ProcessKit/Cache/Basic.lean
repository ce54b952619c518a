/-
# The layout of a cache

A cache is a directory of its own for each technology. The tarball `t` is unpacked to `extracted/t`,
by way of a staging directory beside it that carries the process id, and the file
`markers/t.complete` tells that it is complete. A tarball's path must be the name of an entry in a
directory, so that all of this stays inside the cache.
-/

import ProcessKit.Technology.Document
import ProcessKit.Error

namespace ProcessKit

/-- A cache, as one process sees it. -/
structure Cache where
  dir : Path
  processId : Nat
  deriving DecidableEq, Repr

/-- How far the extraction of a tarball has come. -/
inductive ExtractionState where
  /-- There is no target directory. -/
  | missing
  /-- There is a target directory that is not marked. -/
  | incomplete
  /-- There is a marked target directory. -/
  | complete
  deriving DecidableEq, Repr

/-- The word for a state. -/
def ExtractionState.render : ExtractionState → String
  | .missing => "missing"
  | .incomplete => "incomplete"
  | .complete => "complete"

/-- Whether a text is the name of an entry in a directory. -/
def isEntryName (name : String) : Bool :=
  name != "" && name != "." && name != ".." && !name.toList.contains '/'

/-- The refusal of a tarball whose path is not the name of an entry. -/
def Tarball.refusal (tarball : Tarball) : Error :=
  .pathInvalid tarball.path "tarball path must be a single file name"

/-- The name of a tarball's entry: the only step of its path, when that is a name and there is
nothing else in the text, such as a slash behind it. -/
def Tarball.entryName (tarball : Tarball) : Except Error String :=
  match (Path.mk tarball.path).components with
  | [.name name] => if name = tarball.path then .ok tarball.path else .error tarball.refusal
  | _ => .error tarball.refusal

namespace Cache

/-- The directory of all unpacked tarballs. -/
def extractedDir (cache : Cache) : Path := cache.dir.join ⟨"extracted"⟩

/-- The directory of the markers. -/
def markersDir (cache : Cache) : Path := cache.dir.join ⟨"markers"⟩

/-- Where the tarball of a name is unpacked. -/
def target (cache : Cache) (name : String) : Path := cache.extractedDir.join ⟨name⟩

/-- The name of the directory that a process unpacks the tarball of a name into. -/
def stagingName (name : String) (processId : Nat) : String :=
  "." ++ name ++ ".partial-" ++ toString processId

/-- Where the tarball of a name is unpacked before it is moved to its target. -/
def staging (cache : Cache) (name : String) : Path :=
  cache.extractedDir.join ⟨stagingName name cache.processId⟩

/-- The file that tells that the tarball of a name is complete. -/
def marker (cache : Cache) (name : String) : Path := cache.markersDir.join ⟨name ++ ".complete"⟩

/-- The target directory of a tarball. -/
def targetDir (cache : Cache) (tarball : Tarball) : Except Error Path :=
  tarball.entryName.map cache.target

end Cache
end ProcessKit
