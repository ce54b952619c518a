/-
# Unpacking tarballs

A tarball is unpacked the first time it is needed. The archive tool works in the staging directory,
and one renaming publishes the finished tree, so that a target directory never holds half a tree and
is never changed again. When another process has published the target in the meantime, its tree
stays and the staging directory is discarded. A target without a marker is taken as it is and
marked.
-/

import ProcessKit.Cache.Basic
import ProcessKit.Host.Action
import ProcessKit.Technology.Basic

namespace ProcessKit

/-- A tool's failure, with the tarball and the technology it happened to. -/
def Error.attribute (technology : Technology) (tarball : Tarball) : Error → Error
  | .toolFailed command code stderr =>
    .extraction tarball.path technology.name command code stderr
  | error => error

namespace Cache

/-- Makes the directory of a cache. -/
def create (dir : Path) (processId : Nat) : Action Cache := do
  Action.createDirAll dir ("creating cache directory " ++ dir.text)
  return { dir, processId }

/-- The state of the tarball of a name. -/
def stateOf (cache : Cache) (name : String) : Action ExtractionState := do
  if !(← Action.isDir (cache.target name)) then return .missing
  else if ← Action.isFile (cache.marker name) then return .complete
  else return .incomplete

/-- The state of a tarball. -/
def state (cache : Cache) (tarball : Tarball) : Action ExtractionState := do
  cache.stateOf (← Action.ofExcept tarball.entryName)

/-- Marks the tarball of a name as complete. The marker holds the path of its archive. -/
def markComplete (cache : Cache) (name : String) (archive : Path) : Action Unit := do
  let marker := cache.marker name
  Action.createDirAll cache.markersDir ("creating " ++ cache.markersDir.text)
  Action.writeFile marker (Utf8.encode archive.text) ("writing marker " ++ marker.text)

/-- An empty staging directory for the tarball of a name. -/
def prepareStaging (cache : Cache) (name : String) : Action Unit := do
  let staging := cache.staging name
  if ← Action.pathExists staging then
    Action.removeDirAll staging ("removing stale staging " ++ staging.text)
  Action.createDirAll staging ("creating " ++ staging.text)

/-- Unpacks an archive and makes all of it accessible. -/
def unpack (archive staging : Path) : Action Unit := do
  Action.callTool (.extract archive staging)
  Action.callTool (.grantAccess staging)

/-- Moves the finished staging directory of the tarball of a name to its target, unless another
process has published the target already. -/
def publish (cache : Cache) (name : String) : Action Unit := do
  let staging := cache.staging name
  let target := cache.target name
  if ← Action.request (.rename staging target) then return
  else if ← Action.isDir target then
    Action.log .debug (name ++ " was extracted concurrently, discarding " ++ staging.text)
    Action.tryRemoveDirAll staging
  else
    Action.tryRemoveDirAll staging
    .fail (.io ("moving " ++ staging.text ++ " to " ++ target.text))

/-- Unpacks a tarball whose target is missing. -/
def extract (cache : Cache) (technology : Technology) (tarball : Tarball) (archive : Path) :
    Action Unit := do
  let staging := cache.staging tarball.path
  cache.prepareStaging tarball.path
  match ← (unpack archive staging).attempt with
  | .error error =>
    Action.tryRemoveDirAll staging
    .fail (error.attribute technology tarball)
  | .ok () =>
    cache.publish tarball.path
    cache.markComplete tarball.path archive

/-- Makes sure that a tarball is unpacked, and gives its target directory. -/
def ensureExtracted (cache : Cache) (technology : Technology) (settings : Settings)
    (tarball : Tarball) : Action Path := do
  let target ← Action.ofExcept (cache.targetDir tarball)
  let base ← Action.ofExcept (technology.baseDir settings tarball.baseVar)
  let archive := base.join ⟨tarball.path⟩
  Action.log .debug ("Extracting/verifying tarball " ++ archive.text)
  match ← cache.stateOf tarball.path with
  | .complete => return target
  | .incomplete =>
    Action.log .debug
      ("Adopting unmarked extraction of " ++ tarball.path ++ " at " ++ target.text)
    cache.markComplete tarball.path archive
    return target
  | .missing =>
    cache.extract technology tarball archive
    Action.log .info ("Extracted " ++ archive.text ++ " into " ++ target.text)
    return target

/-- Makes sure that tarballs are unpacked, up to the first one that fails. -/
def ensureEach (cache : Cache) (technology : Technology) (settings : Settings) :
    List Tarball → Action Unit
  | [] => return
  | tarball :: rest => do
    let _ ← cache.ensureExtracted technology settings tarball
    cache.ensureEach technology settings rest

/-- Makes sure that all tarballs of a technology are unpacked. -/
def extractAll (cache : Cache) (technology : Technology) (settings : Settings) : Action Unit :=
  cache.ensureEach technology settings technology.tarballs

end Cache
end ProcessKit
