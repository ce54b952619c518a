/-
# Resolving library paths

The first segment of a relative path names its source: an install, a tarball, or an extra prefix of
the library at hand. Exactly one source must claim it. `candidates` lists all that do, and `resolve`
follows the only one; an absolute path stands for itself.
-/

import ProcessKit.Cache.Extraction

namespace ProcessKit

/-- A source of files that a path segment may name. -/
inductive Source where
  | install (install : Install)
  | tarball (tarball : Tarball)
  | libraryPrefix (libraryPrefix : LibraryPrefix)
  deriving DecidableEq, Repr

namespace Source

/-- The segment that names the source. -/
def name : Source → String
  | .install i => i.path
  | .tarball t => t.path
  | .libraryPrefix p => p.name

/-- The source in a message. -/
def describe : Source → String
  | .install i => "install '" ++ i.path ++ "'"
  | .tarball t => "tarball '" ++ t.path ++ "'"
  | .libraryPrefix p => "library prefix '" ++ p.name ++ "'"

end Source

namespace Technology

/-- All sources in the scope of a library: the installs, the tarballs, then the library's extra
prefixes. -/
def sources (technology : Technology) (library : Option Library) : List Source :=
  technology.installs.map .install ++ technology.tarballs.map .tarball ++
    ((library.map Library.extraPrefixes).getD []).map .libraryPrefix

/-- The sources that a segment names. -/
def candidates (technology : Technology) (library : Option Library) (segment : String) :
    List Source :=
  (technology.sources library).filter fun source => source.name == segment

/-- The path that one source gives for a path and its segments after the first. -/
def resolveWith (technology : Technology) (settings : Settings) (cache : Option Cache)
    (path : String) (rest : List String) : Source → Action Path
  | .install install => do
    let base ← Action.ofExcept (technology.baseDir settings install.baseVar)
    return base.extend rest
  | .tarball tarball =>
    match cache with
    | none => .fail (.cacheDirNotSet path technology.name)
    | some cache => do
      let _ ← cache.ensureExtracted technology settings tarball
      return cache.extractedDir.join ⟨path⟩
  | .libraryPrefix p => return p.prepend (Path.extend ⟨""⟩ rest)

/-- The path that a relative path resolves to, given its segments. -/
def resolveSegments (technology : Technology) (settings : Settings) (cache : Option Cache)
    (library : Option Library) (path segment : String) (rest : List String) : Action Path :=
  match technology.candidates library segment with
  | [] => .fail (.unresolvedPath path technology.name)
  | [source] => technology.resolveWith settings cache path rest source
  | sources => .fail (.ambiguousPath path technology.name (sources.map Source.describe))

/-- The path that a library path resolves to. A tarball on the way is unpacked if need be. -/
def resolve (technology : Technology) (settings : Settings) (cache : Option Cache)
    (library : Option Library) (path : String) : Action Path :=
  if path = "" then .fail (.pathInvalid path "path must not be empty")
  else if (Path.mk path).isAbsolute then return ⟨path⟩
  else
    match Path.pieces path with
    | [] => .fail (.unresolvedPath path technology.name)
    | segment :: rest => do
      let resolved ← technology.resolveSegments settings cache library path segment rest
      Action.log .debug ("Resolved " ++ path ++ " to " ++ resolved.text)
      return resolved

end Technology
end ProcessKit
