/-
# Technologies

A technology is a document with the name and the directory it was loaded under.
-/

import ProcessKit.Settings.Store
import ProcessKit.Technology.Document

namespace ProcessKit

/-- A technology. -/
structure Technology where
  name : String
  path : Path
  document : Document

namespace Technology

/-- The directory that a base variable names. An empty variable names the technology's own. -/
def baseDir (technology : Technology) (settings : Settings) (baseVar : String) :
    Except Error Path :=
  if baseVar = "" then .ok technology.path
  else do
    match ← settings.text? baseVar with
    | some dir => return ⟨dir⟩
    | none => .error (.settingNotFound baseVar technology.name)

/-- The installs that the document declares. -/
def installs (technology : Technology) : List Install := technology.document.installs.getD []

/-- The tarballs that the document declares. -/
def tarballs (technology : Technology) : List Tarball := technology.document.tarballs.getD []

/-- The libraries that the document declares. -/
def libraries (technology : Technology) : List Library := technology.document.libraries.getD []

/-- The first declared library of a name. -/
def library? (technology : Technology) (name : String) : Option Library :=
  technology.libraries.find? fun library => library.name == some name

end Technology
end ProcessKit
