/-
# Making the files of a technology available

A technology whose document declares installs has its files there, even when the list is empty;
otherwise its tarballs are unpacked. A document with neither has no files.
-/

import ProcessKit.Cache.Extraction
import ProcessKit.Technology.Installs

namespace ProcessKit
namespace Technology

/-- Whether the files of the technology are available, after unpacking them if need be. -/
def makeAvailable (technology : Technology) (settings : Settings) (cache : Cache) :
    Action Bool := do
  if technology.document.installs.isSome then technology.checkInstalls settings
  else if technology.document.tarballs.isSome then
    cache.extractAll technology settings
    return true
  else
    Action.log .error
      ("Technology " ++ technology.name ++ " specified neither tarballs nor installs")
    return false

end Technology
end ProcessKit
