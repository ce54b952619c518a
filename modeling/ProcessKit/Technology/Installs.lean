/-
# Checking installs

The installs of a technology are present when every one of them that names a settings key has a
directory there. The first one that has not decides; those after it are not looked at.
-/

import ProcessKit.Host.Action
import ProcessKit.Technology.Basic

namespace ProcessKit
namespace Technology

/-- Whether an install is present. One in the technology's own directory always is. -/
def checkInstall (technology : Technology) (settings : Settings) (install : Install) :
    Action Bool := do
  if install.baseVar = "" then return true
  let dir ← Action.ofExcept (technology.baseDir settings install.baseVar)
  if ← Action.pathExists dir then
    Action.log .debug ("Found install " ++ install.path ++ " at " ++ dir.text)
    return true
  else
    Action.log .error
      ("installs " ++ dir.text ++ " for technology " ++ technology.name ++ " does not exist")
    return false

/-- Whether all of some installs are present. -/
def checkEach (technology : Technology) (settings : Settings) : List Install → Action Bool
  | [] => return true
  | install :: rest => do
    if ← technology.checkInstall settings install then technology.checkEach settings rest
    else return false

/-- Whether the installs of the technology are present. -/
def checkInstalls (technology : Technology) (settings : Settings) : Action Bool :=
  technology.checkEach settings technology.installs

end Technology
end ProcessKit
