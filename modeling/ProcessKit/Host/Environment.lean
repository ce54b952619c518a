/-
# The environment of a process

A process is started with variables, by an account with a home directory. A user's base directory
is told by a variable that holds an absolute path, or else lies in the home directory.
-/

import ProcessKit.Path

namespace ProcessKit

/-- What a process is told by the one that started it. -/
structure Environment where
  /-- The variables with their values, the first of a name deciding. -/
  bindings : List (String × String) := []
  /-- The home directory of the user's account. -/
  accountHome : Option Path := none

namespace Environment

/-- The value of a variable. -/
def get? (environment : Environment) (name : String) : Option String :=
  environment.bindings.lookup name

/-- The user's home directory: a variable that is not empty, or that of the account. -/
def home? (environment : Environment) : Option Path :=
  match environment.get? "HOME" with
  | some "" | none => environment.accountHome
  | some home => some ⟨home⟩

/-- A base directory of the user: an absolute path in a variable, or a directory of the home
directory, or else the current directory. -/
def baseDir (environment : Environment) (name inHome : String) : Path :=
  match (environment.get? name).map Path.mk with
  | some dir => if dir.isAbsolute then dir else fallback
  | none => fallback
where
  /-- The directory where the variable does not tell one. -/
  fallback : Path :=
    match environment.home? with
    | some home => home.join ⟨inHome⟩
    | none => ⟨"."⟩

end Environment

end ProcessKit
