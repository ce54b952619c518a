/-
# What actions end in

`Action.Yields Q` says that every value that an action may end in satisfies `Q`, whatever the
answers to its requests are. `Action.Fails P` says the same of its failures, as long as the tool
fails as a program does: it cannot be started, or it does not exit with success. Like the requests
of an action, its ends are read off the way it is put together; `Yields.run` and `Fails.run` turn
that into statements about runs. The archive tool that is really used fails as a program does
(`failsAsProgram_tool`) and prints nothing (`silent_tool`).

What the answers are is left open but for one thing: a call of the tool fails only as a program does
(`Request.MayGet`). What is at a path, whether a file can be read and whether a directory can be
made is not asked. So what is proved in this way of an action holds on every machine, and does not
depend on what the action itself has written before.

Where one action follows another, the values of the first one may be limited before the failures of
the second one are looked at (`Fails.bind_yields`). This is how it is known that a failure cannot
occur because something was found out before.
-/

import ProcessKit.Host.Programs
import ProcessKit.Proofs.Host.Asking

namespace ProcessKit

/-- A failure of a program. -/
def Error.OfProgram : Error → Prop
  | .toolFailed .. | .commandFailed _ => True
  | _ => False

/-- The tool fails only as a program does. -/
def Tool.FailsAsProgram (tool : Tool) : Prop :=
  ∀ call machine error, (tool call machine).1 = .error error → error.OfProgram

/-- The programs that are found in an environment do so. -/
theorem failsAsProgram_tool (environment : Environment) :
    (Programs.tool environment).FailsAsProgram := by
  intro call machine error h
  unfold Programs.tool Programs.runOn at h
  dsimp only at h
  split at h
  · obtain rfl := Except.error.inj h
    trivial
  · split at h
    · exact absurd h (by simp)
    · obtain rfl := Except.error.inj h
      trivial
    · obtain rfl := Except.error.inj h
      trivial

/-- What the programs print is not printed by the caller. -/
theorem silent_tool (environment : Environment) : (Programs.tool environment).Silent := by
  intro call machine
  unfold Programs.tool Programs.runOn
  dsimp only
  split
  · rfl
  · split <;> rfl

/-- The answers that a request may get: a call of the tool fails only as a program does. -/
def Request.MayGet : (r : Request) → r.Reply → Prop
  | .tool _, result => ∀ error, result = .error error → error.OfProgram
  | _, _ => True

/-- The answer that a machine gives to a request is one that the request may get, with a tool that
fails as programs do. -/
theorem Request.mayGet_perform {tool : Tool} (htool : tool.FailsAsProgram) (machine : Machine)
    (r : Request) : r.MayGet (machine.perform tool r).1 := by
  cases r with
  | tool call => exact fun error => htool call _ error
  | _ => trivial

namespace Action

variable {α β : Type} {P Q : Error → Prop}

/-- Every value that an action may end in satisfies `Q`. -/
def Yields (Q : α → Prop) : Action α → Prop
  | .done value => Q value
  | .fail _ => True
  | .ask _ next => ∀ reply, (next reply).Yields Q

section

variable {Q : α → Prop} {R : β → Prop}

/-- An action that ends at once yields its value. -/
@[simp] theorem yields_pure {value : α} : (pure value : Action α).Yields Q ↔ Q value := Iff.rfl

/-- A failure yields nothing. -/
@[simp] theorem yields_fail (error : Error) : (Action.fail error : Action α).Yields Q := trivial

/-- A result yields its value, if it has one. -/
theorem yields_ofExcept {result : Except Error α} (h : ∀ value, result = .ok value → Q value) :
    (ofExcept result).Yields Q := by
  cases result with
  | ok value => exact h value rfl
  | error error => trivial

/-- Every action yields something or fails, and nothing is said of either. -/
theorem yields_true (action : Action α) : action.Yields fun _ => True := by
  induction action with
  | done value => trivial
  | fail error => trivial
  | ask r next ih => exact ih

/-- What is yielded satisfies whatever follows from what is known of it. -/
theorem Yields.mono {Q' : α → Prop} {action : Action α} (h : action.Yields Q)
    (hQ : ∀ value, Q value → Q' value) : action.Yields Q' := by
  induction action with
  | done value => exact hQ value h
  | fail error => trivial
  | ask r next ih => exact fun reply => ih reply (h reply)

/-- **One action after another** yields what the second one does, given what the first one does.
Values that the first one cannot give need not be thought of. -/
theorem Yields.bind {action : Action α} {f : α → Action β} (h : action.Yields Q)
    (hf : ∀ value, Q value → (f value).Yields R) : (action >>= f).Yields R := by
  induction action with
  | done value => exact hf value h
  | fail error => trivial
  | ask r next ih => exact fun reply => ih reply (h reply)

/-- Whatever an action yields, another one may follow it. -/
theorem yields_bind {action : Action α} {f : α → Action β} (hf : ∀ value, (f value).Yields R) :
    (action >>= f).Yields R := (yields_true action).bind fun value _ => hf value

/-- **A run yields** only what the action may yield, on every machine and with every tool. -/
theorem Yields.run {action : Action α} (h : action.Yields Q) {tool : Tool} {machine : Machine}
    {value : α} (hok : (action.run tool machine).1 = .ok value) : Q value := by
  induction action generalizing machine with
  | done value' =>
      obtain rfl := Except.ok.inj hok
      exact h
  | fail error => exact absurd hok (by simp [Action.run])
  | ask r next ih => exact ih _ (h _) hok

end

/-- Every failure that an action may end in satisfies `P`. -/
def Fails (P : Error → Prop) : Action α → Prop
  | .done _ => True
  | .fail error => P error
  | .ask r next => ∀ reply, r.MayGet reply → (next reply).Fails P

/-- An action that ends at once does not fail. -/
@[simp] theorem fails_pure (value : α) : (pure value : Action α).Fails P := trivial

/-- A failure fails with its own error. -/
@[simp] theorem fails_fail {error : Error} : (Action.fail error : Action α).Fails P ↔ P error :=
  Iff.rfl

/-- A result fails with its error, if it has one. -/
theorem fails_ofExcept {result : Except Error α} (h : ∀ error, result = .error error → P error) :
    (ofExcept result).Fails P := by
  cases result with
  | ok value => trivial
  | error error => exact h error rfl

/-- A request by itself never fails: refusals are answers. -/
theorem fails_request (r : Request) : (request r).Fails P := fun _ _ => trivial

/-- The errors of an action satisfy whatever follows from what is known of them. -/
theorem Fails.mono {action : Action α} (h : action.Fails P) (hPQ : ∀ error, P error → Q error) :
    action.Fails Q := by
  induction action with
  | done value => trivial
  | fail error => exact hPQ error h
  | ask r next ih => exact fun reply hreply => ih reply (h reply hreply)

/-- **One action after another** fails with what the first one does, or the second one, given what
the first one yields. -/
theorem Fails.bind_yields {action : Action α} {f : α → Action β} {R : α → Prop}
    (h : action.Fails P) (hR : action.Yields R) (hf : ∀ value, R value → (f value).Fails P) :
    (action >>= f).Fails P := by
  induction action with
  | done value => exact hf value hR
  | fail error => exact h
  | ask r next ih => exact fun reply hreply => ih reply (h reply hreply) (hR reply)

/-- **One action after another** fails with what the first one does, or the second one, whatever
lies between them. -/
theorem Fails.bind {action : Action α} {f : α → Action β} (h : action.Fails P)
    (hf : ∀ value, (f value).Fails P) : (action >>= f).Fails P :=
  h.bind_yields (yields_true action) fun value _ => hf value

/-- A failure that is attempted is one of the failures of the action. -/
theorem Fails.attempt_bind {action : Action α} {f : Except Error α → Action β}
    (h : action.Fails Q) (hok : ∀ value, (f (.ok value)).Fails P)
    (herror : ∀ error, Q error → (f (.error error)).Fails P) :
    (action.attempt >>= f).Fails P := by
  induction action with
  | done value => exact hok value
  | fail error => exact herror error h
  | ask r next ih => exact fun reply hreply => ih reply (h reply hreply)

/-- **A run fails** only with what the action may fail with, on every machine and with a tool that
fails as a program does. -/
theorem Fails.run {action : Action α} (h : action.Fails P) {tool : Tool}
    (htool : tool.FailsAsProgram) {machine : Machine} {error : Error}
    (herror : (action.run tool machine).1 = .error error) : P error := by
  induction action generalizing machine with
  | done value => exact absurd herror (by simp [Action.run])
  | fail error' =>
      obtain rfl := Except.error.inj herror
      exact h
  | ask r next ih => exact ih _ (h _ (r.mayGet_perform htool machine)) herror

section

variable {path : Path} {context : String}

/-- Looking for a directory does not fail. -/
theorem fails_isDir : (isDir path).Fails P := (fails_request _).bind fun _ => fails_pure _

/-- Looking for a file does not fail. -/
theorem fails_isFile : (isFile path).Fails P := (fails_request _).bind fun _ => fails_pure _

/-- Looking whether anything is there does not fail. -/
theorem fails_pathExists : (pathExists path).Fails P := (fails_request _).bind fun _ => fails_pure _

/-- A refusal of the file system. -/
theorem fails_unless (h : P (.io context)) (done : Bool) :
    (unless done do Action.fail (.io context) : Action Unit).Fails P := by
  cases done with
  | true => trivial
  | false => exact h

/-- Writing a file fails with the I/O error of its context, and with no other. -/
theorem fails_writeFile (bytes : Bytes) (h : P (.io context)) :
    (writeFile path bytes context).Fails P := (fails_request _).bind (fails_unless h)

/-- Making directories fails with the I/O error of its context, and with no other. -/
theorem fails_createDirAll (h : P (.io context)) : (createDirAll path context).Fails P :=
  (fails_request _).bind (fails_unless h)

/-- Removing a directory fails with the I/O error of its context, and with no other. -/
theorem fails_removeDirAll (h : P (.io context)) : (removeDirAll path context).Fails P :=
  (fails_request _).bind (fails_unless h)

/-- An attempt to remove a directory does not fail, even if the removal is refused. -/
theorem fails_tryRemoveDirAll : (tryRemoveDirAll path).Fails P :=
  (fails_request _).bind fun _ => fails_pure _

/-- A call of the tool fails as a program does. -/
theorem fails_callTool (call : ToolCall) : (callTool call).Fails Error.OfProgram :=
  fun _ hreply => fails_ofExcept hreply

/-- Logging does not fail. -/
theorem fails_log {level : Level} {message : String} : (log level message).Fails P :=
  fails_request _

end

end Action
end ProcessKit
