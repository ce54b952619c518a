/-
# Carrying actions out

How `Action.run` goes along the ways that actions are put together. These equations are the only
facts about it that later proofs need: an action that follows another one runs on the machine that
the first one leaves, unless the first one fails.

There is one equation for each way to put actions together, and one for each operation that is a
request with an answer turned into a value or an error. A proof about a run rewrites with these from
the first request on, and takes a case for each answer. `run_bind_keeps` is the rule for what both
of two actions keep, which does not need to know how the first one ends.
-/

import ProcessKit.Host.Machine

namespace ProcessKit
namespace Action

variable {α β γ : Type} {tool : Tool} {machine : Machine}

/-- A request is answered by the machine, and the rest goes on from the answer on the machine after
it. -/
theorem run_ask (r : Request) (next : r.Reply → Action α) :
    (Action.ask r next).run tool machine =
      (next (machine.perform tool r).1).run tool (machine.perform tool r).2 := rfl

/-- An action that ends at once leaves the machine alone. -/
@[simp] theorem run_pure (value : α) :
    (pure value : Action α).run tool machine = (.ok value, machine) := rfl

/-- A failure leaves the machine alone. -/
@[simp] theorem run_fail (error : Error) :
    (Action.fail error : Action α).run tool machine = (.error error, machine) := rfl

/-- **One action after another.** The second one runs on the machine that the first one has left,
with its value; after a failure it does not run at all. -/
theorem run_bind (action : Action α) (f : α → Action β) :
    (action >>= f).run tool machine =
      match action.run tool machine with
      | (.ok value, machine) => (f value).run tool machine
      | (.error error, machine) => (.error error, machine) := by
  induction action generalizing machine with
  | done value => rfl
  | fail error => rfl
  | ask r next ih => exact ih _

/-- Three actions in a row are the same whichever two of them are put together first. -/
theorem bind_assoc (action : Action α) (f : α → Action β) (g : β → Action γ) :
    action >>= f >>= g = action >>= fun value => f value >>= g := by
  induction action with
  | done value => rfl
  | fail error => rfl
  | ask r next ih => exact congrArg (Action.ask r) (funext ih)

/-- What the first of two actions leaves, and the second one keeps, both of them leave, whether the
second one is reached or not. -/
theorem run_bind_keeps {P : Machine → Prop} {action : Action α} {f : α → Action β}
    (h : P (action.run tool machine).2)
    (hf : ∀ value machine', P machine' → P ((f value).run tool machine').2) :
    P ((action >>= f).run tool machine).2 := by
  rw [run_bind]
  cases hrun : action.run tool machine with
  | mk result machine' =>
      rw [hrun] at h
      cases result with
      | ok value => exact hf value machine' h
      | error error => exact h

/-- A result stands for itself and leaves the machine alone. -/
@[simp] theorem run_ofExcept (result : Except Error α) :
    (ofExcept result).run tool machine = (result, machine) := by
  cases result <;> rfl

/-- A single request is answered by the machine, and never fails. -/
@[simp] theorem run_request (r : Request) :
    (request r).run tool machine = (.ok (machine.perform tool r).1, (machine.perform tool r).2) :=
  rfl

/-- Logging adds a message to the log, and does nothing else. -/
@[simp] theorem run_log (level : Level) (message : String) :
    (log level message).run tool machine =
      (.ok (), { machine with log := machine.log ++ [(level, message)] }) := rfl

/-- Whether anything is there is seen at the end of the path, links followed. -/
@[simp] theorem run_pathExists (path : Path) :
    (pathExists path).run tool machine = (.ok (machine.disk.kind? path).isSome, machine) := rfl

/-- Whether a directory is there is seen at the end of the path, links followed. -/
@[simp] theorem run_isDir (path : Path) :
    (isDir path).run tool machine = (.ok (machine.disk.kind? path == some .dir), machine) := rfl

/-- Whether a file is there is seen at the end of the path, links followed. A device is none. -/
@[simp] theorem run_isFile (path : Path) :
    (isFile path).run tool machine = (.ok (machine.disk.kind? path == some .file), machine) := rfl

/-- Reading a text gives what the bytes of the file stand for, if they can be read. -/
theorem run_readText (path : Path) (context : String) :
    (readText path context).run tool machine =
      (match (machine.disk.readFile? path).bind Utf8.decode? with
        | some text => .ok text
        | none => .error (.io context), machine) := by
  rw [readText, run_bind, run_request]
  dsimp only [Machine.perform]
  cases (machine.disk.readFile? path).bind Utf8.decode? <;> rfl

/-- Making a directory, with what was made even when it fails. -/
theorem run_createDirAll (path : Path) (context : String) :
    (createDirAll path context).run tool machine =
      (if (machine.disk.createDirAll path).1 then .ok () else .error (.io context),
        { machine with disk := (machine.disk.createDirAll path).2 }) := by
  rw [createDirAll, run_bind, run_request]
  have hperform : machine.perform tool (.createDirAll path) =
      ((machine.disk.createDirAll path).1,
        { machine with disk := (machine.disk.createDirAll path).2 }) := rfl
  rw [hperform]
  dsimp only
  cases (machine.disk.createDirAll path).1 <;> rfl

/-- Writing a file. -/
theorem run_writeFile (path : Path) (bytes : Bytes) (context : String) :
    (writeFile path bytes context).run tool machine =
      match machine.disk.writeFile? path bytes with
      | some disk => (.ok (), { machine with disk })
      | none => (.error (.io context), machine) := by
  rw [writeFile, run_bind, run_request]
  have hperform : machine.perform tool (.write path bytes) =
      machine.update (machine.disk.writeFile? path bytes) := rfl
  rw [hperform]
  cases machine.disk.writeFile? path bytes <;> rfl

/-- Removing a directory, with what was removed even when it fails. -/
theorem run_removeDirAll (path : Path) (context : String) :
    (removeDirAll path context).run tool machine =
      (if (machine.disk.removeDirAll path).1 then .ok () else .error (.io context),
        { machine with disk := (machine.disk.removeDirAll path).2 }) := by
  rw [removeDirAll, run_bind, run_request]
  have hperform : machine.perform tool (.removeDirAll path) =
      ((machine.disk.removeDirAll path).1,
        { machine with disk := (machine.disk.removeDirAll path).2 }) := rfl
  rw [hperform]
  dsimp only
  cases (machine.disk.removeDirAll path).1 <;> rfl

/-- Removing a directory as far as that is possible never fails. -/
theorem run_tryRemoveDirAll (path : Path) :
    (tryRemoveDirAll path).run tool machine =
      (.ok (), { machine with disk := (machine.disk.removeDirAll path).2 }) := rfl

/-- Calling the tool fails with the error of the tool. -/
theorem run_callTool (call : ToolCall) :
    (callTool call).run tool machine = machine.perform tool (.tool call) := by
  rw [callTool, run_bind, run_request]
  exact run_ofExcept _

/-- **A failure as a value.** Attempting an action never fails, and leaves the machine that the
action leaves. -/
theorem run_attempt (action : Action α) :
    action.attempt.run tool machine =
      (.ok (action.run tool machine).1, (action.run tool machine).2) := by
  induction action generalizing machine with
  | done value => rfl
  | fail error => rfl
  | ask r next ih => exact ih _

end Action
end ProcessKit
