/-
# What actions ask for

`Action.Asks P` says that every request an action may make satisfies `P`, whatever the answers are.
Its rules follow the ways that actions are put together, so that it is read off an action without
running it. What every such request keeps of a machine, the whole action keeps (`Asks.keeps`); an
action whose requests are all quiet leaves the disk alone and does not call the tool (`run_quiet`),
and one whose requests are all silent leaves the output alone (`run_silent`).

`Action.trace` lists the requests of one run, each with the machine that it meets.

`Action.Composed` says that an action is put together from parts that are known otherwise. What
holds of the parts and of what comes between them, and goes over from actions to their sequence,
holds of the whole.

The two views meet in `Asks.mem_trace`: what is in the trace of a run is something that the action
may ask for. The first one is enough where a property of single requests is wanted, as that nothing
is written. The second one is needed where it matters what a request meets, as for the places that
it touches, or which answer it gets, as for the removals that may be refused (`RemovesAll`).
-/

import ProcessKit.Proofs.Host.Run

namespace ProcessKit

/-- A request that changes nothing on the disk and does not call the tool. -/
def Request.Quiet : Request → Prop
  | .kind _ | .read _ | .log .. | .print _ => True
  | _ => False

/-- A request that prints nothing. -/
def Request.Silent : Request → Prop
  | .print _ => False
  | _ => True

/-- A request that is no call of the tool. -/
def Request.Direct (r : Request) : Prop := ∀ call, r ≠ .tool call

/-- Whether a request that meets a machine is no removal that is refused. -/
def Request.removes (machine : Machine) : Request → Bool
  | .removeDirAll path => (machine.disk.removeDirAll path).1
  | _ => true

/-- Logging is no call of the tool. -/
theorem Request.direct_log (level : Level) (message : String) : (log level message).Direct :=
  fun _ => Request.noConfusion

/-- Removing a directory is no call of the tool. -/
theorem Request.direct_removeDirAll (path : Path) : (removeDirAll path).Direct :=
  fun _ => Request.noConfusion

/-- The tool prints nothing. -/
def Tool.Silent (tool : Tool) : Prop :=
  ∀ call machine, (tool call machine).2.output = machine.output

namespace Action

variable {α β : Type} {P : Request → Prop}

/-- Every request that an action may make satisfies `P`. -/
def Asks (P : Request → Prop) : Action α → Prop
  | .done _ | .fail _ => True
  | .ask r next => P r ∧ ∀ reply, (next reply).Asks P

/-- An action that ends at once asks for nothing. -/
@[simp] theorem asks_pure (value : α) : (pure value : Action α).Asks P := trivial

/-- A failure asks for nothing. -/
@[simp] theorem asks_fail (error : Error) : (Action.fail error : Action α).Asks P := trivial

/-- A result asks for nothing. -/
@[simp] theorem asks_ofExcept (result : Except Error α) : (ofExcept result).Asks P := by
  cases result <;> trivial

/-- A single request asks for itself. -/
@[simp] theorem asks_request (r : Request) : (request r).Asks P ↔ P r :=
  ⟨And.left, fun h => ⟨h, fun _ => trivial⟩⟩

/-- What an action asks for satisfies whatever follows from what is known of it. -/
theorem Asks.mono {Q : Request → Prop} {action : Action α} (h : action.Asks P)
    (hPQ : ∀ r, P r → Q r) : action.Asks Q := by
  induction action with
  | done value => trivial
  | fail error => trivial
  | ask r next ih => exact ⟨hPQ r h.1, fun reply => ih reply (h.2 reply)⟩

/-- **One action after another** asks for what the two of them ask for, whatever the first one gives
to the second. -/
theorem Asks.bind {action : Action α} {f : α → Action β} (h : action.Asks P)
    (hf : ∀ value, (f value).Asks P) : (action >>= f).Asks P := by
  induction action with
  | done value => exact hf value
  | fail error => trivial
  | ask r next ih => exact ⟨h.1, fun reply => ih reply (h.2 reply)⟩

/-- Attempting an action asks for what the action asks for. -/
theorem Asks.attempt {action : Action α} (h : action.Asks P) : action.attempt.Asks P := by
  induction action with
  | done value => trivial
  | fail error => trivial
  | ask r next ih => exact ⟨h.1, fun reply => ih reply (h.2 reply)⟩

/-- **What every request keeps** of a machine, the action keeps, by induction on the action. The
answers do not matter, since the requests satisfy `P` with any. -/
theorem Asks.keeps {action : Action α} (h : action.Asks P) {I : Machine → Prop} {tool : Tool}
    (hstep : ∀ r machine, P r → I machine → I (machine.perform tool r).2) {machine : Machine}
    (hI : I machine) : I (action.run tool machine).2 := by
  induction action generalizing machine with
  | done value => exact hI
  | fail error => exact hI
  | ask r next ih => exact ih _ (h.2 _) (hstep r machine h.1 hI)

/-- An action that only asks what is quiet leaves the disk alone and does not call the tool. -/
theorem run_quiet {action : Action α} (h : action.Asks Request.Quiet) (tool : Tool)
    (machine : Machine) :
    (action.run tool machine).2.disk = machine.disk ∧
      (action.run tool machine).2.calls = machine.calls := by
  refine h.keeps (I := fun m => m.disk = machine.disk ∧ m.calls = machine.calls) ?_ ⟨rfl, rfl⟩
  intro r machine' hr hI
  cases r with
  | kind path => exact hI
  | read path => exact hI
  | log level message => exact hI
  | print line => exact hI
  | _ => exact hr.elim

/-- What an action that only asks what is quiet comes to is a matter of the disk. -/
theorem result_of_quiet {action : Action α} (h : action.Asks Request.Quiet) (tool : Tool)
    {machine machine' : Machine} (hdisk : machine'.disk = machine.disk) :
    (action.run tool machine').1 = (action.run tool machine).1 := by
  induction action generalizing machine machine' with
  | done value => rfl
  | fail error => rfl
  | ask r next ih =>
      have hreply : (machine'.perform tool r).1 = (machine.perform tool r).1 ∧
          (machine'.perform tool r).2.disk = (machine.perform tool r).2.disk := by
        cases r with
        | kind path => exact ⟨congrArg (·.kind? path) hdisk, hdisk⟩
        | read path => exact ⟨congrArg (·.readFile? path) hdisk, hdisk⟩
        | log | print => exact ⟨rfl, hdisk⟩
        | _ => exact h.1.elim
      rw [run_ask, run_ask, hreply.1]
      exact ih _ (h.2 _) hreply.2

/-- **One action after another that only look** come to what they come to on their own: the second
one meets the disk that the first one has met. -/
theorem result_bind {action : Action α} {f : α → Action β} (h : action.Asks Request.Quiet)
    (hf : ∀ value, (f value).Asks Request.Quiet) (tool : Tool) (machine : Machine) :
    ((action >>= f).run tool machine).1 =
      (action.run tool machine).1.bind fun value => ((f value).run tool machine).1 := by
  obtain ⟨hdisk, -⟩ := run_quiet h tool machine
  rw [run_bind]
  cases hrun : action.run tool machine with
  | mk result next =>
      rw [hrun] at hdisk
      cases result with
      | error error => rfl
      | ok value => exact result_of_quiet (hf value) tool hdisk

/-- An action that never calls the tool makes no calls. -/
theorem calls_of_direct {action : Action α} (h : action.Asks Request.Direct) (tool : Tool)
    (machine : Machine) : (action.run tool machine).2.calls = machine.calls := by
  refine h.keeps (I := fun m => m.calls = machine.calls) (fun r machine' hr hI => ?_) rfl
  have hupdate : ∀ disk?, (machine'.update disk?).2.calls = machine.calls := by
    intro disk?
    cases disk? <;> exact hI
  cases r with
  | tool call => exact absurd rfl (hr call)
  | write => exact hupdate _
  | rename => exact hupdate _
  | _ => exact hI

/-- An action that prints nothing leaves the output alone, given that the tool does. -/
theorem run_silent {action : Action α} (h : action.Asks Request.Silent) {tool : Tool}
    (htool : tool.Silent) (machine : Machine) :
    (action.run tool machine).2.output = machine.output := by
  refine h.keeps (I := fun m => m.output = machine.output) (fun r machine' hr hI => ?_) rfl
  have hupdate : ∀ disk?, (machine'.update disk?).2.output = machine'.output := by
    intro disk?
    cases disk? <;> rfl
  rw [← hI]
  cases r with
  | tool call => exact htool call _
  | write => exact hupdate _
  | rename => exact hupdate _
  | print line => exact hr.elim
  | _ => rfl

section

variable {path : Path}

/-- Looking for a file asks for the kind of thing at the path. -/
theorem asks_isFile (h : P (.kind path)) : (isFile path).Asks P :=
  ((asks_request _).2 h).bind fun _ => asks_pure _

/-- Looking for a directory asks for the kind of thing at the path. -/
theorem asks_isDir (h : P (.kind path)) : (isDir path).Asks P :=
  ((asks_request _).2 h).bind fun _ => asks_pure _

/-- Looking whether anything is there asks for the kind of thing at the path. -/
theorem asks_pathExists (h : P (.kind path)) : (pathExists path).Asks P :=
  ((asks_request _).2 h).bind fun _ => asks_pure _

/-- Reading a text asks for the bytes of the file. Decoding them asks for nothing more. -/
theorem asks_readText (context : String) (h : P (.read path)) : (readText path context).Asks P := by
  refine ((asks_request _).2 h).bind fun bytes => ?_
  cases bytes.bind Utf8.decode? <;> simp

/-- Writing a file asks for that only. -/
theorem asks_writeFile (bytes : Bytes) (context : String) (h : P (.write path bytes)) :
    (writeFile path bytes context).Asks P :=
  ((asks_request _).2 h).bind fun written => by cases written <;> trivial

/-- Making directories asks for that only. -/
theorem asks_createDirAll (context : String) (h : P (.createDirAll path)) :
    (createDirAll path context).Asks P :=
  ((asks_request _).2 h).bind fun made => by cases made <;> trivial

/-- Removing a directory asks for that only. -/
theorem asks_removeDirAll (context : String) (h : P (.removeDirAll path)) :
    (removeDirAll path context).Asks P :=
  ((asks_request _).2 h).bind fun removed => by cases removed <;> trivial

/-- An attempt to remove a directory asks for the same as removing it. -/
theorem asks_tryRemoveDirAll (h : P (.removeDirAll path)) : (tryRemoveDirAll path).Asks P :=
  ((asks_request _).2 h).bind fun _ => asks_pure _

/-- Calling the tool asks for that only. -/
theorem asks_callTool {call : ToolCall} (h : P (.tool call)) : (callTool call).Asks P :=
  ((asks_request _).2 h).bind fun _ => asks_ofExcept _

/-- Logging asks for that only. -/
theorem asks_log {level : Level} {message : String} (h : P (.log level message)) :
    (log level message).Asks P := (asks_request _).2 h

end

/-- The requests of a run, in order, each with the machine that it meets. -/
def trace (tool : Tool) : Action α → Machine → List (Request × Machine)
  | .done _, _ | .fail _, _ => []
  | .ask r next, machine =>
    (r, machine) :: (next (machine.perform tool r).1).trace tool (machine.perform tool r).2

/-- **Every request of a run** is one that the action may make. What is known of an action without
running it holds of each of its runs. -/
theorem Asks.mem_trace {action : Action α} (h : action.Asks P) {tool : Tool} {machine : Machine}
    {r : Request} {met : Machine} (hmem : (r, met) ∈ action.trace tool machine) : P r := by
  induction action generalizing machine with
  | done value => exact absurd hmem (by simp [trace])
  | fail error => exact absurd hmem (by simp [trace])
  | ask r' next ih =>
      obtain heq | hmem := List.mem_cons.1 hmem
      · exact (Prod.mk.inj heq).1 ▸ h.1
      · exact ih _ (h.2 _) hmem

/-- The requests of one action after another, in order. -/
theorem trace_bind (action : Action α) (f : α → Action β) (tool : Tool) (machine : Machine) :
    (action >>= f).trace tool machine = action.trace tool machine ++
      match action.run tool machine with
      | (.ok value, next) => (f value).trace tool next
      | (.error _, _) => [] := by
  induction action generalizing machine with
  | done value => rfl
  | fail error => rfl
  | ask r next ih => exact congrArg (_ :: ·) (ih _ _)

/-- **The requests of one action after another** are those of the first, and if it succeeds those of
the second, on the machine that the first one has left. -/
theorem mem_trace_bind {action : Action α} {f : α → Action β} {tool : Tool} {machine : Machine}
    {asked : Request × Machine} :
    asked ∈ (action >>= f).trace tool machine ↔ asked ∈ action.trace tool machine ∨
      ∃ value next, action.run tool machine = (.ok value, next) ∧
        asked ∈ (f value).trace tool next := by
  induction action generalizing machine with
  | done value =>
      constructor
      · exact fun h => Or.inr ⟨value, machine, rfl, h⟩
      · rintro (h | ⟨value', next, hrun, h⟩)
        · exact absurd h List.not_mem_nil
        · obtain ⟨hvalue, rfl⟩ := Prod.mk.inj hrun
          exact Except.ok.inj hvalue ▸ h
  | fail error =>
      constructor
      · exact fun h => absurd h List.not_mem_nil
      · rintro (h | ⟨value, next, hrun, -⟩)
        · exact h
        · exact absurd (Prod.mk.inj hrun).1 (by simp)
  | ask r next ih =>
      -- The first request is the same on both sides; the others are those behind its answer.
      change asked ∈ (r, machine) :: (next (machine.perform tool r).1 >>= f).trace tool
        (machine.perform tool r).2 ↔ asked ∈ (r, machine) ::
          (next (machine.perform tool r).1).trace tool (machine.perform tool r).2 ∨ _
      rw [List.mem_cons, List.mem_cons, ih, or_assoc]
      rfl

/-- What fails as a value asks for the same. -/
theorem trace_attempt (action : Action α) (tool : Tool) (machine : Machine) :
    action.attempt.trace tool machine = action.trace tool machine := by
  induction action generalizing machine with
  | done value => rfl
  | fail error => rfl
  | ask r next ih => exact congrArg (_ :: ·) (ih _ _)

/-- Calling the tool asks for that only. -/
theorem trace_callTool (call : ToolCall) (tool : Tool) (machine : Machine) :
    (callTool call).trace tool machine = [(.tool call, machine)] := by
  change (_, _) :: (ofExcept (machine.perform tool (.tool call)).1).trace tool _ = _
  cases (machine.perform tool (.tool call)).1 <;> rfl

/-- Removing a directory as far as possible asks for that only. -/
theorem trace_tryRemoveDirAll (path : Path) (tool : Tool) (machine : Machine) :
    (tryRemoveDirAll path).trace tool machine = [(.removeDirAll path, machine)] := rfl

/-- **No removal is refused** that an action asks for in the course of a run. -/
def RemovesAll (action : Action α) (tool : Tool) (machine : Machine) : Prop :=
  ∀ path met, (.removeDirAll path, met) ∈ action.trace tool machine →
    (met.disk.removeDirAll path).1 = true

/-- Whether a removal is refused can be found out by going through the requests of a run. -/
instance (action : Action α) (tool : Tool) (machine : Machine) :
    Decidable (action.RemovesAll tool machine) :=
  decidable_of_iff (∀ asked ∈ action.trace tool machine, Request.removes asked.2 asked.1 = true) (by
    constructor
    · exact fun h path met hmem => h _ hmem
    · rintro h ⟨r, met⟩ hmem
      cases r with
      | removeDirAll path => exact h path met hmem
      | _ => rfl)

/-- A run in which no removal is refused begins with one. -/
theorem RemovesAll.left {action : Action α} {f : α → Action β} {tool : Tool} {machine : Machine}
    (h : (action >>= f).RemovesAll tool machine) : action.RemovesAll tool machine :=
  fun path met hmem => h path met (mem_trace_bind.2 (Or.inl hmem))

/-- A run in which no removal is refused goes on with one. -/
theorem RemovesAll.right {action : Action α} {f : α → Action β} {tool : Tool}
    {machine next : Machine} {value : α} (h : (action >>= f).RemovesAll tool machine)
    (hrun : action.run tool machine = (.ok value, next)) : (f value).RemovesAll tool next :=
  fun path met hmem => h path met (mem_trace_bind.2 (Or.inr ⟨value, next, hrun, hmem⟩))

/-- An action that asks for other things only makes no call of the tool. -/
theorem not_mem_trace {action : Action α} {tool : Tool} {machine met : Machine} {call : ToolCall}
    (h : action.Asks Request.Direct) : (.tool call, met) ∉ action.trace tool machine :=
  fun hmem => h.mem_trace hmem call rfl

/-- **A call of the tool behind an action that makes none** is made once that action has
succeeded. -/
theorem exists_of_mem_trace_bind {action : Action α} {f : α → Action β} {tool : Tool}
    {machine met : Machine} {call : ToolCall} (h : action.Asks Request.Direct)
    (hmem : (.tool call, met) ∈ (action >>= f).trace tool machine) :
    ∃ value next, action.run tool machine = (.ok value, next) ∧
      (.tool call, met) ∈ (f value).trace tool next := by
  obtain hfirst | hlater := mem_trace_bind.1 hmem
  · exact absurd hfirst (not_mem_trace h)
  · exact hlater

/-- **An action put together from parts:** besides these, it asks for what satisfies `P`. -/
inductive Composed (P : Request → Prop) (Part : Action Path → Prop) :
    {α : Type} → Action α → Prop
  | asks {α : Type} {action : Action α} (h : action.Asks P) : Composed P Part action
  | part {action : Action Path} (h : Part action) : Composed P Part action
  | bind {α β : Type} {action : Action α} {f : α → Action β} (h : Composed P Part action)
      (hf : ∀ value, Composed P Part (f value)) : Composed P Part (action >>= f)

/-- Besides its parts, an action asks for what satisfies whatever follows from what is known of it.
-/
theorem Composed.mono {Q : Request → Prop} {Part : Action Path → Prop} {action : Action α}
    (h : action.Composed P Part) (hPQ : ∀ r, P r → Q r) : action.Composed Q Part := by
  induction h with
  | asks h => exact .asks (h.mono hPQ)
  | part h => exact .part h
  | bind _ _ ih ihf => exact .bind ih ihf

/-- What an action asks for that is put together from parts. -/
theorem Composed.asks_of {Part : Action Path → Prop} {action : Action α}
    (h : action.Composed P Part) {Q : Request → Prop} (hP : ∀ r, P r → Q r)
    (hpart : ∀ part, Part part → part.Asks Q) : action.Asks Q := by
  induction h with
  | asks h => exact h.mono hP
  | part h => exact hpart _ h
  | bind _ _ ih ihf => exact ih.bind ihf

end Action
end ProcessKit
