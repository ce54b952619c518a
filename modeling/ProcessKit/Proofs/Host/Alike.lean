/-
# Runs on disks that look alike

An action finds out about the disk by its requests only, and these are answered alike on disks that
look alike (`Machine.perform_alike`). So it comes to the same on both (`Action.run_alike`), as long
as it removes nothing, and if the tool that it calls goes by what the disk shows as well. Removals
are left out since how much a refused one takes away depends on the order in which the disk lists
the names in a directory.

`Request.Spares` leaves them out request by request, so that it is read off an action like any other
property of what it may ask for. A tool is `Extensional` when it gives alike results on alike disks.
The tool that unpacks a file into its directory is one (`Tool.extensional_unpacking`): it finds its
directory by the walk along a path, and sets one entry there.
-/

import ProcessKit.Proofs.Disk.Alike
import ProcessKit.Proofs.Host.Interleaving

namespace ProcessKit

open Disk

/-- A request that removes nothing. -/
def Request.Spares (r : Request) : Prop := ∀ path, r ≠ .removeDirAll path

/-- A tool that goes by what the disk shows, and leaves what depends on that only. -/
def Tool.Extensional (tool : Tool) : Prop :=
  ∀ call machine machine', Alike machine.disk machine'.disk →
    (tool call machine').1 = (tool call machine).1 ∧
      Alike (tool call machine).2.disk (tool call machine').2.disk

variable {machine machine' : Machine}

/-- What becomes of alike disks after the same operation, refused or not. -/
theorem Machine.update_alike (h : Alike machine.disk machine'.disk) {disk? disk?' : Option Disk}
    (hrel : Option.Rel Alike disk? disk?') :
    (machine'.update disk?').1 = (machine.update disk?).1 ∧
      Alike (machine.update disk?).2.disk (machine'.update disk?').2.disk := by
  cases hrel with
  | some hd => exact ⟨rfl, hd⟩
  | none => exact ⟨rfl, h⟩

/-- **A request is answered alike** on machines whose disks look alike, and leaves alike disks. The
case of a call is what is asked of the tool; a removal is excluded. -/
theorem Machine.perform_alike {tool : Tool} (ht : tool.Extensional)
    (h : Alike machine.disk machine'.disk) {r : Request} (hr : r.Spares) :
    (machine'.perform tool r).1 = (machine.perform tool r).1 ∧
      Alike (machine.perform tool r).2.disk (machine'.perform tool r).2.disk := by
  cases r with
  | kind path => exact ⟨congrFun h.kind? path, h⟩
  | read path => exact ⟨congrFun h.readFile? path, h⟩
  | write path bytes => exact update_alike h (h.writeFile? path bytes)
  | createDirAll path => exact h.makeDirs (path.chars.length + 2) path
  | removeDirAll path => exact absurd rfl (hr path)
  | rename source target => exact update_alike h (h.rename? source target)
  | tool call => exact ht call _ _ h
  | log | print => exact ⟨rfl, h⟩

/-- **Whole runs are alike.** An action that removes nothing and starts on disks that look alike
ends in the same way, on disks that look alike. -/
theorem Action.run_alike {α : Type} {tool : Tool} (ht : tool.Extensional) {action : Action α}
    (hspares : action.Asks Request.Spares) (h : Alike machine.disk machine'.disk) :
    (action.run tool machine').1 = (action.run tool machine).1 ∧
      Alike (action.run tool machine).2.disk (action.run tool machine').2.disk := by
  induction action generalizing machine machine' with
  | done value => exact ⟨rfl, h⟩
  | fail error => exact ⟨rfl, h⟩
  | ask r next ih =>
      obtain ⟨hreply, hdisk⟩ := Machine.perform_alike ht h hspares.1
      rw [run_ask, run_ask, hreply]
      exact ih _ (hspares.2 _) hdisk

/-- The tool that puts one file into its directory goes by where that directory is. -/
theorem Tool.extensional_unpacking (file : String) : (Tool.unpacking file).Extensional := by
  intro call machine machine' h
  cases call with
  | grantAccess dir => exact ⟨rfl, h⟩
  | extract archive dest =>
      unfold unpacking
      rw [show ToolCall.dest (.extract archive dest) = dest from rfl, h.find]
      cases machine.disk.find true dest with
      | entry place e =>
          cases e with
          | dir mode => exact ⟨rfl, h.set (by simp) _⟩
          | file | link | device => exact ⟨rfl, h⟩
      | free | missing | blocked => exact ⟨rfl, h⟩

end ProcessKit
