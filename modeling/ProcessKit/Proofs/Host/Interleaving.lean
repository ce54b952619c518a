/-
# Processes that share a machine

Several processes carry actions out on one machine. Between two requests of one of them the others
may do any number of steps, and while a request is under way that takes more than one step, such as
a call of the archive tool, its directory changes bit by bit.

A `Protocol` says what a step of each process may do to what they share. `Safe` says that a process
sticks to it, whatever the others do within it, and that what it ends with is as wanted. Its rules
follow the shape of actions: `Safe.bind`, `Safe.attempt`, `Safe.request`. A process alone is the
special case `Safe.run`, and `Safe.trace` speaks of each of its requests.

This is reasoning by rely and guarantee. The guarantee of a process is what its own steps may do,
its rely is what the guarantees of all others allow, and `Safe` is defined by recursion on the
action: before every request the others may take any number of steps, the request may alter its
directory any number of times, and then its answer must be a step within the guarantee, from which
the rest of the action is safe. Knowledge is `Stable` when the others cannot spoil it, and `Lasting`
when nobody can.

Which result a call of the tool has is left open, since nothing is assumed of the tool but that it
keeps to its directory. What it does there is done before it comes back, bit by bit. A tool that
does all at once is covered by this (`Shared.exists_work`).
-/

import Mathlib.Logic.Relation
import ProcessKit.Proofs.Disk.Ways
import ProcessKit.Proofs.Host.Asking
import ProcessKit.Proofs.Host.Run

namespace ProcessKit

open Relation

/-- A call of the archive tool that came back. -/
structure Return where
  processId : Nat
  call : ToolCall
  result : Except Error Unit
  /-- What was in the directory that the call worked on. -/
  tree : Place → Option Entry

/-- What processes share: a machine, and the calls of the tool that came back so far. -/
structure Shared where
  machine : Machine
  returned : List Return

/-- What is at and below the end of a path. -/
def Disk.treeOf (disk : Disk) (path : Path) : Place → Option Entry :=
  match disk.find true path with
  | .entry place _ => disk.tree place
  | _ => fun _ => none

/-- The directory that a request works on bit by bit. -/
def Request.workplace? : Request → Option Path
  | .tool call => some call.dest
  | .removeDirAll path => some path
  | _ => none

/-- The calls that come back with the answer to a request. -/
def Request.returns (processId : Nat) (result : Except Error Unit) (disk : Disk) :
    Request → List Return
  | .tool call => [⟨processId, call, result, disk.treeOf call.dest⟩]
  | _ => []

namespace Shared

/-- The answer to a request of a process, and what is shared after it. A call of the tool gets
`result`; what it does to the disk it has done before. -/
def answer (processId : Nat) (result : Except Error Unit) (s : Shared) (r : Request) :
    r.Reply × Shared :=
  let (reply, machine) := s.machine.perform (fun _ m => (result, m)) r
  (reply, { machine, returned := s.returned ++ r.returns processId result s.machine.disk })

/-- A change that happens while a request is under way: at most in the directory it works on. -/
structure Alters (r : Request) (s s' : Shared) : Prop where
  returned : s'.returned = s.returned
  calls : s'.machine.calls = s.machine.calls
  disk : ∃ path ∈ r.workplace?, s'.machine.disk = s.machine.disk ∨
    ∃ place mode, s.machine.disk.find true path = .entry place (.dir mode) ∧
      Disk.Within place s.machine.disk s'.machine.disk

end Shared

/-- The tool changes nothing but what is in the directory it is called on. -/
def Tool.Confined (tool : Tool) : Prop :=
  ∀ call machine, (tool call machine).2.calls = machine.calls ∧
    ((tool call machine).2.disk = machine.disk ∨
      ∃ place mode, machine.disk.find true call.dest = .entry place (.dir mode) ∧
        Disk.Within place machine.disk (tool call machine).2.disk)

/-- **A confined tool's work is work in its directory,** done before the call comes back. So a run
with such a tool is a run in the sense of this module. -/
theorem Shared.exists_work {tool : Tool} (ht : tool.Confined) (processId : Nat) (s : Shared)
    (r : Request) :
    ∃ worked result, (s = worked ∨ s.Alters r worked) ∧
      (worked.answer processId result r).1 = (s.machine.perform tool r).1 ∧
      (worked.answer processId result r).2.machine = (s.machine.perform tool r).2 := by
  cases r with
  | tool call =>
      let asked : Machine := { s.machine with calls := s.machine.calls ++ [call] }
      let worked : Shared :=
        { s with machine := { (tool call asked).2 with calls := s.machine.calls } }
      obtain ⟨hcalls, hdisk⟩ := ht call asked
      refine ⟨worked, (tool call asked).1, Or.inr ⟨rfl, rfl, call.dest, rfl, hdisk⟩, rfl, ?_⟩
      change { (tool call asked).2 with calls := s.machine.calls ++ [call] } = (tool call asked).2
      rw [← show (tool call asked).2.calls = s.machine.calls ++ [call] from hcalls]
  | _ => exact ⟨s, .ok (), Or.inl rfl, rfl, rfl⟩

/-- A tool that puts one file into the directory that it unpacks an archive in, and writes the
archive's path there. -/
def Tool.unpacking (file : String) : Tool := fun call machine =>
  match call, machine.disk.find true call.dest with
  | .extract archive _, .entry place (.dir _) =>
    (.ok (), { machine with
      disk := machine.disk.set (place ++ [file]) (.file (Utf8.encode archive.text) .newFile) })
  | _, _ => (.ok (), machine)

/-- The tool that puts one file into its directory changes nothing else. -/
theorem Tool.confined_unpacking (file : String) : (Tool.unpacking file).Confined := by
  intro call machine
  unfold unpacking
  split
  · rename_i archive dest place mode hfind
    have hdir : machine.disk.IsDir place := ⟨mode, Disk.get?_of_find hfind⟩
    exact ⟨rfl, Or.inr ⟨place, mode, hfind, Disk.within_set hdir (List.cons_ne_nil file []) _⟩⟩
  · exact ⟨rfl, Or.inl rfl⟩

/-- What a step of each process may do, and what all steps keep. -/
structure Protocol where
  Guarantee : Nat → Shared → Shared → Prop
  Sound : Shared → Prop
  sound : ∀ processId s s', Guarantee processId s s' → Sound s → Sound s'

namespace Protocol

/-- What the others may do while one process is at work. -/
def Rely (protocol : Protocol) (processId : Nat) (s s' : Shared) : Prop :=
  ∃ other, other ≠ processId ∧ protocol.Guarantee other s s'

/-- What may happen while a request is under way. -/
def Amid (protocol : Protocol) (processId : Nat) (r : Request) (s s' : Shared) : Prop :=
  protocol.Rely processId s s' ∨ Shared.Alters r s s'

/-- What the others cannot spoil. -/
def Stable (protocol : Protocol) (processId : Nat) (P : Shared → Prop) : Prop :=
  ∀ s s', protocol.Sound s → P s → protocol.Rely processId s s' → P s'

/-- What no step spoils. -/
def Lasting (protocol : Protocol) (K : Shared → Prop) : Prop :=
  ∀ processId s s', protocol.Sound s → protocol.Guarantee processId s s' → K s → K s'

/-- Whatever the others do keeps what all steps keep. -/
theorem rely_sound {protocol : Protocol} {processId : Nat} {s s' : Shared}
    (h : ReflTransGen (protocol.Rely processId) s s') (hs : protocol.Sound s) :
    protocol.Sound s' := by
  induction h with
  | refl => exact hs
  | tail _ hstep ih =>
      obtain ⟨other, -, hg⟩ := hstep
      exact protocol.sound other _ _ hg ih

/-- Whatever a process does keeps what all steps keep. -/
theorem guarantee_sound {protocol : Protocol} {processId : Nat} {s s' : Shared}
    (h : ReflTransGen (protocol.Guarantee processId) s s') (hs : protocol.Sound s) :
    protocol.Sound s' := by
  induction h with
  | refl => exact hs
  | tail _ hstep ih => exact protocol.sound processId _ _ hstep ih

/-- What lasts lasts under a condition on something else. -/
theorem Lasting.imp {protocol : Protocol} {K : Shared → Prop} (fact : Prop)
    (h : protocol.Lasting K) : protocol.Lasting fun s => fact → K s :=
  fun processId s s' hs hg hk hfact => h processId s s' hs hg (hk hfact)

/-- What nobody spoils, the others do not spoil. -/
theorem Lasting.stable {protocol : Protocol} {K : Shared → Prop} (h : protocol.Lasting K)
    (processId : Nat) : protocol.Stable processId K := by
  rintro s s' hs hk ⟨other, -, hg⟩
  exact h other s s' hs hg hk

/-- A fact that is not about what is shared cannot be spoilt. -/
theorem stable_const (protocol : Protocol) (processId : Nat) (fact : Prop) :
    protocol.Stable processId fun _ => fact := fun _ _ _ h _ => h

/-- To know nothing cannot be spoilt. -/
theorem stable_true (protocol : Protocol) (processId : Nat) :
    protocol.Stable processId fun _ => True := stable_const protocol processId True

/-- Two things that the others do not spoil, they do not spoil together. -/
theorem Stable.and {protocol : Protocol} {processId : Nat} {P P' : Shared → Prop}
    (h : protocol.Stable processId P) (h' : protocol.Stable processId P') :
    protocol.Stable processId fun s => P s ∧ P' s :=
  fun s s' hs hp hr => ⟨h s s' hs hp.1 hr, h' s s' hs hp.2 hr⟩

/-- What the others do not spoil, they do not spoil under a condition on something else. -/
theorem Stable.imp {protocol : Protocol} {processId : Nat} {P : Shared → Prop} (fact : Prop)
    (h : protocol.Stable processId P) : protocol.Stable processId fun s => fact → P s :=
  fun s s' hs hp hr hfact => h s s' hs (hp hfact) hr

/-- **What is stable** is still known after any number of steps of the others, by induction on
these. That what is shared stays sound is part of it. -/
theorem Stable.rely {protocol : Protocol} {processId : Nat} {P : Shared → Prop} {s s' : Shared}
    (hP : protocol.Stable processId P) (h : ReflTransGen (protocol.Rely processId) s s')
    (hs : protocol.Sound s) (hp : P s) : P s' := by
  induction h with
  | refl => exact hp
  | tail hsteps hstep ih => exact hP _ _ (rely_sound hsteps hs) ih hstep

end Protocol

/-- **A process sticks to the protocol** while it carries an action out, and `Q` holds of what it
ends with, whatever the others do within the protocol. -/
def Safe {α : Type} (protocol : Protocol) (processId : Nat)
    (Q : Except Error α → Shared → Prop) : Action α → Shared → Prop
  | .done value, s => ∀ s', ReflTransGen (protocol.Rely processId) s s' → Q (.ok value) s'
  | .fail error, s => ∀ s', ReflTransGen (protocol.Rely processId) s s' → Q (.error error) s'
  | .ask r next, s => ∀ s', ReflTransGen (protocol.Amid processId r) s s' →
      (∀ s'', s'.Alters r s'' → protocol.Guarantee processId s' s'') ∧
      ∀ result, protocol.Guarantee processId s' (s'.answer processId result r).2 ∧
        Safe protocol processId Q (next (s'.answer processId result r).1)
          (s'.answer processId result r).2

/-- What is wanted of a value and of a failure. -/
def Ends {α : Type} (Ok : α → Shared → Prop) (Failed : Shared → Prop) :
    Except Error α → Shared → Prop
  | .ok value => Ok value
  | .error _ => Failed

namespace Safe

variable {α β : Type} {protocol : Protocol} {processId : Nat}
  {Q : Except Error α → Shared → Prop} {s s' : Shared}

/-- A safe process stays safe when another one does a step. -/
theorem rely {action : Action α} (h : Safe protocol processId Q action s)
    (hr : protocol.Rely processId s s') : Safe protocol processId Q action s' := by
  cases action with
  | done value => exact fun s'' h'' => h s'' (.head hr h'')
  | fail error => exact fun s'' h'' => h s'' (.head hr h'')
  | ask r next => exact fun s'' h'' => h s'' (.head (Or.inl hr) h'')

/-- A safe process stays safe while a request of its own is under way. -/
theorem alter {r : Request} {next : r.Reply → Action α}
    (h : Safe protocol processId Q (.ask r next) s) (ha : s.Alters r s') :
    protocol.Guarantee processId s s' ∧ Safe protocol processId Q (.ask r next) s' :=
  ⟨(h s .refl).1 s' ha, fun s'' h'' => h s'' (.head (Or.inr ha) h'')⟩

/-- A safe process stays safe when it gets an answer. -/
theorem answer {r : Request} {next : r.Reply → Action α}
    (h : Safe protocol processId Q (.ask r next) s) (result : Except Error Unit) :
    protocol.Guarantee processId s (s.answer processId result r).2 ∧
      Safe protocol processId Q (next (s.answer processId result r).1)
        (s.answer processId result r).2 := (h s .refl).2 result

/-- What holds everywhere still holds while a request is under way. -/
theorem sound_amid {r : Request} {next : r.Reply → Action α}
    (h : Safe protocol processId Q (.ask r next) s)
    (hs : protocol.Sound s) (hm : ReflTransGen (protocol.Amid processId r) s s') :
    protocol.Sound s' := by
  induction hm with
  | refl => exact hs
  | tail hsteps hstep ih =>
      obtain ⟨other, -, hg⟩ | ha := hstep
      · exact protocol.sound other _ _ hg ih
      · exact protocol.sound processId _ _ ((h _ hsteps).1 _ ha) ih

/-- What no step spoils still holds at the end. -/
theorem and_lasting {Ok : α → Shared → Prop} {Failed K : Shared → Prop}
    (hK : protocol.Lasting K) {action : Action α} (hs : protocol.Sound s) (hk : K s)
    (h : Safe protocol processId (Ends Ok Failed) action s) :
    Safe protocol processId (Ends (fun value s => Ok value s ∧ K s) Failed) action s := by
  induction action generalizing s with
  | done value => exact fun s' h' => ⟨h s' h', (hK.stable processId).rely h' hs hk⟩
  | fail error => exact h
  | ask r next ih =>
      intro s' h'
      have hk' : K s' := by
        induction h' with
        | refl => exact hk
        | tail hsteps hstep ihk =>
            have hmid := h.sound_amid hs hsteps
            obtain ⟨other, -, hg⟩ | ha := hstep
            · exact hK other _ _ hmid hg ihk
            · exact hK processId _ _ hmid ((h _ hsteps).1 _ ha) ihk
      have hs' := h.sound_amid hs h'
      refine ⟨(h s' h').1, fun result => ?_⟩
      obtain ⟨hg, hnext⟩ := (h s' h').2 result
      exact ⟨hg, ih _ (protocol.sound processId _ _ hg hs') (hK processId _ _ hs' hg hk') hnext⟩

/-- **One action after another.** The first one may end in what the second one needs. By induction
on the first, with its requests and the steps of the others in between. -/
theorem bind {Q' : Except Error β → Shared → Prop} {action : Action β} {f : β → Action α}
    (hs : protocol.Sound s) (h : Safe protocol processId Q' action s)
    (hok : ∀ value s', protocol.Sound s' → Q' (.ok value) s' →
      Safe protocol processId Q (f value) s')
    (herror : ∀ error s', protocol.Sound s' → Q' (.error error) s' → Q (.error error) s') :
    Safe protocol processId Q (action >>= f) s := by
  induction action generalizing s with
  | done value => exact hok value s hs (h s .refl)
  | fail error => exact fun s' h' => herror error s' (Protocol.rely_sound h' hs) (h s' h')
  | ask r next ih =>
      intro s' h'
      have hs' := h.sound_amid hs h'
      refine ⟨(h s' h').1, fun result => ?_⟩
      obtain ⟨hg, hnext⟩ := (h s' h').2 result
      exact ⟨hg, ih _ (protocol.sound processId _ _ hg hs') hnext⟩

/-- What comes after an action that never fails. -/
theorem bind_answer {Answer : β → Shared → Prop} {action : Action β} {f : β → Action α}
    (hs : protocol.Sound s)
    (h : Safe protocol processId (Ends Answer fun _ => False) action s)
    (hnext : ∀ value s', protocol.Sound s' → Answer value s' →
      Safe protocol processId Q (f value) s') :
    Safe protocol processId Q (action >>= f) s :=
  bind hs h hnext fun _ _ _ hfalse => False.elim hfalse

/-- The failure of an action as a value. -/
theorem attempt {Ok : α → Shared → Prop} {Failed : Shared → Prop} {action : Action α}
    (h : Safe protocol processId (Ends Ok Failed) action s) :
    Safe protocol processId (Ends (Ends Ok Failed) fun _ => False) action.attempt s := by
  induction action generalizing s with
  | done value => exact h
  | fail error => exact h
  | ask r next ih =>
      intro s' h'
      refine ⟨(h s' h').1, fun result => ?_⟩
      obtain ⟨hg, hnext⟩ := (h s' h').2 result
      exact ⟨hg, ih _ hnext⟩

/-- Weaker wishes. -/
theorem mono {Ok Ok' : α → Shared → Prop} {Failed Failed' : Shared → Prop} {action : Action α}
    (hs : protocol.Sound s) (h : Safe protocol processId (Ends Ok Failed) action s)
    (hOk : ∀ value s', Ok value s' → Ok' value s') (hFailed : ∀ s', Failed s' → Failed' s') :
    Safe protocol processId (Ends Ok' Failed') action s := by
  induction action generalizing s with
  | done value => exact fun s' h' => hOk value s' (h s' h')
  | fail error => exact fun s' h' => hFailed s' (h s' h')
  | ask r next ih =>
      intro s' h'
      refine ⟨(h s' h').1, fun result => ?_⟩
      obtain ⟨hg, hnext⟩ := (h s' h').2 result
      exact ⟨hg, ih _ (protocol.sound processId _ _ hg (h.sound_amid hs h')) hnext⟩

/-- A process that ends at once ends as it should, now and after whatever the others do. -/
theorem pure {value : α} (hQ : protocol.Stable processId (Q (.ok value))) (hs : protocol.Sound s)
    (h : Q (.ok value) s) : Safe protocol processId Q (Pure.pure value) s :=
  fun _ h' => hQ.rely h' hs h

/-- A process that fails at once does so as it should, now and after whatever the others do. -/
theorem fail {error : Error} (hQ : protocol.Stable processId (Q (.error error)))
    (hs : protocol.Sound s) (h : Q (.error error) s) :
    Safe protocol processId Q (.fail error) s := fun _ h' => hQ.rely h' hs h

/-- A result ends as it should, now and after whatever the others do. -/
theorem ofExcept {result : Except Error α} (hQ : protocol.Stable processId (Q result))
    (hs : protocol.Sound s) (h : Q result s) :
    Safe protocol processId Q (Action.ofExcept result) s := by
  cases result with
  | ok value => exact fun _ h' => hQ.rely h' hs h
  | error error => exact fun _ h' => hQ.rely h' hs h

/-- A failure where the answer is no. -/
theorem orFail {action : Action Bool} {error : Error} {Answer : Bool → Shared → Prop}
    {Ok : Unit → Shared → Prop} {Failed : Shared → Prop}
    (hOk : protocol.Stable processId (Ok ())) (hFailed : protocol.Stable processId Failed)
    (hs : protocol.Sound s)
    (h : Safe protocol processId (Ends Answer fun _ => False) action s)
    (hyes : ∀ s', protocol.Sound s' → Answer true s' → Ok () s')
    (hno : ∀ s', protocol.Sound s' → Answer false s' → Failed s') :
    Safe protocol processId (Ends Ok Failed) (do unless ← action do .fail error) s := by
  refine bind_answer hs h fun yes s' hs' hq => ?_
  cases yes with
  | true => exact pure hOk hs' (hyes s' hs' hq)
  | false => exact fail hFailed hs' (hno s' hs' hq)

/-- **One request.** It never fails, and `P` is what the process knows while it is under way. -/
theorem request {r : Request} {Ok : r.Reply → Shared → Prop} (P : Shared → Prop)
    (hP : protocol.Stable processId P)
    (halter : ∀ s s', protocol.Sound s → P s → s.Alters r s' →
      protocol.Guarantee processId s s' ∧ P s')
    (hOk : ∀ reply, protocol.Stable processId (Ok reply))
    (hanswer : ∀ s result, protocol.Sound s → P s →
      protocol.Guarantee processId s (s.answer processId result r).2 ∧
        Ok (s.answer processId result r).1 (s.answer processId result r).2)
    (hs : protocol.Sound s) (h : P s) :
    Safe protocol processId (Ends Ok fun _ => False) (Action.request r) s := by
  intro s' h'
  have hinv : protocol.Sound s' ∧ P s' := by
    induction h' with
    | refl => exact ⟨hs, h⟩
    | tail _ hstep ih =>
        obtain ⟨hs', hp'⟩ := ih
        obtain ⟨other, hne, hg⟩ | ha := hstep
        · exact ⟨protocol.sound other _ _ hg hs', hP _ _ hs' hp' ⟨other, hne, hg⟩⟩
        · obtain ⟨hg, hp''⟩ := halter _ _ hs' hp' ha
          exact ⟨protocol.sound processId _ _ hg hs', hp''⟩
  obtain ⟨hs', hp'⟩ := hinv
  refine ⟨fun s'' ha => (halter _ _ hs' hp' ha).1, fun result => ?_⟩
  obtain ⟨hg, hq⟩ := hanswer s' result hs' hp'
  exact ⟨hg, fun s'' h'' => (hOk _).rely h'' (protocol.sound processId _ _ hg hs') hq⟩

/-- A request that is done in one step. -/
theorem request_once {r : Request} {Ok : r.Reply → Shared → Prop}
    (hr : r.workplace? = none) (P : Shared → Prop) (hP : protocol.Stable processId P)
    (hOk : ∀ reply, protocol.Stable processId (Ok reply))
    (hanswer : ∀ s result, protocol.Sound s → P s →
      protocol.Guarantee processId s (s.answer processId result r).2 ∧
        Ok (s.answer processId result r).1 (s.answer processId result r).2)
    (hs : protocol.Sound s) (h : P s) :
    Safe protocol processId (Ends Ok fun _ => False) (Action.request r) s := by
  refine request P hP (fun s s' _ _ ha => ?_) hOk hanswer hs h
  obtain ⟨path, hpath, -⟩ := ha.disk
  rw [hr] at hpath
  exact absurd hpath (by simp)

/-- A process alone carries one request out in steps within the protocol, and is safe after it. -/
theorem request_alone {tool : Tool} (ht : tool.Confined) {r : Request} {next : r.Reply → Action α}
    (h : Safe protocol processId Q (.ask r next) s) :
    ∃ s', s'.machine = (s.machine.perform tool r).2 ∧
      ReflTransGen (protocol.Guarantee processId) s s' ∧
      Safe protocol processId Q (next (s.machine.perform tool r).1) s' := by
  obtain ⟨worked, result, hwork, hreply, hmachine⟩ := Shared.exists_work ht processId s r
  obtain ⟨hsteps, hsafe⟩ : ReflTransGen (protocol.Guarantee processId) s worked ∧
      Safe protocol processId Q (.ask r next) worked := by
    obtain rfl | ha := hwork
    · exact ⟨.refl, h⟩
    · exact ⟨.single (h.alter ha).1, (h.alter ha).2⟩
  obtain ⟨hg, hnext⟩ := hsafe.answer result
  exact ⟨(worked.answer processId result r).2, hmachine, hsteps.tail hg, hreply ▸ hnext⟩

/-- **A process alone.** Carrying a safe action out is a sequence of steps within the protocol, and
what it ends with is as wanted. The others do nothing, which is one of the things they may do. -/
theorem run {tool : Tool} (ht : tool.Confined) {action : Action α}
    (h : Safe protocol processId Q action s) :
    ∃ s', s'.machine = (action.run tool s.machine).2 ∧
      ReflTransGen (protocol.Guarantee processId) s s' ∧ Q (action.run tool s.machine).1 s' := by
  induction action generalizing s with
  | done value => exact ⟨s, rfl, .refl, h s .refl⟩
  | fail error => exact ⟨s, rfl, .refl, h s .refl⟩
  | ask r next ih =>
      obtain ⟨s₁, hs₁, hsteps, hnext⟩ := h.request_alone ht
      obtain ⟨s', hs', hsteps', hq⟩ := ih _ hnext
      rw [hs₁] at hs' hq
      exact ⟨s', hs', hsteps.trans hsteps', hq⟩

/-- **Each request of a process alone** meets a machine where everything is sound, and is carried
out in steps within the protocol. -/
theorem trace {tool : Tool} (ht : tool.Confined) {action : Action α}
    (h : Safe protocol processId Q action s) (hs : protocol.Sound s) {r : Request} {met : Machine}
    (hmem : (r, met) ∈ action.trace tool s.machine) :
    ∃ s₀ s₁, s₀.machine = met ∧ s₁.machine = (met.perform tool r).2 ∧ protocol.Sound s₀ ∧
      ReflTransGen (protocol.Guarantee processId) s₀ s₁ := by
  induction action generalizing s with
  | done value => exact absurd hmem (by simp [Action.trace])
  | fail error => exact absurd hmem (by simp [Action.trace])
  | ask r' next ih =>
      obtain ⟨s₁, hs₁, hsteps, hnext⟩ := h.request_alone ht
      obtain heq | hmem := List.mem_cons.1 hmem
      · obtain ⟨rfl, rfl⟩ := Prod.mk.inj heq
        exact ⟨s, s₁, rfl, hs₁, hs, hsteps⟩
      · exact ih _ hnext (Protocol.guarantee_sound hsteps hs) (hs₁ ▸ hmem)

end Safe
end ProcessKit
