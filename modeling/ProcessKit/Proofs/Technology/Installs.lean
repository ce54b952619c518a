/-
# Checking installs

Only the installs that name a settings key are checked (`checkEach_keyed`), and each of them must
name something that exists (`Install.OnDisk`). As long as they do, the check goes on and tells of
each (`run_checkEach_onDisk`); at the first one that does not, it comes to a `verdict`
(`run_checkInstall_offender`), and those after it are not looked at (`checkEach_stops`). So the
first offender decides (`checkInstalls_first_offender`).

The verdict has three forms. A key that is not set is an error that names the key and the
technology, one whose value is no text is an error that names the key, and a text that is the path
of nothing is no error at all: the check says no, and logs the path. `foundEvents` are the events of
the installs before it, one for each, in the order of the document.

An install that is there stays there on a disk that grows (`Install.OnDisk.grows`). Hence two checks
on disks of which one has grown out of the other come to the same, if the first offender of the one
is still an offender on the other (`checkInstalls_alike`).
-/

import ProcessKit.Proofs.Disk.Growing
import ProcessKit.Proofs.Host.Asking
import ProcessKit.Proofs.Settings.Layers
import ProcessKit.Technology.Installs

namespace ProcessKit

/-- The path that an install names: the text of the scalar under its key. -/
def Install.dir? (install : Install) (settings : Settings) : Option Path :=
  (settings.lookup install.baseVar).bind fun v => v.text?.map Path.mk

/-- **An install that is on the disk:** a scalar stands under its key, and its text is the path of
something that exists. -/
def Install.OnDisk (install : Install) (settings : Settings) (disk : Disk) : Prop :=
  ∃ dir, install.dir? settings = some dir ∧ (disk.kind? dir).isSome = true

instance (install : Install) (settings : Settings) (disk : Disk) :
    Decidable (install.OnDisk settings disk) :=
  decidable_of_iff (((install.dir? settings).bind disk.kind?).isSome = true) <| by
    rw [Install.OnDisk, Option.isSome_bind, Option.any_eq_true]

/-- What exists goes on to exist on a disk that has grown. -/
theorem Install.OnDisk.grows {install : Install} {settings : Settings} {disk disk' : Disk}
    (h : install.OnDisk settings disk) (hgrows : Disk.Grows disk disk') :
    install.OnDisk settings disk' := by
  obtain ⟨dir, hdir, hthere⟩ := h
  obtain ⟨kind, hkind⟩ := Option.isSome_iff_exists.1 hthere
  exact ⟨dir, hdir, by rw [hgrows.kind? hkind]; rfl⟩

namespace Technology

variable {technology : Technology} {settings : Settings} {tool : Tool} {machine machine' : Machine}
  {install : Install} {installs before after : List Install} {dir : Path}

/-- The installs that name a settings key, in order. -/
def keyedInstalls (technology : Technology) : List Install :=
  technology.installs.filter (·.baseVar != "")

/-- The events that tell where installs were found. -/
def foundEvents (settings : Settings) (installs : List Install) : List (Level × String) :=
  installs.filterMap fun install => (install.dir? settings).map fun dir =>
    (.debug, "Found install " ++ install.path ++ " at " ++ dir.text)

/-- **What the check comes to at an install that is not on the disk,** with the events that tell of
it: the key has no value, an array or a table, or a text that is the path of nothing. -/
def verdict (technology : Technology) (settings : Settings) (install : Install) :
    Except Error Bool × List (Level × String) :=
  match settings.lookup install.baseVar with
  | none | some .null => (.error (.settingNotFound install.baseVar technology.name), [])
  | some v =>
    match v.text? with
    | none =>
      (.error (.settingInvalid install.baseVar "expected a string, found a list or table"), [])
    | some text =>
      (.ok false, [(.error, "installs " ++ text ++ " for technology " ++ technology.name ++
        " does not exist")])

/-! ### One install -/

/-- An install has a directory exactly when the setting of its base variable is a text. -/
theorem dir?_eq_some_iff :
    install.dir? settings = some dir ↔ settings.text? install.baseVar = .ok (some dir.text) := by
  rw [Settings.text?_eq_text_iff, Install.dir?, Option.bind_eq_some_iff]
  refine exists_congr fun v => and_congr_right fun _ => ?_
  rw [Option.map_eq_some_iff]
  exact ⟨fun ⟨text, htext, hdir⟩ => hdir ▸ htext, fun htext => ⟨dir.text, htext, rfl⟩⟩

section

variable (hkey : install.baseVar ≠ "")

include hkey

/-- The directory of a key is the text under it, if there is one. -/
theorem baseDir_of_keyed : technology.baseDir settings install.baseVar =
    (settings.text? install.baseVar).bind fun
      | some text => .ok ⟨text⟩
      | none => .error (.settingNotFound install.baseVar technology.name) := by
  rw [baseDir, if_neg hkey]
  cases settings.text? install.baseVar with
  | error error => rfl
  | ok text => cases text <;> rfl

/-- The check of an install goes by what is at its path. -/
theorem run_checkInstall_of_dir? (hdir : install.dir? settings = some dir) :
    (technology.checkInstall settings install).run tool machine =
      if (machine.disk.kind? dir).isSome then
        (.ok true, { machine with
          log := machine.log ++
            [(.debug, "Found install " ++ install.path ++ " at " ++ dir.text)] })
      else
        (.ok false, { machine with
          log := machine.log ++ [(.error, "installs " ++ dir.text ++ " for technology " ++
            technology.name ++ " does not exist")] }) := by
  rw [checkInstall, if_neg hkey, baseDir_of_keyed hkey, dir?_eq_some_iff.1 hdir, Action.run_bind,
    Action.run_ofExcept]
  dsimp only [Except.bind]
  rw [Action.run_bind, Action.run_pathExists]
  cases (machine.disk.kind? dir).isSome <;> rfl

/-- What is wrong with the key of an install ends its check before anything else. -/
theorem run_checkInstall_of_error {error : Error}
    (h : technology.baseDir settings install.baseVar = .error error) :
    (technology.checkInstall settings install).run tool machine = (.error error, machine) := by
  rw [checkInstall, if_neg hkey, h, Action.run_bind, Action.run_ofExcept]

/-- **An install on the disk is found,** and one event tells of it. Nothing else is changed. -/
theorem run_checkInstall_onDisk (h : install.OnDisk settings machine.disk) :
    (technology.checkInstall settings install).run tool machine =
      (.ok true, { machine with log := machine.log ++ foundEvents settings [install] }) := by
  obtain ⟨dir, hdir, hthere⟩ := h
  rw [run_checkInstall_of_dir? hkey hdir, if_pos hthere]
  simp only [foundEvents, List.filterMap_cons, hdir, Option.map_some, List.filterMap_nil]

/-- **An install that is not on the disk** gets its verdict: an error about its key, or a plain no
with an event that names the path. -/
theorem run_checkInstall_offender (h : ¬ install.OnDisk settings machine.disk) :
    (technology.checkInstall settings install).run tool machine =
      ((technology.verdict settings install).1,
        { machine with log := machine.log ++ (technology.verdict settings install).2 }) := by
  have hfails {error : Error} (hbase : technology.baseDir settings install.baseVar = .error error) :
      (technology.checkInstall settings install).run tool machine =
        (.error error, { machine with log := machine.log ++ [] }) := by
    rw [run_checkInstall_of_error hkey hbase, List.append_nil]
  have hunset (hnone : settings.text? install.baseVar = .ok none) :=
    hfails (by rw [baseDir_of_keyed hkey, hnone]; rfl)
  have hunusable {error : Error} (herror : settings.text? install.baseVar = .error error) :=
    hfails (by rw [baseDir_of_keyed hkey, herror]; rfl)
  rw [verdict]
  cases hv : settings.lookup install.baseVar with
  | none => exact hunset ((settings.text?_eq_none_iff _).2 (Or.inl hv))
  | some v =>
      have hmissing {text : String} (htext : v.text? = some text) :
          (technology.checkInstall settings install).run tool machine =
            (.ok false, { machine with
              log := machine.log ++ [(.error, "installs " ++ text ++ " for technology " ++
                technology.name ++ " does not exist")] }) := by
        have hdir : install.dir? settings = some ⟨text⟩ := by
          rw [Install.dir?, hv, Option.bind_some, htext, Option.map_some]
        rw [run_checkInstall_of_dir? hkey hdir, if_neg fun hthere => h ⟨_, hdir, hthere⟩]
      cases v with
      | null => exact hunset ((settings.text?_eq_none_iff _).2 (Or.inr hv))
      | array items =>
          exact hunusable ((settings.text?_eq_error_iff _).2 (Or.inl ⟨items, hv⟩))
      | object members =>
          exact hunusable ((settings.text?_eq_error_iff _).2 (Or.inr ⟨members, hv⟩))
      | bool | string | number => exact hmissing rfl

end

/-- A verdict is never that all is well. -/
theorem verdict_ne (technology : Technology) (settings : Settings) (install : Install) :
    (technology.verdict settings install).1 ≠ .ok true := by
  rw [verdict]
  split
  · simp
  · simp
  · split <;> simp

/-! ### All installs -/

/-- Installs that name no key may be left out. -/
theorem checkEach_keyed (installs : List Install) :
    technology.checkEach settings (installs.filter (·.baseVar != "")) =
      technology.checkEach settings installs := by
  induction installs with
  | nil => rfl
  | cons install installs ih =>
      by_cases hkey : install.baseVar = ""
      · have hpresent : technology.checkInstall settings install = pure true := by
          rw [checkInstall, if_pos hkey]
        rw [List.filter_cons_of_neg (by simp [hkey]), ih, checkEach, hpresent]
        rfl
      · rw [List.filter_cons_of_pos (by simp [hkey]), checkEach, checkEach, ih]

/-- Some installs are checked after others if these are all found. -/
theorem checkEach_append (installs later : List Install) :
    technology.checkEach settings (installs ++ later) =
      technology.checkEach settings installs >>= fun found =>
        if found then technology.checkEach settings later else return false := by
  induction installs with
  | nil => rfl
  | cons install installs ih =>
      rw [List.cons_append, checkEach, checkEach, ih, Action.bind_assoc]
      refine congrArg (_ >>= ·) (funext fun found => ?_)
      cases found <;> rfl

/-- **What comes after installs that are not all found** is not looked at, so the result and the
events are those of the first ones. -/
theorem checkEach_stops (later : List Install)
    (h : ((technology.checkEach settings installs).run tool machine).1 ≠ .ok true) :
    (technology.checkEach settings (installs ++ later)).run tool machine =
        (technology.checkEach settings installs).run tool machine ∧
      (technology.checkEach settings (installs ++ later)).trace tool machine =
        (technology.checkEach settings installs).trace tool machine := by
  rw [checkEach_append, Action.run_bind, Action.trace_bind]
  cases hrun : (technology.checkEach settings installs).run tool machine with
  | mk result next =>
      cases result with
      | error error => exact ⟨rfl, List.append_nil _⟩
      | ok found =>
          cases found with
          | true => exact absurd (congrArg Prod.fst hrun) h
          | false => exact ⟨rfl, List.append_nil _⟩

/-- **Installs on the disk are all found,** one event for each, by induction on the list. -/
theorem run_checkEach_onDisk (hkeyed : ∀ install ∈ installs, install.baseVar ≠ "")
    (h : ∀ install ∈ installs, install.OnDisk settings machine.disk) :
    (technology.checkEach settings installs).run tool machine =
      (.ok true, { machine with log := machine.log ++ foundEvents settings installs }) := by
  induction installs generalizing machine with
  | nil => rw [foundEvents, List.filterMap_nil, List.append_nil]; rfl
  | cons install installs ih =>
      obtain ⟨hkey, hkeyed⟩ := List.forall_mem_cons.1 hkeyed
      obtain ⟨hfirst, hrest⟩ := List.forall_mem_cons.1 h
      have hevents : foundEvents settings (install :: installs) =
          foundEvents settings [install] ++ foundEvents settings installs := by
        rw [foundEvents, foundEvents, foundEvents, ← List.filterMap_append, List.singleton_append]
      rw [checkEach, Action.run_bind, run_checkInstall_onDisk hkey hfirst, hevents,
        ← List.append_assoc]
      exact ih hkeyed hrest

/-- **The first install that is not on the disk** decides. Those before it have left their events,
and its verdict is the outcome. -/
theorem run_checkEach_offender {later : List Install}
    (hkeyed : ∀ keyed ∈ before ++ install :: later, keyed.baseVar ≠ "")
    (hbefore : ∀ earlier ∈ before, earlier.OnDisk settings machine.disk)
    (h : ¬ install.OnDisk settings machine.disk) :
    (technology.checkEach settings (before ++ install :: later)).run tool machine =
      ((technology.verdict settings install).1,
        { machine with
          log := machine.log ++ (foundEvents settings before ++
            (technology.verdict settings install).2) }) := by
  obtain ⟨hkeyed, hlater⟩ := List.forall_mem_append.1 hkeyed
  have hkey : install.baseVar ≠ "" := hlater install List.mem_cons_self
  have hne := technology.verdict_ne settings install
  have hverdict : (technology.checkInstall settings install).run tool
      { machine with log := machine.log ++ foundEvents settings before } = _ :=
    run_checkInstall_offender hkey h
  rw [checkEach_append, Action.run_bind, run_checkEach_onDisk hkeyed hbefore]
  dsimp only
  rw [if_pos rfl, checkEach, Action.run_bind, hverdict, List.append_assoc]
  cases hresult : (technology.verdict settings install).1 with
  | error error => rfl
  | ok found =>
      cases found with
      | true => exact absurd hresult hne
      | false => rfl

/-- A list with an element that fails has a first one. -/
theorem exists_offender {P : Install → Prop} (h : ¬ ∀ install ∈ installs, P install) :
    ∃ before install after, installs = before ++ install :: after ∧
      (∀ earlier ∈ before, P earlier) ∧ ¬ P install := by
  induction installs with
  | nil => exact absurd (List.forall_mem_nil P) h
  | cons first installs ih =>
      by_cases hfirst : P first
      · obtain ⟨before, install, after, rfl, hbefore, hinstall⟩ :=
          ih fun hall => h (List.forall_mem_cons.2 ⟨hfirst, hall⟩)
        exact ⟨first :: before, install, after, rfl, List.forall_mem_cons.2 ⟨hfirst, hbefore⟩,
          hinstall⟩
      · exact ⟨[], first, installs, rfl, List.forall_mem_nil P, hfirst⟩

/-! ### The installs of a technology -/

/-- The installs that are looked at are those with a base variable, by which they were chosen. -/
theorem baseVar_ne_of_keyed : ∀ install ∈ technology.keyedInstalls, install.baseVar ≠ "" :=
  fun _ h => bne_iff_ne.1 (List.mem_filter.1 h).2

/-- **All installs are there:** the check says so, and reports each one that it found, in the order
of the document. -/
theorem run_checkInstalls_onDisk
    (h : ∀ install ∈ technology.keyedInstalls, install.OnDisk settings machine.disk) :
    (technology.checkInstalls settings).run tool machine =
      (.ok true, { machine with
        log := machine.log ++ foundEvents settings technology.keyedInstalls }) := by
  rw [checkInstalls, ← checkEach_keyed]
  exact run_checkEach_onDisk baseVar_ne_of_keyed h

/-- **One install is not there:** the installs before it are reported as found, and the first one
that is missing decides. Those after it are not looked at. -/
theorem run_checkInstalls_offender (hkeyed : technology.keyedInstalls = before ++ install :: after)
    (hbefore : ∀ earlier ∈ before, earlier.OnDisk settings machine.disk)
    (h : ¬ install.OnDisk settings machine.disk) :
    (technology.checkInstalls settings).run tool machine =
      ((technology.verdict settings install).1,
        { machine with
          log := machine.log ++ (foundEvents settings before ++
            (technology.verdict settings install).2) }) := by
  rw [checkInstalls, ← checkEach_keyed, ← keyedInstalls, hkeyed]
  exact run_checkEach_offender (hkeyed ▸ baseVar_ne_of_keyed) hbefore h

/-- **The first offender decides** the check of the installs. They are all present exactly if each
that names a key is on the disk. Otherwise the result is the verdict on the first that is not, after
the events of those before it. The check makes the requests that it would make if there were no
installs behind that one, and all that it does is to log. -/
theorem checkInstalls_first_offender (technology : Technology) (settings : Settings) (tool : Tool)
    (machine : Machine) :
    let outcome := (technology.checkInstalls settings).run tool machine
    (outcome.1 = .ok true ↔
      ∀ install ∈ technology.keyedInstalls, install.OnDisk settings machine.disk) ∧
    (∃ events, outcome.2 = { machine with log := machine.log ++ events }) ∧
    ∀ before install after, technology.keyedInstalls = before ++ install :: after →
      (∀ earlier ∈ before, earlier.OnDisk settings machine.disk) →
      ¬ install.OnDisk settings machine.disk →
      outcome = ((technology.verdict settings install).1,
        { machine with
          log := machine.log ++ (foundEvents settings before ++
            (technology.verdict settings install).2) }) ∧
      (technology.checkInstalls settings).trace tool machine =
        (technology.checkEach settings (before ++ [install])).trace tool machine := by
  intro outcome
  by_cases hall : ∀ install ∈ technology.keyedInstalls, install.OnDisk settings machine.disk
  · have hrun : outcome = _ := run_checkInstalls_onDisk hall
    rw [hrun]
    refine ⟨iff_of_true rfl hall, ⟨_, rfl⟩, fun before install after hkeyed _ h => absurd ?_ h⟩
    exact hall install (by rw [hkeyed]; simp)
  · obtain ⟨before, install, after, hkeyed, hbefore, h⟩ := exists_offender hall
    have hrun : outcome = _ := run_checkInstalls_offender hkeyed hbefore h
    refine ⟨iff_of_false ?_ hall, ⟨_, congrArg Prod.snd hrun⟩,
      fun before install after hkeyed hbefore h => ⟨?_, ?_⟩⟩
    · rw [hrun]
      exact technology.verdict_ne settings install
    · exact run_checkInstalls_offender hkeyed hbefore h
    · have hkeys := hkeyed ▸ technology.baseVar_ne_of_keyed
      rw [← List.singleton_append, ← List.append_assoc] at hkeyed hkeys
      rw [checkInstalls, ← checkEach_keyed, ← keyedInstalls, hkeyed]
      refine (checkEach_stops after ?_).2
      rw [run_checkEach_offender (List.forall_mem_append.1 hkeys).1 hbefore h]
      exact technology.verdict_ne settings install

/-- **The first install that is not on a disk** is not on another one either. -/
def OffenderStays (technology : Technology) (settings : Settings) (disk disk' : Disk) : Prop :=
  ∀ before install after, technology.keyedInstalls = before ++ install :: after →
    (∀ earlier ∈ before, earlier.OnDisk settings disk) → ¬ install.OnDisk settings disk →
    ¬ install.OnDisk settings disk'

/-- **A check comes to the same** on a machine whose disk has grown, if the first offender stays
one. -/
theorem checkInstalls_alike (tool : Tool) (hgrows : Disk.Grows machine.disk machine'.disk)
    (hstays : technology.OffenderStays settings machine.disk machine'.disk) :
    ∃ result events,
      (technology.checkInstalls settings).run tool machine =
        (result, { machine with log := machine.log ++ events }) ∧
      (technology.checkInstalls settings).run tool machine' =
        (result, { machine' with log := machine'.log ++ events }) := by
  by_cases hall : ∀ install ∈ technology.keyedInstalls, install.OnDisk settings machine.disk
  · exact ⟨_, _, run_checkInstalls_onDisk hall,
      run_checkInstalls_onDisk fun install hmem => (hall install hmem).grows hgrows⟩
  · obtain ⟨before, install, after, hkeyed, hbefore, h⟩ := exists_offender hall
    exact ⟨_, _, run_checkInstalls_offender hkeyed hbefore h,
      run_checkInstalls_offender hkeyed (fun earlier hmem => (hbefore earlier hmem).grows hgrows)
        (hstays before install after hkeyed hbefore h)⟩

end Technology
end ProcessKit
