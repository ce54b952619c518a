/-
# Checking installs on the command line

A technology whose document declares installs is checked by two commands: `check` looks at its
installs, and `extract` makes the directory of the cache and then looks at them too. Up to that
point both do the same (`run_loading`), and making a directory takes nothing away, so both end in
the same way unless the first install that is not there is what is made (`extract_alike_check`).

That happens where an install is told to be in the cache (`cache_as_install`). It is the only way
the two can differ: the installs that are there stay there on a disk that grows, so the first
offender of the one command is reached by the other one too, and decides there unless it has come
into being.

What the commands show is the output, the exit status and the lines of the log, and `shownOf` is
that part of a run. It does not depend on the disk that a run leaves, only on its result and on the
log, so a comparison of two checks (`checkInstalls_alike`) is one of what is shown.
-/

import ProcessKit.Command.Report
import ProcessKit.Proofs.Command.Context
import ProcessKit.Proofs.Technology.Availability
import ProcessKit.Proofs.Technology.Installs

namespace ProcessKit

open ProcessKit.Action (asks_ofExcept asks_log asks_pure asks_fail asks_isFile asks_pathExists
  asks_readText)

/-! ### Loading only looks -/

/-- Reading a settings file changes nothing on the disk, whatever its format is and whether or not
it can be parsed. -/
theorem Settings.pushFile_asks (settings : Settings) (path : Path) :
    (settings.pushFile path).Asks Request.Quiet :=
  (asks_readText _ trivial).bind fun _ => (asks_ofExcept _).bind fun _ =>
    (asks_log trivial).bind fun _ => asks_pure _

/-- Reading any number of settings files changes nothing either, and neither does stopping at the
first one that cannot be read. -/
theorem Settings.pushFiles_asks (settings : Settings) (paths : List Path) :
    (settings.pushFiles paths).Asks Request.Quiet := by
  induction paths generalizing settings with
  | nil => exact asks_pure settings
  | cons path paths ih => exact (settings.pushFile_asks path).bind fun settings => ih settings

/-- Looking for the first file of several that is there changes nothing. -/
theorem Technology.firstFile?_asks (paths : List Path) :
    (Technology.firstFile? paths).Asks Request.Quiet := by
  induction paths with
  | nil => exact asks_pure none
  | cons path paths ih =>
      refine (asks_isFile trivial).bind fun there => ?_
      cases there with
      | true => exact asks_pure _
      | false => exact ih

/-- The defaults of a technology are read, if there are any, and never written. -/
theorem Technology.pushDefaults_asks (technology : Technology) (settings : Settings) :
    (technology.pushDefaults settings).Asks Request.Quiet := by
  refine (Technology.firstFile?_asks _).bind fun found => ?_
  cases found with
  | some path => exact settings.pushFile_asks path
  | none => exact asks_pure settings

/-- Reading the configuration file changes nothing: a file that is missing is not made. -/
theorem ConfigFile.load_asks (file : ConfigFile) : file.load.Asks Request.Quiet := by
  refine (asks_pathExists trivial).bind fun there => ?_
  cases there with
  | true => exact (asks_readText _ trivial).bind fun _ => asks_ofExcept _
  | false =>
      change (if file.named then _ else _ : Action Config).Asks _
      split_ifs
      · exact asks_fail _
      · exact (asks_log trivial).bind fun _ => asks_pure _

namespace Context

variable {context : Context} {tool : Tool} {machine : Machine}

/-- Putting the settings together, from the defaults, the configuration and the command line, is
only reading. -/
theorem loadSettings_asks (invocation : Invocation) (config : Config) (technology : Technology) :
    (loadSettings invocation config technology).Asks Request.Quiet := by
  refine (technology.pushDefaults_asks {}).bind fun settings => ?_
  refine (settings.pushFiles_asks _).bind fun settings => ?_
  split_ifs <;> exact asks_pure _

/-- **Loading a context** only looks at the disk: for the configuration, the document of the
technology, and the files of the settings. -/
theorem load_asks (invocation : Invocation) (config : Config) (environment : Environment) :
    (load invocation config environment).Asks Request.Quiet :=
  (loadTechnology_asks invocation config).bind fun technology =>
    (loadSettings_asks invocation config technology).bind fun _ =>
      (asks_log trivial).bind fun _ => asks_pure _

/-! ### The two commands -/

/-- What a run shows of what a command came to. -/
def shownOf (invocation : Invocation) (config : Config) (ended : Except Error Unit × Machine) :
    Outcome :=
  .ofResult ended.1 ended.2.output
    (ended.2.log.filterMap fun (level, message) =>
      (LogStyle.of invocation config).line? level message)

/-- The exit code and the errors are those of the result and the events. -/
theorem shownOf_congr (invocation : Invocation) (config : Config)
    {ended ended' : Except Error Unit × Machine} (hresult : ended'.1 = ended.1)
    (hlog : ended'.2.log = ended.2.log) :
    (shownOf invocation config ended').exitCode = (shownOf invocation config ended).exitCode ∧
      (shownOf invocation config ended').errors = (shownOf invocation config ended).errors := by
  rw [shownOf, shownOf, hresult, hlog]
  cases ended.1 <;> exact ⟨rfl, rfl⟩

/-- What a check of the installs means for the command that makes it. -/
def ended (context : Context) : Except Error Bool → Except Error Unit
  | .ok true => .ok ()
  | .ok false => .error (.missingInstall context.technology.name)
  | .error error => .error error

/-- `check` ends as the check of the installs does. -/
theorem run_check {result : Except Error Bool} {next : Machine}
    (h : (context.technology.checkInstalls context.settings).run tool machine = (result, next)) :
    ∃ output, context.check.run tool machine = (context.ended result, { next with output }) := by
  rw [check, Action.run_bind, h]
  cases result with
  | error error => exact ⟨_, rfl⟩
  | ok found => cases found <;> exact ⟨_, rfl⟩

/-- `extract` does so too, once it has made the directory of the cache. -/
theorem run_extract (processId : Nat)
    (hinstalls : context.technology.document.installs.isSome = true)
    (hmade : (machine.disk.createDirAll context.cacheDir).1 = true)
    {result : Except Error Bool} {next : Machine}
    (h : (context.technology.checkInstalls context.settings).run tool
      { machine with disk := (machine.disk.createDirAll context.cacheDir).2 } = (result, next)) :
    ∃ output, (context.extract processId).run tool machine =
      (context.ended result, { next with output }) := by
  have hcache : (context.createCache processId).run tool machine =
      (.ok ⟨context.cacheDir, processId⟩,
        { machine with disk := (machine.disk.createDirAll context.cacheDir).2 }) := by
    rw [createCache, Cache.create, Action.run_bind, Action.run_createDirAll, if_pos hmade]
    rfl
  rw [extract, Action.run_bind, hcache]
  dsimp only
  rw [Technology.makeAvailable_of_installs _ hinstalls, Action.run_bind, h]
  cases result with
  | error error => exact ⟨_, rfl⟩
  | ok found =>
      cases found with
      | true => exact ⟨_, rfl⟩
      | false =>
          dsimp only
          rw [if_neg Bool.false_ne_true, if_pos hinstalls]
          exact ⟨_, rfl⟩

/-- **`extract` ends as `check` does,** with the same events, unless making the directory of the
cache makes the first install that was not there. -/
theorem extract_alike_check (tool : Tool) (processId : Nat)
    (hinstalls : context.technology.document.installs.isSome = true)
    (hmade : (machine.disk.createDirAll context.cacheDir).1 = true)
    (hstays : context.technology.OffenderStays context.settings machine.disk
      (machine.disk.createDirAll context.cacheDir).2) :
    let checked := context.check.run tool machine
    let extracted := (context.extract processId).run tool machine
    extracted.1 = checked.1 ∧ extracted.2.log = checked.2.log := by
  let made : Machine := { machine with disk := (machine.disk.createDirAll context.cacheDir).2 }
  have hgrows : Disk.Grows machine.disk made.disk := Disk.grows_createDirAll _ _
  obtain ⟨result, events, hcheck, hextract⟩ := Technology.checkInstalls_alike tool hgrows hstays
  obtain ⟨output, hchecked⟩ := run_check hcheck
  obtain ⟨output', hextracted⟩ := run_extract processId hinstalls hmade hextract
  rw [hchecked, hextracted]
  exact ⟨rfl, rfl⟩

/-- What a run shows if the configuration cannot be read. -/
theorem run_of_config_error {invocation : Invocation} {environment : Environment} {error : Error}
    {next : Machine} (processId : Nat)
    (h : (invocation.configSource environment).load.run tool machine = (.error error, next)) :
    (invocation.run environment processId tool machine).1 = .ofResult (.error error) [] [] := by
  rw [Invocation.run]
  dsimp only
  rw [h]

/-- What a run shows once the configuration has been read. -/
theorem run_of_config {invocation : Invocation} {environment : Environment} {config : Config}
    {next : Machine} (processId : Nat)
    (h : (invocation.configSource environment).load.run tool machine = (.ok config, next)) :
    (invocation.run environment processId tool machine).1 =
      shownOf invocation config ((invocation.execute environment processId
        (invocation.configSource environment) config).run tool
          { next with log := [], output := [] }) := by
  rw [Invocation.run]
  dsimp only
  rw [h]
  rfl

/-- **Both commands load the same.** Where that fails, both show the failure; otherwise both go on
from one machine, whose disk is as it was. So the two are compared from there on. -/
theorem run_loading (invocation : Invocation) (environment : Environment) (processId : Nat)
    (tool : Tool) (machine : Machine) :
    let outcome (command : Command) :=
      ({ invocation with command }.run environment processId tool machine).1
    outcome .extract = outcome .check ∨
      ∃ config context ready,
        ((invocation.configSource environment).load.run tool machine).1 = .ok config ∧
        ((load invocation config environment).run tool machine).1 = .ok context ∧
        ready.disk = machine.disk ∧
        outcome .check = shownOf invocation config (context.check.run tool ready) ∧
        outcome .extract =
          shownOf invocation config ((context.extract processId).run tool ready) := by
  intro outcome
  obtain ⟨hdisk, -⟩ := Action.run_quiet (invocation.configSource environment).load_asks tool machine
  cases hconfig : (invocation.configSource environment).load.run tool machine with
  | mk result next =>
      rw [hconfig] at hdisk
      cases result with
      | error error =>
          have hfails (command : Command) : outcome command = .ofResult (.error error) [] [] :=
            run_of_config_error processId hconfig
          exact Or.inl ((hfails .extract).trans (hfails .check).symm)
      | ok config =>
          let start : Machine := { next with
            log := [(.debug, "Using config " ++ (invocation.configSource environment).path.text)]
            output := [] }
          have hsame : ((load invocation config environment).run tool start).1 =
              ((load invocation config environment).run tool machine).1 :=
            Action.result_of_quiet (load_asks invocation config environment) tool hdisk
          have hready : ((load invocation config environment).run tool start).2.disk =
              machine.disk :=
            (Action.run_quiet (load_asks invocation config environment) tool start).1.trans hdisk
          have hcheck : outcome .check = shownOf invocation config
              ((load invocation config environment >>= check).run tool start) :=
            run_of_config processId hconfig
          have hextract : outcome .extract = shownOf invocation config
              ((load invocation config environment >>= (extract · processId)).run tool start) :=
            run_of_config processId hconfig
          rw [hcheck, hextract, Action.run_bind, Action.run_bind]
          cases hload : (load invocation config environment).run tool start with
          | mk result ready =>
              rw [hload] at hsame hready
              cases result with
              | error error => exact Or.inl rfl
              | ok context =>
                  exact Or.inr ⟨config, context, ready, rfl, hsame.symm, hready, rfl, rfl⟩

/-- **The first install that is not there decides,** on the command line too.

* The check of the installs says that all is well exactly if each install that names a key is on
  the disk. Otherwise the first one that is not decides: an error if its key has no value or no
  text, and else `false` with one error event that names its path, after the events of those before
  it. What comes behind it is not looked at, and all that the check does is to log.
* `extract` has the exit code and the errors of `check`, if the document declares installs and the
  directory of the cache can be made, unless making it makes the first install that is not there;
  and whenever loading fails. -/
theorem first_offender_decides :
    (∀ (technology : Technology) (settings : Settings) (tool : Tool) (machine : Machine),
      let outcome := (technology.checkInstalls settings).run tool machine
      (outcome.1 = .ok true ↔
        ∀ install ∈ technology.keyedInstalls, install.OnDisk settings machine.disk) ∧
      (∃ events, outcome.2 = { machine with log := machine.log ++ events }) ∧
      ∀ before install after, technology.keyedInstalls = before ++ install :: after →
        (∀ earlier ∈ before, earlier.OnDisk settings machine.disk) →
        ¬ install.OnDisk settings machine.disk →
        outcome = ((technology.verdict settings install).1,
          { machine with
            log := machine.log ++ (Technology.foundEvents settings before ++
              (technology.verdict settings install).2) }) ∧
        (technology.checkInstalls settings).trace tool machine =
          (technology.checkEach settings (before ++ [install])).trace tool machine) ∧
    ∀ (invocation : Invocation) (environment : Environment) (processId : Nat) (tool : Tool)
      (machine : Machine),
      (∀ config context,
        ((invocation.configSource environment).load.run tool machine).1 = .ok config →
        ((load invocation config environment).run tool machine).1 = .ok context →
        context.technology.document.installs.isSome = true ∧
        (machine.disk.createDirAll context.cacheDir).1 = true ∧
        context.technology.OffenderStays context.settings machine.disk
          (machine.disk.createDirAll context.cacheDir).2) →
      let outcome (command : Command) :=
        ({ invocation with command }.run environment processId tool machine).1
      (outcome .extract).exitCode = (outcome .check).exitCode ∧
        (outcome .extract).errors = (outcome .check).errors := by
  refine ⟨Technology.checkInstalls_first_offender,
    fun invocation environment processId tool machine h => ?_⟩
  intro outcome
  obtain hsame | ⟨config, context, ready, hconfig, hload, hdisk, hcheck, hextract⟩ :=
    run_loading invocation environment processId tool machine
  · have hsame : outcome .extract = outcome .check := hsame
    rw [hsame]
    exact ⟨rfl, rfl⟩
  · obtain ⟨hinstalls, hmade, hstays⟩ := h config context hconfig hload
    rw [← hdisk] at hmade hstays
    obtain ⟨hresult, hlog⟩ := extract_alike_check tool processId hinstalls hmade hstays
    have hcheck : outcome .check = _ := hcheck
    have hextract : outcome .extract = _ := hextract
    rw [hcheck, hextract]
    exact shownOf_congr invocation config hresult hlog

/-- The document of a technology with two installs. -/
def installsText : String :=
  "\x7b\"installs\": [\x7b\"path\": \"ip\", \"base_var\": \"A\"\x7d, " ++
    "\x7b\"path\": \"vendor\", \"base_var\": \"V\"\x7d]\x7d"

/-- A machine with that technology, and no directory for caches yet. -/
def installMachine : Machine :=
  { disk := ⟨[(["t"], .dir .newDir),
      (["t", "t.tech.json"], .file (Utf8.encode installsText) .newFile)], []⟩ }

/-- A command line for it, which tells where the second install is. -/
def installInvocation (vendor : String) : Invocation where
  command := .check
  techDir := some ⟨"/t"⟩
  settings := [("A", "/t"), ("V", vendor)]
  cacheDir := some ⟨"/cache"⟩

/-- What a command shows there. -/
def installOutcome (invocation : Invocation) (command : Command) : Outcome :=
  ({ invocation with command }.run {} 7 (fun _ machine => (.ok (), machine)) installMachine).1

/-- **An install in the cache:** its directory is not there, so that `check` fails; `extract` makes
that directory first, and succeeds. -/
theorem cache_as_install :
    (∃ context,
      ((load (installInvocation "/cache") {} {}).run (fun _ machine => (.ok (), machine))
        installMachine).1 = .ok context ∧
      context.technology.document.installs.isSome = true ∧
      (installMachine.disk.createDirAll context.cacheDir).1 = true) ∧
    installOutcome (installInvocation "/cache") .check =
      ⟨1, [], ["ERROR installs /cache for technology t does not exist",
        "Error: Installs for technology t are missing on disk"]⟩ ∧
    installOutcome (installInvocation "/cache") .extract =
      ⟨0, ["[OK] Technology files for t are available"], []⟩ := by
  have hload : ((load (installInvocation "/cache") {} {}).run (fun _ machine => (.ok (), machine))
      installMachine).1.toOption.map (fun context => (context.technology.document.installs.isSome,
        (installMachine.disk.createDirAll context.cacheDir).1)) = some (true, true) := by
    decide +kernel
  obtain ⟨context, hsome, hfields⟩ := Option.map_eq_some_iff.1 hload
  obtain ⟨hinstalls, hmade⟩ := Prod.mk.inj hfields
  exact ⟨⟨context, eq_ok_of_toOption hsome, hinstalls, hmade⟩, by decide +kernel,
    by decide +kernel⟩

/-- The technology of that document. -/
def twoInstalls : Technology :=
  { name := "t", path := ⟨"/t"⟩, document := { installs := some [⟨"ip", "A"⟩, ⟨"vendor", "V"⟩] } }

/-- With the second of two installs elsewhere and missing, the check ends with it, and both commands
show the same failure. -/
theorem vendor_missing :
    (twoInstalls.checkInstalls (.ofPairs [("A", .string "/t"), ("V", .string "/vendor")])).run
        (fun _ machine => (.ok (), machine)) installMachine =
      (.ok false, { installMachine with
        log := [(.debug, "Found install ip at /t"),
          (.error, "installs /vendor for technology t does not exist")] }) ∧
    let outcome := installOutcome (installInvocation "/vendor")
    (outcome .check).exitCode = 1 ∧
      (outcome .extract).exitCode = (outcome .check).exitCode ∧
      (outcome .extract).errors = (outcome .check).errors := by
  obtain ⟨hchecks, hcommands⟩ := first_offender_decides
  refine ⟨?_, by decide +kernel, ?_⟩
  · obtain ⟨-, -, hfirst⟩ := hchecks twoInstalls
      (.ofPairs [("A", .string "/t"), ("V", .string "/vendor")])
      (fun _ machine => (.ok (), machine)) installMachine
    obtain ⟨hrun, -⟩ := hfirst [⟨"ip", "A"⟩] ⟨"vendor", "V"⟩ [] (by decide) (by decide +kernel)
      (by decide +kernel)
    rw [hrun]
    rfl
  · unfold installOutcome
    refine hcommands (installInvocation "/vendor") {} 7 (fun _ machine => (.ok (), machine))
      installMachine fun config context hconfig hload => ?_
    obtain rfl : {} = config := Except.ok.inj hconfig
    have hfacts : ((load (installInvocation "/vendor") {} {}).run
        (fun _ machine => (.ok (), machine)) installMachine).1.toOption.map (fun context =>
          (context.technology.document.installs.isSome,
            (installMachine.disk.createDirAll context.cacheDir).1,
            context.technology.keyedInstalls.all fun install =>
              install.OnDisk context.settings installMachine.disk ∨
                ¬ install.OnDisk context.settings
                  (installMachine.disk.createDirAll context.cacheDir).2)) =
        some (true, true, true) := by decide +kernel
    rw [hload] at hfacts
    obtain ⟨hinstalls, hrest⟩ := Prod.mk.inj (Option.some.inj hfacts)
    obtain ⟨hmade, hapart⟩ := Prod.mk.inj hrest
    refine ⟨hinstalls, hmade, fun before install after hkeyed _ hmissing => ?_⟩
    have hmem : install ∈ context.technology.keyedInstalls := by rw [hkeyed]; simp
    exact (of_decide_eq_true (List.all_eq_true.1 hapart install hmem)).resolve_left hmissing

end Context
end ProcessKit
