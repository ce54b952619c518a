/-
# The settings of a command

Loading the context of a command only looks at the disk (`loadTechnology_asks`), so every file it
reads is the one that was there at the start. `files` lists the settings files in the order in which
they are pushed, and `load_result` is the outcome: the technology fails first, then the first file
without a layer, and otherwise the layers are those of all files with the pairs of the command line
on top.

The order is the defaults of the technology, then the files of the configuration, then those of the
command line. A key is looked up from the newest layer to the oldest one, so `lookup_of_load` reads
the list from its end: the pairs decide, then the last file with the key. A file that says null for
a key has the key, and hides the ones below it.

That the whole of it is a matter of one disk is what makes these statements short. Each part of the
loading asks only for what is at a path and for the text of a file (`load_asks`), and an action that
does no more leaves the machine as it is, but for the log.
-/

import ProcessKit.Command.Context
import ProcessKit.Proofs.Host.Asking
import ProcessKit.Proofs.Results
import ProcessKit.Proofs.Settings.Layers

namespace ProcessKit

open ProcessKit.Action (asks_ofExcept asks_log asks_pure asks_fail asks_isFile asks_readText)
open Json (Members)

namespace Technology

/-- Loading a document that was read asks for nothing but log messages. -/
theorem load_asks (name : String) (dir : Path) (v : Json) :
    (load name dir v).Asks Request.Quiet :=
  (asks_ofExcept _).bind fun _ => (asks_log trivial).bind fun _ => asks_pure _

/-- Loading a JSON text asks for nothing but log messages. -/
theorem loadJson_asks (name : String) (dir : Path) (text : String) :
    (loadJson name dir text).Asks Request.Quiet :=
  (asks_ofExcept _).bind fun v => load_asks name dir v

/-- Loading a YAML text asks for nothing but log messages. -/
theorem loadYaml_asks (name : String) (dir : Path) (text : String) :
    (loadYaml name dir text).Asks Request.Quiet :=
  (asks_ofExcept _).bind fun v => load_asks name dir v

/-- Reading a document only looks. -/
theorem readDocument_asks (path : Path) : (readDocument path).Asks Request.Quiet :=
  asks_readText _ trivial

/-- Loading a technology from its directory only looks. -/
theorem loadFromDir_asks (name : String) (dir : Path) :
    (loadFromDir name dir).Asks Request.Quiet := by
  refine (asks_isFile trivial).bind fun json => ?_
  cases json with
  | true =>
      exact (readDocument_asks _).bind fun text => (loadJson_asks name dir text).bind fun _ =>
        asks_pure _
  | false =>
      refine (asks_isFile trivial).bind fun yaml => ?_
      cases yaml with
      | true =>
          exact (readDocument_asks _).bind fun text => (loadYaml_asks name dir text).bind fun _ =>
            asks_pure _
      | false => exact (asks_log trivial).bind fun _ => asks_pure _

/-- Looking for a technology in one directory after the other only looks. -/
theorem findIn_asks (name : String) (bases : List Path) :
    (findIn name bases).Asks Request.Quiet := by
  induction bases with
  | nil => trivial
  | cons base bases ih =>
      refine (loadFromDir_asks name _).bind fun found => ?_
      cases found with
      | some technology => trivial
      | none => exact ih

/-- Finding a technology only looks. -/
theorem find_asks (name : String) (bases : List Path) : (find name bases).Asks Request.Quiet := by
  refine (findIn_asks name bases).bind fun found => ?_
  cases found <;> trivial

end Technology

namespace Context

/-- Selecting the technology only looks at the disk. -/
theorem loadTechnology_asks (invocation : Invocation) (config : Config) :
    (loadTechnology invocation config).Asks Request.Quiet := by
  unfold loadTechnology
  cases invocation.techDir with
  | some dir =>
      refine (asks_ofExcept _).bind fun name => ?_
      refine (Technology.loadFromDir_asks name dir).bind fun found => ?_
      cases found <;> trivial
  | none =>
      cases invocation.tech with
      | some name => exact Technology.find_asks name config.searchPaths
      | none => trivial

/-- The settings files of a command for a technology on a disk, the last one the newest: the
defaults of the technology, the files of the configuration, the files on the command line. -/
def files (disk : Disk) (invocation : Invocation) (config : Config) (technology : Technology) :
    List Path :=
  (technology.defaultsOn disk).toList ++ config.settingsFiles ++ invocation.settingsFiles

/-- The layer of the settings given one by one on a command line, if there are any. -/
def givenLayer? (invocation : Invocation) : Option Members :=
  if invocation.settings.isEmpty then none
  else some (Members.ofList (invocation.settings.map fun (key, value) => (key, .string value)))

variable {tool : Tool} {machine : Machine}

/-- Pushing files and then the settings given one by one. -/
theorem run_pushGiven (invocation : Invocation) (settings : Settings) (paths : List Path) :
    ((settings.pushFiles paths >>= fun settings =>
        if invocation.settings.isEmpty then pure settings
        else pure (settings.pushPairs (invocation.settings.map fun (key, value) =>
          (key, .string value)))).run tool machine).1 =
      (paths.mapM (Settings.fileLayer machine.disk)).map fun layers =>
        ⟨(givenLayer? invocation).toList ++ (layers.reverse ++ settings.layers)⟩ := by
  have hfiles : ((settings.pushFiles paths).run tool machine).1 = _ :=
    Settings.run_pushFiles settings paths
  rw [Action.run_bind]
  cases hrun : (settings.pushFiles paths).run tool machine with
  | mk result machine' =>
      rw [hrun] at hfiles
      cases hlayers : paths.mapM (Settings.fileLayer machine.disk) with
      | error error =>
          rw [hlayers] at hfiles
          obtain rfl : result = .error error := hfiles
          rfl
      | ok layers =>
          rw [hlayers] at hfiles
          obtain rfl : result = .ok ⟨layers.reverse ++ settings.layers⟩ := hfiles
          dsimp only
          unfold givenLayer?
          split_ifs <;> rfl

/-- **The settings of a command** are the layers of all its files with the given ones on top, or
what is wrong with the first file that has no layer. -/
theorem run_loadSettings (invocation : Invocation) (config : Config) (technology : Technology) :
    ((loadSettings invocation config technology).run tool machine).1 =
      ((files machine.disk invocation config technology).mapM
        (Settings.fileLayer machine.disk)).map fun layers =>
          ⟨(givenLayer? invocation).toList ++ layers.reverse⟩ := by
  rw [loadSettings, Action.run_bind, Technology.run_pushDefaults, files]
  cases technology.defaultsOn machine.disk with
  | none =>
      dsimp only
      rw [run_pushGiven]
      simp
  | some path =>
      dsimp only
      rw [Settings.run_pushFile, Option.toList_some, List.append_assoc, List.singleton_append,
        List.mapM_cons]
      cases Settings.fileLayer machine.disk path with
      | error error => rfl
      | ok layer =>
          dsimp only
          rw [run_pushGiven]
          cases (config.settingsFiles ++ invocation.settingsFiles).mapM
            (Settings.fileLayer machine.disk) with
          | error error => rfl
          | ok layers =>
              have happend : layers.reverse ++ [layer] = (layer :: layers).reverse := by simp
              exact congrArg (fun all => Except.ok (Settings.mk (_ ++ all))) happend

/-- **The outcome of loading a context:** what is wrong with the technology comes first, then what
is wrong with the first file that has no layer. -/
theorem load_result (invocation : Invocation) (config : Config) (environment : Environment) :
    ((load invocation config environment).run tool machine).1 =
      ((loadTechnology invocation config).run tool machine).1.bind fun technology =>
        ((files machine.disk invocation config technology).mapM
          (Settings.fileLayer machine.disk)).map fun layers => {
            technology
            settings := ⟨(givenLayer? invocation).toList ++ layers.reverse⟩
            cacheDir := cacheDirOf invocation config environment technology.name } := by
  obtain ⟨hdisk, -⟩ := Action.run_quiet (loadTechnology_asks invocation config) tool machine
  rw [load, Action.run_bind]
  cases hrun : (loadTechnology invocation config).run tool machine with
  | mk result machine' =>
      rw [hrun] at hdisk
      cases result with
      | error error => rfl
      | ok technology =>
          have hsettings : ((loadSettings invocation config technology).run tool machine').1 = _ :=
            run_loadSettings invocation config technology
          rw [show machine'.disk = machine.disk from hdisk] at hsettings
          dsimp only [Except.bind]
          rw [Action.run_bind]
          cases hload : (loadSettings invocation config technology).run tool machine' with
          | mk result machine'' =>
              rw [hload] at hsettings
              dsimp only at hsettings
              rw [hsettings]
              cases (files machine.disk invocation config technology).mapM
                (Settings.fileLayer machine.disk) <;> rfl

/-- The value that a settings file gives a key; a file without a layer gives none. -/
def fileValue (disk : Disk) (path : Path) (key : String) : Option Json :=
  (Settings.fileLayer disk path).toOption.bind (Members.get? · key)

/-- The value given to a key on the command line: the last one counts. -/
def givenValue (invocation : Invocation) (key : String) : Option Json :=
  (invocation.settings.reverse.find? (·.1 == key)).map fun (_, value) => .string value

/-- The layer of the command line gives a key what was given to it last. -/
theorem findSome?_givenLayer (invocation : Invocation) (key : String) :
    (givenLayer? invocation).toList.findSome? (Members.get? · key) = givenValue invocation key := by
  rw [givenLayer?, givenValue]
  split_ifs with hempty
  · rw [List.isEmpty_iff.1 hempty]
    rfl
  · have hmap := Members.get?_ofList
      (invocation.settings.map fun (key, value) => (key, .string value)) key
    rw [← List.map_reverse, List.find?_map] at hmap
    rw [Option.toList_some, List.findSome?_singleton, hmap, Option.map_map]
    rfl

/-- The layers of files give a key what the last file with the key gives it. -/
theorem findSome?_fileLayers {disk : Disk} {paths : List Path} {layers : List Members}
    (h : paths.mapM (Settings.fileLayer disk) = .ok layers) (key : String) :
    layers.reverse.findSome? (Members.get? · key) =
      paths.reverse.findSome? (fileValue disk · key) := by
  induction mapM_eq_ok_iff.1 h with
  | nil => rfl
  | @cons path layer paths layers hlayer hrest ih =>
      have hvalue : fileValue disk path key = Members.get? layer key := by
        rw [fileValue, hlayer]
        rfl
      rw [List.reverse_cons, List.reverse_cons, List.findSome?_append, List.findSome?_append,
        ih (mapM_eq_ok_iff.2 hrest), List.findSome?_singleton, List.findSome?_singleton, hvalue]

/-- **Where the value of a key comes from** in a context that could be loaded: the pairs of the
command line first, then the files from the last one to the first. -/
theorem lookup_of_load {invocation : Invocation} {config : Config} {environment : Environment}
    {context : Context}
    (h : ((load invocation config environment).run tool machine).1 = .ok context) :
    ((loadTechnology invocation config).run tool machine).1 = .ok context.technology ∧
      (∀ path ∈ files machine.disk invocation config context.technology,
        ∃ layer, Settings.fileLayer machine.disk path = .ok layer) ∧
      ∀ key, context.settings.lookup key =
        (givenValue invocation key).or
          ((files machine.disk invocation config context.technology).reverse.findSome?
            (fileValue machine.disk · key)) := by
  rw [load_result] at h
  cases htechnology : ((loadTechnology invocation config).run tool machine).1 with
  | error error =>
      rw [htechnology] at h
      exact absurd h (by simp [Except.bind])
  | ok technology =>
      rw [htechnology] at h
      dsimp only [Except.bind] at h
      cases hlayers : (files machine.disk invocation config technology).mapM
          (Settings.fileLayer machine.disk) with
      | error error =>
          rw [hlayers] at h
          exact absurd h (by simp [Except.map])
      | ok layers =>
          rw [hlayers] at h
          obtain rfl := Except.ok.inj h
          refine ⟨rfl, fun path hpath => ?_, fun key => ?_⟩
          · obtain ⟨layer, -, hlayer⟩ := exists_of_mapM hlayers hpath
            exact ⟨layer, hlayer⟩
          · rw [Settings.lookup, List.findSome?_append, findSome?_givenLayer,
              findSome?_fileLayers hlayers]

/-- **A file without a layer** makes loading fail, with what is wrong with the first such file. A
file that is missing is one of them, unless it is the one with the defaults, which is optional. -/
theorem load_fails {invocation : Invocation} {config : Config} (environment : Environment)
    {technology : Technology}
    (htechnology : ((loadTechnology invocation config).run tool machine).1 = .ok technology)
    {before after : List Path} {path : Path} {error : Error}
    (hfiles : files machine.disk invocation config technology = before ++ path :: after)
    (hbefore : ∀ path ∈ before, ∃ layer, Settings.fileLayer machine.disk path = .ok layer)
    (herror : Settings.fileLayer machine.disk path = .error error) :
    ((load invocation config environment).run tool machine).1 = .error error := by
  rw [load_result, htechnology]
  dsimp only [Except.bind]
  rw [hfiles, mapM_eq_error hbefore herror]
  rfl

/-- Files that all have a layer are loaded. -/
theorem load_succeeds {invocation : Invocation} {config : Config} (environment : Environment)
    {technology : Technology}
    (htechnology : ((loadTechnology invocation config).run tool machine).1 = .ok technology)
    (h : ∀ path ∈ files machine.disk invocation config technology,
      ∃ layer, Settings.fileLayer machine.disk path = .ok layer) :
    ∃ context, ((load invocation config environment).run tool machine).1 = .ok context := by
  obtain ⟨layers, hlayers⟩ := exists_mapM h
  rw [load_result, htechnology]
  dsimp only [Except.bind]
  rw [hlayers]
  exact ⟨_, rfl⟩

/-- **The newest layer with a key decides,** after any calls that push layers, and in every context
that is loaded:

* a call pushes its layer, whatever is there, or fails and leaves the settings as they were, so the
  depth is the number of layers that were pushed;
* a key has the value of the newest layer with this key, be it null, and in a layer of pairs the
  last pair counts, in a document the last value under the dotted key;
* a key has no text exactly when it has no value or is null, and is refused exactly when it is an
  array or a table;
* in a loaded context a key has the value given last on the command line, or else that of the last
  of the command line's files, the configuration's files and the defaults with this key;
* a context is loaded exactly when the technology is and all these files have layers, and otherwise
  the first file without one decides the error. -/
theorem newest_layer_decides :
    (∀ (tool : Tool) (calls : List (Settings.Push × Machine)),
      let settings := Settings.pushAll tool {} calls
      let layers := calls.filterMap Settings.pushed?
      (∀ (push : Settings.Push) machine, ((push.action settings).run tool machine).1 =
        (push.layer? machine.disk).map fun layer => ⟨layer.toList ++ settings.layers⟩) ∧
      (∀ (push : Settings.Push) machine error,
        ((push.action settings).run tool machine).1 = .error error →
        Settings.pushAll tool {} (calls ++ [(push, machine)]) = settings) ∧
      settings.depth = layers.length ∧
      ∀ key,
        settings.lookup key = layers.reverse.findSome? (Members.get? · key) ∧
        (settings.text? key = .ok none ↔
          settings.lookup key = none ∨ settings.lookup key = some .null) ∧
        (settings.text? key =
            .error (.settingInvalid key "expected a string, found a list or table") ↔
          (∃ items, settings.lookup key = some (.array items)) ∨
            ∃ members, settings.lookup key = some (.object members))) ∧
    (∀ pairs key, Members.get? (Members.ofList pairs) key =
      (pairs.reverse.find? (·.1 == key)).map (·.2)) ∧
    (∀ members key, Members.get? (Settings.flatten members) key =
      ((Settings.memberLeaves none members).reverse.find? (·.1 == key)).map (·.2)) ∧
    ∀ (tool : Tool) (machine : Machine) (invocation : Invocation) (config : Config)
      (environment : Environment),
      let outcome := ((load invocation config environment).run tool machine).1
      let selected := ((loadTechnology invocation config).run tool machine).1
      let files := files machine.disk invocation config
      (∀ context, outcome = .ok context →
        selected = .ok context.technology ∧
        (∀ path ∈ files context.technology,
          ∃ layer, Settings.fileLayer machine.disk path = .ok layer) ∧
        ∀ key, context.settings.lookup key = (givenValue invocation key).or
          ((files context.technology).reverse.findSome? (fileValue machine.disk · key))) ∧
      ∀ technology, selected = .ok technology →
        ((∀ path ∈ files technology, ∃ layer, Settings.fileLayer machine.disk path = .ok layer) →
          ∃ context, outcome = .ok context) ∧
        ∀ before path after error, files technology = before ++ path :: after →
          (∀ path ∈ before, ∃ layer, Settings.fileLayer machine.disk path = .ok layer) →
          Settings.fileLayer machine.disk path = .error error → outcome = .error error := by
  refine ⟨fun tool calls => ?_, Members.get?_ofList, Settings.get?_flatten, ?_⟩
  · intro settings layers
    refine ⟨fun push machine => push.run_action settings tool machine,
      fun push machine error => Settings.pushAll_concat_of_error,
      Settings.depth_pushAll tool calls, fun key => ?_⟩
    exact ⟨Settings.lookup_pushAll tool calls key, settings.text?_eq_none_iff key,
      settings.text?_eq_error_iff key⟩
  · intro tool machine invocation config environment outcome selected files
    refine ⟨fun context => lookup_of_load, fun technology htechnology =>
      ⟨load_succeeds environment htechnology, ?_⟩⟩
    intro before path after error
    exact load_fails environment htechnology

/-- A machine with the technology `t`, which has no defaults, and a settings file. -/
def layeredMachine : Machine :=
  { disk := ⟨[(["t"], .dir .newDir),
      (["t", "t.tech.json"], .file (Utf8.encode "\x7b\x7d") .newFile),
      (["s.json"], .file (Utf8.encode "\x7b\"a\": \"file\", \"b\": null\x7d") .newFile)], []⟩ }

/-- A command for the technology `t` that gives `a` twice, and names a settings file. -/
def layeredInvocation (file : String) : Invocation where
  command := .check
  techDir := some ⟨"/t"⟩
  settingsFiles := [⟨file⟩]
  settings := [("a", "first"), ("a", "last")]

/-- A null hides an older value, a call that fails leaves it hidden, the value given last on the
command line wins over the file, and a file that is not there is an error. -/
theorem layers_of_t :
    let idle : Tool := fun _ machine => (.ok (), machine)
    let calls : List (Settings.Push × Machine) :=
      [(.pairs [("a", .string "old")], layeredMachine),
        (.document (.object [("a", .null)]), layeredMachine)]
    let failing : Settings.Push := .document (.array [])
    let load (file : String) :=
      ((load (layeredInvocation file) {} {}).run idle layeredMachine).1
    (Settings.pushAll idle {} calls).depth = 2 ∧
    (Settings.pushAll idle {} calls).text? "a" = .ok none ∧
    Settings.pushAll idle {} (calls ++ [(failing, layeredMachine)]) =
      Settings.pushAll idle {} calls ∧
    (∃ context, load "/s.json" = .ok context ∧
      context.settings.lookup "a" = some (.string "last")) ∧
    load "/u.json" = .error (.io "reading settings from /u.json") := by
  intro idle calls failing load
  obtain ⟨hcalls, -, -, hload⟩ := newest_layer_decides
  obtain ⟨-, hfailing, hdepth, hkeys⟩ := hcalls idle calls
  obtain ⟨hlookup, htext, -⟩ := hkeys "a"
  have hnull : (Settings.pushAll idle {} calls).lookup "a" = some .null := hlookup
  refine ⟨hdepth, htext.2 (Or.inr hnull), hfailing failing layeredMachine _ rfl, ?_, ?_⟩
  · obtain ⟨hcontext, -⟩ := hload idle layeredMachine (layeredInvocation "/s.json") {} {}
    have hok : (load "/s.json").toOption.isSome = true := by decide +kernel
    obtain ⟨context, hsome⟩ := Option.isSome_iff_exists.1 hok
    have hresult := eq_ok_of_toOption hsome
    exact ⟨context, hresult, (hcontext context hresult).2.2 "a"⟩
  · obtain ⟨-, hselected⟩ := hload idle layeredMachine (layeredInvocation "/u.json") {} {}
    have hpath : ((loadTechnology (layeredInvocation "/u.json") {}).run idle
        layeredMachine).1.toOption.map (·.path) = some ⟨"/t"⟩ := by decide +kernel
    have hnone : Technology.defaultsOn ⟨"t", ⟨"/t"⟩, {}⟩ layeredMachine.disk = none := by
      decide +kernel
    have hmissing : Settings.fileLayer layeredMachine.disk ⟨"/u.json"⟩ =
        .error (.io "reading settings from /u.json") := rfl
    obtain ⟨technology, hsome, hdir⟩ := Option.map_eq_some_iff.1 hpath
    have hfiles : files layeredMachine.disk (layeredInvocation "/u.json") {} technology =
        [] ++ ⟨"/u.json"⟩ :: [] := by
      have hdefaults : technology.defaultsOn layeredMachine.disk = none := by
        rw [← hnone, Technology.defaultsOn, Technology.defaultsOn, hdir]
      rw [files, hdefaults]
      rfl
    exact (hselected technology (eq_ok_of_toOption hsome)).2 [] ⟨"/u.json"⟩ [] _ hfiles (by simp)
      hmissing

end Context
end ProcessKit
