/-
# The configuration comes back

The configuration is shown as text with a section for each of its keys (`Key`). A section or a key
may be left out where the configuration holds the default anyway, and so may the empty lines between
sections (`remaining`). Loading a file with the text, or with what remains of it, gives the
configuration that was shown (`decode_remaining`).

The keys are a list that both sides go through. `Key.header` and `Key.name` say where a key stands
in the text, `Key.setting?` what the configuration has for it, and `Kept` whether its section is
there as a whole, with its header alone, or not at all. Parsing what remains gives one table for
each header that was kept (`parse_remaining`), and decoding looks the settings up in these tables
(`setting?_tables`). A setting that is not found is the default (`orDefault_of_found`), which is why
a key may be left out only where the configuration holds that.

A configuration may hold any texts. Which of them a quoted form can take, and that each of them has
one, is the part of the argument that is about TOML, and is told in the modules about its strings
and its printer. `hardToWrite` is a configuration whose texts need escapes, several lines and quotes
of both kinds.
-/

import ProcessKit.Command.Execution
import ProcessKit.Proofs.Host.Run
import ProcessKit.Proofs.Text.Utf8
import ProcessKit.Proofs.Toml.Document
import ProcessKit.Proofs.Toml.Printer

namespace ProcessKit

/-- A file that can be read is there. -/
theorem Disk.isSome_kind?_of_readFile? {disk : Disk} {path : Path} {bytes : Bytes}
    (h : disk.readFile? path = some bytes) : (disk.kind? path).isSome := by
  rw [Disk.readFile?] at h
  rw [Disk.kind?]
  split at h
  · rename_i heq
    rw [heq]
    rfl
  · rename_i heq
    rw [heq]
    rfl
  · exact absurd h (by simp)

/-- Loading a file with a text takes the configuration from the text. -/
theorem ConfigFile.run_load {file : ConfigFile} {text : String} {tool : Tool} {machine : Machine}
    (h : machine.disk.readFile? file.path = some (Utf8.encode text)) :
    file.load.run tool machine = (ConfigFile.decode file.path text, machine) := by
  rw [ConfigFile.load, Action.run_bind, Action.run_pathExists,
    Disk.isSome_kind?_of_readFile? h]
  dsimp only
  rw [if_pos rfl, Action.run_bind, Action.run_readText, h, Option.bind_some, Utf8.decode?_encode]
  exact Action.run_ofExcept _

namespace Config

open Toml (Value FlatTable Says Reads IsBareKey)

/-- The keys of a configuration, each in a section of its own. -/
inductive Key where
  | logFormat
  | cacheDir
  | settingsFiles
  | searchPaths
  deriving DecidableEq

/-- What a key may be set to. -/
inductive Setting where
  | text (s : String)
  | texts (items : List String)
  deriving DecidableEq

namespace Setting

/-- The setting as TOML text. -/
def print : Setting → String
  | .text s => Toml.Printer.string s
  | .texts items => Toml.Printer.array items

/-- The setting as a TOML value. -/
def value : Setting → Value
  | .text s => .string s
  | .texts items => .array (items.map .string)

/-- A setting is read back as the value that it was printed from. -/
theorem reads (setting : Setting) : Reads setting.print.toList setting.value := by
  cases setting with
  | text s => exact Toml.reads_string s
  | texts items => exact Toml.reads_array items

end Setting

namespace Key

/-- The keys in the order of the text. -/
def all : List Key := [.logFormat, .cacheDir, .settingsFiles, .searchPaths]

/-- The section that a key is in. -/
def header : Key → String
  | .logFormat => "general"
  | .cacheDir => "cache"
  | .settingsFiles => "settings"
  | .searchPaths => "technology"

/-- The name of a key. -/
def name : Key → String
  | .logFormat => "log_format"
  | .cacheDir => "dir"
  | .settingsFiles => "files"
  | .searchPaths => "search_paths"

/-- What a key is set to in a configuration, if it is set. -/
def setting? (config : Config) : Key → Option Setting
  | .logFormat => some (.text config.logFormat)
  | .cacheDir => config.cacheDir.map fun dir => .text dir.text
  | .settingsFiles => some (.texts (config.settingsFiles.map Path.text))
  | .searchPaths => some (.texts (config.searchPaths.map Path.text))

/-- The configuration has the default here. -/
def HoldsDefault (config : Config) (key : Key) : Prop := key.setting? config = key.setting? {}

end Key

/-- How much of a section is left in the text. -/
inductive Kept where
  | all
  /-- The header, without the key. -/
  | header
  | nothing
  deriving DecidableEq

/-- What is left of a section. -/
def sectionText (config : Config) (key : Key) : Kept → String
  | .all => Toml.Printer.table key.header
      ((key.setting? config).toList.map fun setting =>
        Toml.Printer.assignment key.name setting.print)
  | .header => Toml.Printer.table key.header []
  | .nothing => ""

/-- **What remains of the text of a configuration,** given what is kept of each section, and behind
which of them the empty line is kept. -/
def remaining (config : Config) (kept : Key → Kept) (spaced : Key → Bool) : String :=
  String.join (Key.all.map fun key =>
    config.sectionText key (kept key) ++ if spaced key then "\n" else "")

/-- **The text that is shown,** with the line end behind it, is what remains if all is kept. -/
theorem remaining_all (config : Config) :
    config.remaining (fun _ => .all) (fun _ => true) = config.render ++ "\n" := by
  have hcache : config.sectionText .cacheDir .all =
      Toml.Printer.table "cache" (config.cacheDir.toList.map fun dir =>
        Toml.Printer.assignment "dir" (Toml.Printer.string dir.text)) := by
    rw [sectionText, Key.setting?]
    cases config.cacheDir <;> rfl
  rw [render, ← hcache, ← String.toList_inj]
  simp [remaining, Key.all, sectionText, Key.setting?, Key.header, Key.name, Setting.print]

/-! ### What the text says -/

/-- The names of sections need no quotes. -/
theorem isBareKey_header (key : Key) : IsBareKey key.header := by
  cases key <;> exact ⟨by decide, List.all_eq_true.1 (by decide)⟩

/-- The names of keys need no quotes. -/
theorem isBareKey_name (key : Key) : IsBareKey key.name := by
  cases key <;> exact ⟨by decide, List.all_eq_true.1 (by decide)⟩

/-- The values that are left in a section. -/
def sectionValues (config : Config) (key : Key) : Kept → Option (List (String × Value))
  | .all => some ((key.setting? config).toList.map fun setting => (key.name, setting.value))
  | .header => some []
  | .nothing => none

/-- The tables that are left. -/
def tables (config : Config) (kept : Key → Kept) (keys : List Key) : List FlatTable :=
  keys.filterMap fun key => (config.sectionValues key (kept key)).map (key.header, ·)

/-- The tables that are left are found section by section. -/
theorem tables_cons (config : Config) (kept : Key → Kept) (key : Key) (keys : List Key) :
    config.tables kept (key :: keys) =
      ((config.sectionValues key (kept key)).map (key.header, ·)).toList ++
        config.tables kept keys := by
  rw [tables, List.filterMap_cons]
  cases config.sectionValues key (kept key) <;> rfl

/-- **What is left of a section says its table,** given that what comes behind it says the rest.
Nothing is left of it, its header, or its header with one assignment. -/
theorem says_section (config : Config) (key : Key) (kept : Kept) {cs : List Char}
    {statements : List Toml.Statement} (h : Says cs statements) :
    Says ((config.sectionText key kept).toList ++ cs)
      ((((config.sectionValues key kept).map (key.header, ·)).toList.flatMap
        FlatTable.statements) ++ statements) := by
  have hheader := isBareKey_header key
  have hname := isBareKey_name key
  cases kept with
  | nothing => simpa [sectionText, sectionValues] using h
  | header =>
      have hsays := h.header hheader
      simpa [sectionText, sectionValues, Toml.Printer.table, FlatTable.statements] using hsays
  | all =>
      cases hsetting : key.setting? config with
      | none =>
          have hsays := h.header hheader
          simpa [sectionText, sectionValues, hsetting, Toml.Printer.table, FlatTable.statements]
            using hsays
      | some setting =>
          have hsays := (h.assignment hname setting.reads).header hheader
          simpa [sectionText, sectionValues, hsetting, Toml.Printer.table,
            Toml.Printer.assignment, FlatTable.statements] using hsays

/-- **What remains says the tables that are left,** from the last section to the first. An empty
line between two sections says nothing. -/
theorem says_remaining (config : Config) (kept : Key → Kept) (spaced : Key → Bool) :
    Says (config.remaining kept spaced).toList
      ((config.tables kept Key.all).flatMap FlatTable.statements) := by
  rw [remaining]
  generalize Key.all = keys
  induction keys with
  | nil => exact Toml.says_nil
  | cons key keys ih =>
      have hgap : Says ((if spaced key then "\n" else "").toList ++
          (String.join (keys.map fun key =>
            config.sectionText key (kept key) ++ if spaced key then "\n" else "")).toList)
          ((config.tables kept keys).flatMap FlatTable.statements) := by
        cases spaced key with
        | true => exact ih.newline
        | false => exact ih
      have hsays := says_section config key (kept key) hgap
      rw [tables_cons, List.flatMap_append]
      simpa using hsays

/-! ### What is read from it -/

/-- What is found of a key. -/
def found (config : Config) (kept : Key → Kept) (key : Key) : Option Value :=
  match kept key with
  | .all => (key.setting? config).map Setting.value
  | _ => none

/-- Each key is in a section of its own. -/
theorem header_injective {key other : Key} (h : key.header = other.header) : key = other := by
  cases key <;> cases other <;> first | rfl | exact absurd h (by decide)

/-- No table comes up twice. -/
theorem nodup_tables (config : Config) (kept : Key → Kept) :
    ((config.tables kept Key.all).map (·.1)).Nodup := by
  have hsublist (keys : List Key) :
      ((config.tables kept keys).map (·.1)).Sublist (keys.map Key.header) := by
    induction keys with
    | nil => exact List.Sublist.slnil
    | cons key keys ih =>
        rw [tables_cons, List.map_append, List.map_cons]
        cases config.sectionValues key (kept key) with
        | none => exact ih.cons _
        | some values => exact ih.cons_cons _
  exact (hsublist Key.all).nodup (by decide)

/-- No key comes up twice in a table. -/
theorem nodup_values (config : Config) (kept : Key → Kept) :
    ∀ table ∈ config.tables kept Key.all, (table.2.map (·.1)).Nodup := by
  intro table htable
  obtain ⟨key, -, h⟩ := List.mem_filterMap.1 htable
  obtain ⟨values, hvalues, rfl⟩ := Option.map_eq_some_iff.1 h
  cases hkept : kept key with
  | nothing => simp [hkept, sectionValues] at hvalues
  | header =>
      obtain rfl : [] = values := by simpa [hkept, sectionValues] using hvalues
      exact List.nodup_nil
  | all =>
      obtain rfl := Option.some.inj (hkept ▸ hvalues)
      cases key.setting? config <;> simp

/-- **The tables that are left are read,** since their headers differ and each has one name at most.
-/
theorem parse_remaining (config : Config) (kept : Key → Kept) (spaced : Key → Bool) :
    Toml.parse (config.remaining kept spaced) =
      .ok ((config.tables kept Key.all).map fun table => (table.1, .table table.2)) :=
  Toml.parse_of_says (says_remaining config kept spaced) (nodup_tables config kept)
    (nodup_values config kept)

/-- A section is found under its name with the values that are left in it, if it is left. -/
theorem lookup_tables (config : Config) (kept : Key → Kept) (key : Key) (keys : List Key) :
    ((config.tables kept keys).map fun table => (table.1, Value.table table.2)).lookup key.header =
      if key ∈ keys then (config.sectionValues key (kept key)).map .table else none := by
  induction keys with
  | nil => rfl
  | cons other keys ih =>
      rw [tables_cons, List.map_append]
      by_cases hkey : key = other
      · subst hkey
        rw [if_pos List.mem_cons_self]
        cases hvalues : config.sectionValues key (kept key) with
        | none =>
            refine ih.trans ?_
            rw [hvalues]
            exact ite_self none
        | some values => simp
      · have hheader : (key.header == other.header) = false :=
          beq_eq_false_iff_ne.2 fun heq => hkey (header_injective heq)
        have hmem : key ∈ other :: keys ↔ key ∈ keys := by simp [hkey]
        rw [if_congr hmem rfl rfl, ← ih]
        cases config.sectionValues other (kept other) with
        | none => rfl
        | some values => simp [List.lookup_cons, hheader]

/-- What is found of a key is what is left of it. -/
theorem setting?_tables (config : Config) (kept : Key → Kept) (key : Key) :
    setting? ((config.tables kept Key.all).map fun table => (table.1, .table table.2))
      key.header key.name = .ok (config.found kept key) := by
  have hmem : key ∈ Key.all := by cases key <;> decide
  rw [setting?, lookup_tables, if_pos hmem, found]
  cases kept key with
  | nothing => rfl
  | header => rfl
  | all =>
      rw [sectionValues]
      cases key.setting? config with
      | none => rfl
      | some setting => simp

/-- Paths come back from the texts that they were written as. -/
theorem decodePaths_value (paths : List Path) :
    decodePaths (.array ((paths.map Path.text).map .string)) = .ok paths := by
  rw [decodePaths, List.map_map]
  induction paths with
  | nil => rfl
  | cons path paths ih => rw [List.map_cons, List.mapM_cons, ih]; rfl

/-- A setting that is there, or holds the default and is not there, is read as it is. -/
theorem orDefault_of_found {α : Type} {config : Config} {key : Key} {found : Option Value}
    {default value : α} {read : Value → Except String α}
    (hfound : found = (key.setting? config).map Setting.value ∨
      key.HoldsDefault config ∧ found = none)
    (hread : ∀ setting, key.setting? config = some setting → read setting.value = .ok value)
    (hunset : key.setting? config = none → value = default)
    (hdefault : key.HoldsDefault config → value = default) :
    orDefault default read found = .ok value := by
  obtain rfl | ⟨hholds, rfl⟩ := hfound
  · cases hsetting : key.setting? config with
    | none => rw [hunset hsetting]; rfl
    | some setting => exact hread setting hsetting
  · rw [hdefault hholds]
    rfl

/-- A list of paths is read as it is. -/
theorem orDefault_paths {config : Config} {key : Key} {paths : List Path} {found : Option Value}
    (hfound : found = (key.setting? config).map Setting.value ∨
      key.HoldsDefault config ∧ found = none)
    (hset : key.setting? config = some (.texts (paths.map Path.text)))
    (hunset : key.setting? {} = some (.texts [])) :
    orDefault [] decodePaths found = .ok paths := by
  refine orDefault_of_found hfound ?_ ?_ ?_
  · rintro setting hsetting
    obtain rfl := Option.some.inj (hset.symm.trans hsetting)
    exact decodePaths_value paths
  · exact fun h => absurd (hset.symm.trans h) (by simp)
  · intro hdefault
    have htexts := Option.some.inj ((hset.symm.trans hdefault).trans hunset)
    exact List.map_eq_nil_iff.1 (Setting.texts.inj htexts)

/-- **The configuration is decoded** from settings that are there, or hold the default and are not
there. There is one key after the other, each read into its own part. -/
theorem decode_of_found {config : Config} {found : Key → Option Value}
    {members : List (String × Value)}
    (hsettings : ∀ key : Key, Config.setting? members key.header key.name = .ok (found key))
    (hfound : ∀ key : Key, found key = (key.setting? config).map Setting.value ∨
      key.HoldsDefault config ∧ found key = none) : decode members = .ok config := by
  have hlogFormat : orDefault "text" decodeText (found .logFormat) = .ok config.logFormat := by
    refine orDefault_of_found (hfound .logFormat) ?_ (fun h => nomatch h) fun h => ?_
    · rintro setting hsetting
      obtain rfl := Option.some.inj hsetting
      rfl
    · exact Setting.text.inj (Option.some.inj h)
  have hcacheDir : orDefault none (fun v => (decodeText v).map fun s => some ⟨s⟩)
      (found .cacheDir) = .ok config.cacheDir := by
    refine orDefault_of_found (hfound .cacheDir) ?_ Option.map_eq_none_iff.1
      Option.map_eq_none_iff.1
    rintro setting hsetting
    obtain ⟨dir, hdir, rfl⟩ := Option.map_eq_some_iff.1 hsetting
    rw [hdir]
    rfl
  have hfiles : orDefault [] decodePaths (found .settingsFiles) = .ok config.settingsFiles :=
    orDefault_paths (hfound .settingsFiles) rfl rfl
  have hsearch : orDefault [] decodePaths (found .searchPaths) = .ok config.searchPaths :=
    orDefault_paths (hfound .searchPaths) rfl rfl
  -- the decoder has the sections and names of the keys as texts
  have hgeneral : setting? members "general" "log_format" = _ := hsettings .logFormat
  have hcache : setting? members "cache" "dir" = _ := hsettings .cacheDir
  have hsettings' : setting? members "settings" "files" = _ := hsettings .settingsFiles
  have htechnology : setting? members "technology" "search_paths" = _ := hsettings .searchPaths
  rw [decode, hgeneral, hcache, hsettings', htechnology]
  change (orDefault "text" decodeText (found .logFormat) >>= _) = _
  rw [hlogFormat]
  change (orDefault none _ (found .cacheDir) >>= _) = _
  rw [hcacheDir]
  change (orDefault [] _ (found .settingsFiles) >>= _) = _
  rw [hfiles]
  change (orDefault [] _ (found .searchPaths) >>= _) = _
  rw [hsearch]
  rfl

/-- **The text decodes to the configuration,** and so does what remains of it. The condition is on
each key that is left out: it must hold the default. -/
theorem decode_remaining {config : Config} {kept : Key → Kept}
    (h : ∀ key, kept key = .all ∨ key.HoldsDefault config) (spaced : Key → Bool) (path : Path) :
    ConfigFile.decode path (config.remaining kept spaced) = .ok config := by
  have hfound (key : Key) : config.found kept key = (key.setting? config).map Setting.value ∨
      key.HoldsDefault config ∧ config.found kept key = none := by
    rw [found]
    cases hkept : kept key with
    | all => exact .inl rfl
    | header => exact .inr ⟨(h key).resolve_left (by simp [hkept]), rfl⟩
    | nothing => exact .inr ⟨(h key).resolve_left (by simp [hkept]), rfl⟩
  rw [ConfigFile.decode, parse_remaining]
  change (decode _).mapError _ = _
  rw [decode_of_found (setting?_tables config kept) hfound]
  rfl

/-- **The configuration text comes back.** For every configuration:

* `config` and `config show` print it as one text, with a line end behind it;
* a file with this text is loaded as the configuration, whatever else is on the machine and without
  a trace there;
* so is a file with what remains of the text when any sections, or keys in them, are taken out that
  hold their default, with the empty lines or without.

The texts in the configuration may hold any characters, and the lists may have any length. -/
theorem shown_comes_back (config : Config) :
    (∀ (invocation : Invocation) (view : Option ConfigView) (environment : Environment)
      (processId : Nat) (file : ConfigFile) (tool : Tool) (machine : Machine),
      invocation.command = .config view → view ≠ some .path →
      let run := (invocation.execute environment processId file config).run tool machine
      run.1 = .ok () ∧ run.2.output = machine.output ++ [config.render]) ∧
    (∀ (file : ConfigFile) (tool : Tool) (machine : Machine),
      machine.disk.readFile? file.path = some (Utf8.encode (config.render ++ "\n")) →
      file.load.run tool machine = (.ok config, machine)) ∧
    config.remaining (fun _ => .all) (fun _ => true) = config.render ++ "\n" ∧
    ∀ (kept : Key → Kept) (spaced : Key → Bool),
      (∀ key, kept key = .all ∨ key.HoldsDefault config) →
      ∀ (file : ConfigFile) (tool : Tool) (machine : Machine),
        machine.disk.readFile? file.path =
          some (Utf8.encode (config.remaining kept spaced)) →
        file.load.run tool machine = (.ok config, machine) := by
  have hremaining (kept : Key → Kept) (spaced : Key → Bool)
      (hkept : ∀ key, kept key = .all ∨ key.HoldsDefault config) (file : ConfigFile) (tool : Tool)
      (machine : Machine) (hfile : machine.disk.readFile? file.path =
        some (Utf8.encode (config.remaining kept spaced))) :
      file.load.run tool machine = (.ok config, machine) := by
    rw [ConfigFile.run_load hfile, decode_remaining hkept]
  refine ⟨?_, fun file tool machine hfile => ?_, remaining_all config, hremaining⟩
  · intro invocation view environment processId file tool machine hcommand hview
    dsimp only
    rw [Invocation.execute, hcommand, Action.run_bind, Action.run_log]
    match view with
    | none => exact ⟨rfl, rfl⟩
    | some .show => exact ⟨rfl, rfl⟩
    | some .path => exact absurd rfl hview
  · rw [← remaining_all] at hfile
    exact hremaining _ _ (fun _ => .inl rfl) file tool machine hfile

/-- A configuration with characters of every kind that is hard to write, an empty text, and two keys
that hold their default. -/
def hardToWrite : Config :=
  { cacheDir := some ⟨"\"\"\"'''\\\n\r\t\x00\x7f é"⟩
    searchPaths := [⟨"'\n"⟩, ⟨""⟩, ⟨"\"\"'"⟩] }

/-- The configuration comes back from its text, and from the text without the section of the one
key and without the other key. -/
theorem hardToWrite_comes_back :
    let kept : Key → Kept
      | .logFormat => .nothing
      | .settingsFiles => .header
      | _ => .all
    let machine (text : String) : Machine :=
      { disk := ⟨[(["c.toml"], .file (Utf8.encode text) .newFile)], []⟩ }
    let load (text : String) :=
      ((ConfigFile.ofPath ⟨"/c.toml"⟩).load.run (fun _ machine => (.ok (), machine))
        (machine text)).1
    load (hardToWrite.render ++ "\n") = .ok hardToWrite ∧
      load (hardToWrite.remaining kept fun _ => false) = .ok hardToWrite := by
  intro kept machine load
  obtain ⟨-, hshown, -, hremaining⟩ := shown_comes_back hardToWrite
  have hfile (text : String) : (machine text).disk.readFile? ⟨"/c.toml"⟩ =
      some (Utf8.encode text) := rfl
  have hkept (key : Key) : kept key = .all ∨ key.HoldsDefault hardToWrite := by
    cases key with
    | logFormat => exact .inr rfl
    | cacheDir => exact .inl rfl
    | settingsFiles => exact .inr rfl
    | searchPaths => exact .inl rfl
  refine ⟨congrArg Prod.fst (hshown _ _ _ (hfile _)), ?_⟩
  exact congrArg Prod.fst (hremaining kept _ hkept _ _ _ (hfile _))

end Config
end ProcessKit
