/-
# Layers of settings

A key has the value that the newest layer with this key gives it. What a layer gives is told by
`get?_ofList` for a list of pairs, and by `get?_flatten` for a document, whose values stand under
dotted keys; `fileLayer` is the layer of a file, or the reason why it has none.

A `Push` is a call that puts at most one layer on top. `carryOut` says what becomes of the settings
when it is carried out on a machine: a call that fails leaves them as they were. After any calls,
the layers are those of the calls that succeeded, in order (`layers_pushAll`).

A layer that has a key with null hides the key below it, as does one that has it with an array or an
object. They differ in what asking for a text comes to: nothing for null, and an error that names
the key for the others (`text?_eq_none_iff`, `text?_eq_error_iff`). Between the two stands
`text?_eq_text_iff`, so that every outcome has its condition on the newest layer with the key.
-/

import ProcessKit.Proofs.Host.Run
import ProcessKit.Proofs.Json.Members
import ProcessKit.Technology.Loading

namespace ProcessKit

open Json (Members)

/-- The text of a scalar: a string is its own text, and the others are written as in JSON. -/
def Json.text? : Json → Option String
  | .string s => some s
  | .bool b => some (if b then "true" else "false")
  | .number n => some n.render
  | _ => none

namespace Settings

mutual

/-- The values below a key, each under its own dotted key, in order. -/
def leaves (key : String) : Json → List (String × Json)
  | .object members => memberLeaves (some key) members
  | v => [(key, v)]

/-- The values of a table's members under their dotted keys, in order. -/
def memberLeaves (table : Option String) : List (String × Json) → List (String × Json)
  | [] => []
  | (name, v) :: rest => leaves (keyIn table name) v ++ memberLeaves table rest

end

mutual

/-- A value is flattened by inserting its leaves into the layer, one after the other. -/
theorem flattenValue_eq (key : String) (layer : Members) (v : Json) :
    flattenValue key layer v =
      (leaves key v).foldl (fun layer (k, v) => layer.insert k v) layer := by
  cases v with
  | object members =>
      rw [flattenValue, leaves]
      exact flattenMembers_eq (some key) layer members
  | _ => rfl

/-- Members are flattened by inserting their leaves into the layer, one after the other. -/
theorem flattenMembers_eq (table : Option String) (layer : Members)
    (members : List (String × Json)) :
    flattenMembers table layer members =
      (memberLeaves table members).foldl (fun layer (k, v) => layer.insert k v) layer := by
  cases members with
  | nil => rfl
  | cons member rest =>
      obtain ⟨name, v⟩ := member
      rw [flattenMembers, memberLeaves, List.foldl_append, flattenMembers_eq table _ rest,
        flattenValue_eq]

end

/-- A document is the layer of its leaves. -/
theorem flatten_eq (members : Members) :
    flatten members = Members.ofList (memberLeaves none members) :=
  flattenMembers_eq none [] members

/-- **A dotted key has the value of its last leaf** in a document, in the order in which flattening
comes upon the leaves. -/
theorem get?_flatten (members : Members) (key : String) :
    (flatten members).get? key =
      ((memberLeaves none members).reverse.find? (·.1 == key)).map (·.2) := by
  rw [flatten_eq, Members.get?_ofList]

/-- The layer of a document. -/
def documentLayer : Json → Except Error Members
  | .object members => .ok (flatten members)
  | _ => .error (.user "Settings document must be a table at the top level")

/-- Pushing a document pushes the layer that it makes, or fails without one. -/
theorem pushDocument_eq (settings : Settings) (v : Json) :
    settings.pushDocument v = (documentLayer v).map settings.push := by
  cases v <;> rfl

/-- The text of a file on a disk, if it can be read and is UTF-8. -/
def textOn (disk : Disk) (path : Path) : Option String :=
  (disk.readFile? path).bind Utf8.decode?

/-- The layer of a file on a disk. -/
def fileLayer (disk : Disk) (path : Path) : Except Error Members :=
  match textOn disk path with
  | some text => (readDocument path text).bind documentLayer
  | none => .error (.io ("reading settings from " ++ path.text))

variable {tool : Tool} {machine : Machine} (settings : Settings)

/-- **Pushing a file** pushes its layer, and does nothing when it has none. The machine stays as it
is, but for a line in its log. -/
theorem run_pushFile (path : Path) :
    (settings.pushFile path).run tool machine =
      match fileLayer machine.disk path with
      | .ok layer => (.ok (settings.push layer), { machine with
          log := machine.log ++ [(.debug, "Loaded settings layer from " ++ path.text)] })
      | .error error => (.error error, machine) := by
  rw [pushFile, Action.run_bind, Action.run_readText, ← textOn, fileLayer]
  cases textOn machine.disk path with
  | none => rfl
  | some text =>
      dsimp only
      rw [Action.run_bind, Action.run_ofExcept]
      cases readDocument path text with
      | error error => rfl
      | ok v =>
          have hpush : (Except.ok v).bind settings.pushDocument =
              (documentLayer v).map settings.push := pushDocument_eq settings v
          rw [hpush, show (Except.ok v).bind documentLayer = documentLayer v from rfl]
          cases documentLayer v <;> rfl

/-- **Pushing files** pushes their layers, the last one the newest, if all of them have one. The
first one without a layer decides otherwise. -/
theorem run_pushFiles (paths : List Path) :
    ((settings.pushFiles paths).run tool machine).1 =
      (paths.mapM (fileLayer machine.disk)).map fun layers =>
        ⟨layers.reverse ++ settings.layers⟩ := by
  unfold pushFiles
  induction paths generalizing settings machine with
  | nil => rfl
  | cons path paths ih =>
      rw [List.foldlM_cons, Action.run_bind, run_pushFile, List.mapM_cons]
      cases fileLayer machine.disk path with
      | error error => rfl
      | ok layer =>
          dsimp only
          rw [ih]
          cases List.mapM (fileLayer machine.disk) paths with
          | error error => rfl
          | ok layers =>
              have happend : layers.reverse ++ layer :: settings.layers =
                  (layer :: layers).reverse ++ settings.layers := by simp
              exact congrArg (fun all => Except.ok (Settings.mk all)) happend

end Settings

/-- The file of a technology's default settings on a disk: `defaults.json`, or `defaults.yml` where
there is no such file. -/
def Technology.defaultsOn (technology : Technology) (disk : Disk) : Option Path :=
  let json := technology.path.join ⟨"defaults.json"⟩
  let yaml := technology.path.join ⟨"defaults.yml"⟩
  if disk.kind? json = some .file then some json
  else if disk.kind? yaml = some .file then some yaml
  else none

namespace Technology

variable {tool : Tool} {machine : Machine}

/-- The first of some files is the first one that is there. -/
theorem run_firstFile? (paths : List Path) :
    (firstFile? paths).run tool machine =
      (.ok (paths.find? fun path => machine.disk.kind? path == some .file), machine) := by
  induction paths with
  | nil => rfl
  | cons path paths ih =>
      rw [firstFile?, Action.run_bind, Action.run_isFile, List.find?_cons]
      cases machine.disk.kind? path == some .file with
      | true => rfl
      | false => exact ih

/-- The file with the defaults of a technology is the first one that is there beside its document.
-/
theorem run_defaultsPath? (technology : Technology) :
    technology.defaultsPath?.run tool machine =
      (.ok (technology.defaultsOn machine.disk), machine) := by
  have hfind : (defaultsNames.map fun name => technology.path.join ⟨name⟩).find?
      (fun path => machine.disk.kind? path == some .file) =
      technology.defaultsOn machine.disk := by
    simp only [defaultsNames, List.map_cons, List.map_nil, List.find?_cons, List.find?_nil,
      defaultsOn]
    split <;> split <;> simp_all
  rw [defaultsPath?, run_firstFile?, hfind]

/-- **Pushing the defaults** pushes the layer of their file, if there is such a file. A technology
without defaults is not an error. -/
theorem run_pushDefaults (technology : Technology) (settings : Settings) :
    (technology.pushDefaults settings).run tool machine =
      match technology.defaultsOn machine.disk with
      | some path => (settings.pushFile path).run tool machine
      | none => (.ok settings, machine) := by
  rw [pushDefaults, Action.run_bind, run_defaultsPath?]
  cases technology.defaultsOn machine.disk <;> rfl

end Technology

namespace Settings

/-- A call that puts a layer on top of the settings. -/
inductive Push where
  | pairs (ps : List (String × Json))
  | document (v : Json)
  | file (path : Path)
  | defaults (technology : Technology)

namespace Push

/-- What a call does. -/
def action (settings : Settings) : Push → Action Settings
  | .pairs ps => return settings.pushPairs ps
  | .document v => Action.ofExcept (settings.pushDocument v)
  | .file path => settings.pushFile path
  | .defaults technology => technology.pushDefaults settings

/-- The layer that a call puts on top on a disk, or the reason why it fails. The defaults of a
technology without a file of them are no layer and no failure. -/
def layer? (disk : Disk) : Push → Except Error (Option Members)
  | .pairs ps => .ok (some (Members.ofList ps))
  | .document v => (documentLayer v).map some
  | .file path => (fileLayer disk path).map some
  | .defaults technology =>
    match technology.defaultsOn disk with
    | some path => (fileLayer disk path).map some
    | none => .ok none

/-- **A call** puts its layer on top of those that are there, whatever these are, or fails. What the
layer is does not depend on the layers below. -/
theorem run_action (push : Push) (settings : Settings) (tool : Tool) (machine : Machine) :
    ((push.action settings).run tool machine).1 =
      (push.layer? machine.disk).map fun layer => ⟨layer.toList ++ settings.layers⟩ := by
  have hfile (path : Path) : ((settings.pushFile path).run tool machine).1 =
      ((fileLayer machine.disk path).map some).map fun layer =>
        ⟨layer.toList ++ settings.layers⟩ := by
    rw [run_pushFile]
    cases fileLayer machine.disk path <;> rfl
  cases push with
  | pairs ps => rfl
  | document v =>
      rw [action, Action.run_ofExcept, pushDocument_eq, layer?]
      cases documentLayer v <;> rfl
  | file path => exact hfile path
  | defaults technology =>
      rw [action, Technology.run_pushDefaults, layer?]
      cases technology.defaultsOn machine.disk with
      | none => rfl
      | some path => exact hfile path

end Push

/-- The settings after a call on a machine: a call that fails leaves them as they were. -/
def carryOut (tool : Tool) (settings : Settings) (call : Push × Machine) : Settings :=
  match ((call.1.action settings).run tool call.2).1 with
  | .ok settings => settings
  | .error _ => settings

/-- The settings after calls, each on the machine as it is then. -/
def pushAll (tool : Tool) (settings : Settings) (calls : List (Push × Machine)) : Settings :=
  calls.foldl (carryOut tool) settings

/-- **A call that fails** changes nothing: the settings after it are those before it. -/
theorem pushAll_concat_of_error {tool : Tool} {settings : Settings} {calls : List (Push × Machine)}
    {push : Push} {machine : Machine} {error : Error}
    (h : ((push.action (pushAll tool settings calls)).run tool machine).1 = .error error) :
    pushAll tool settings (calls ++ [(push, machine)]) = pushAll tool settings calls := by
  have hlast : pushAll tool settings (calls ++ [(push, machine)]) =
      carryOut tool (pushAll tool settings calls) (push, machine) := List.foldl_append ..
  rw [hlast, carryOut, h]

/-- The layer that a call puts on top, if it succeeds and puts one there. -/
def pushed? (call : Push × Machine) : Option Members :=
  match call.1.layer? call.2.disk with
  | .ok layer => layer
  | .error _ => none

/-- A call puts its layer in front of the others, if it succeeds, and leaves them as they are. -/
theorem layers_carryOut (tool : Tool) (settings : Settings) (call : Push × Machine) :
    (carryOut tool settings call).layers = (pushed? call).toList ++ settings.layers := by
  rw [carryOut, Push.run_action, pushed?]
  cases call.1.layer? call.2.disk <;> rfl

/-- **After any calls** the layers are those of the calls that succeeded, the last one the newest.
By induction on the calls, from the last one on. -/
theorem layers_pushAll (tool : Tool) (settings : Settings) (calls : List (Push × Machine)) :
    (pushAll tool settings calls).layers =
      (calls.filterMap pushed?).reverse ++ settings.layers := by
  unfold pushAll
  induction calls generalizing settings with
  | nil => rfl
  | cons call calls ih =>
      rw [List.foldl_cons, ih, layers_carryOut, List.filterMap_cons]
      cases pushed? call with
      | none => rfl
      | some layer => simp

/-- The value of a key after any calls: the newest layer with the key decides. -/
theorem lookup_pushAll (tool : Tool) (calls : List (Push × Machine)) (key : String) :
    (pushAll tool {} calls).lookup key =
      (calls.filterMap pushed?).reverse.findSome? (Members.get? · key) := by
  rw [lookup, layers_pushAll, List.append_nil]

/-- The depth of a store is the number of calls that have succeeded. -/
theorem depth_pushAll (tool : Tool) (calls : List (Push × Machine)) :
    (pushAll tool {} calls).depth = (calls.filterMap pushed?).length := by
  rw [depth, layers_pushAll, List.append_nil, List.length_reverse]

section

variable (settings : Settings) (key : String)

/-- **A key has no text** exactly when it has no value or is null. Null in a newer layer hides an
older value. -/
theorem text?_eq_none_iff :
    settings.text? key = .ok none ↔
      settings.lookup key = none ∨ settings.lookup key = some .null := by
  unfold text?
  cases settings.lookup key with
  | none => simp
  | some v => cases v <;> simp

/-- A refusal names the key. -/
theorem eq_settingInvalid_of_text? {error : Error} (h : settings.text? key = .error error) :
    ∃ reason, error = .settingInvalid key reason := by
  unfold text? at h
  split at h
  · cases h
  · cases h
  · cases h
  · cases h
  · cases h
  · exact ⟨_, (Except.error.inj h).symm⟩
  · exact ⟨_, (Except.error.inj h).symm⟩

/-- **A key has a text** exactly when its value is a scalar, which tells the text: strings as they
are, numbers and truth values as they are written. -/
theorem text?_eq_text_iff {text : String} :
    settings.text? key = .ok (some text) ↔
      ∃ v, settings.lookup key = some v ∧ v.text? = some text := by
  unfold text?
  cases settings.lookup key with
  | none => simp
  | some v =>
      cases v with
      | bool b => cases b <;> simp [Json.text?, Json.compact, Json.compactChars]
      | _ => simp [Json.text?]

/-- **A key is refused** exactly when its value is an array or a table. The error names the key. -/
theorem text?_eq_error_iff :
    settings.text? key =
        .error (.settingInvalid key "expected a string, found a list or table") ↔
      (∃ items, settings.lookup key = some (.array items)) ∨
        ∃ members, settings.lookup key = some (.object members) := by
  unfold text?
  cases settings.lookup key with
  | none => simp
  | some v => cases v <;> simp

end

end Settings
end ProcessKit
