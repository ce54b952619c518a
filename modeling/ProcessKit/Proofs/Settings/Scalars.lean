/-
# The scalars of a settings file

A settings file is a tree in one of three notations, and a `Format` is what such a tree stands for.
Turning it into JSON keeps its leaves (`at?_toJson`) and adds one leaf for each date-time, whose
record gets a name of its own (`leads_of_toJson`). So a scalar that JSON can write has its text
under its dotted key, if no other leaf has that key (`pushFile_keeps_scalars`).

What JSON cannot write is lost: a date-time has no text under its key, nor has an infinity or what
is not a number.

A `Format` has the trees of a notation with what is needed of them: which of them are tables, what a
name leads to, which scalars have a text that JSON can write, and the JSON that a tree becomes.
There are three, `json`, `yaml` and `toml`, and the statements about leaves are proved once, for any
format. A key counts for one leaf if it is `Alone`: no other leaf has it, and neither has the record
of a date-time, whose one member has a name that a document could spell out as well.
-/

import ProcessKit.Proofs.Settings.Flattening
import ProcessKit.Proofs.Toml.Value
import ProcessKit.Proofs.Yaml.Document

namespace ProcessKit

open Json (Members)

namespace Settings

/-- **A notation of settings files,** by the trees that its documents are. -/
structure Format (α : Type) where
  /-- Whether a tree is a table. -/
  isTable : α → Bool
  /-- What a name of a table leads to. -/
  get? : α → String → Option α
  /-- The date-time that a tree is, if it is one. -/
  dateTime? : α → Option Toml.DateTime
  /-- The text of a scalar that JSON can write. -/
  text? : α → Option String
  /-- The settings that a tree stands for. -/
  toJson : α → Json
  isTable_iff : ∀ {v}, isTable v = true ↔
    dateTime? v = none ∧ ∃ members, toJson v = .object members
  get?_toJson : ∀ {v}, dateTime? v = none → ∀ name,
    (toJson v).get? name = (get? v name).map toJson
  get?_dateTime : ∀ {v t}, dateTime? v = some t → ∀ name, get? v name = none
  toJson_dateTime : ∀ {v t}, dateTime? v = some t →
    toJson v = .object [(Toml.Value.dateTimeKey, .string t.render)]
  text?_toJson : ∀ {v text}, text? v = some text → (toJson v).text? = some text

namespace Format

/-- JSON: a value is what it is. -/
def json : Format Json where
  isTable v := v matches .object _
  get? := Json.get?
  dateTime? _ := none
  text? := Json.text?
  toJson v := v
  isTable_iff {v} := by cases v <;> simp
  get?_toJson _ name := by simp
  get?_dateTime h := absurd h (by simp)
  toJson_dateTime h := absurd h (by simp)
  text?_toJson h := h

/-- YAML. -/
def yaml : Format Yaml.Value where
  isTable v := v matches .mapping _
  get? := Yaml.Value.get?
  dateTime? _ := none
  text? v := match v with
    | .string s => some s
    | .boolean b => some (if b then "true" else "false")
    | .integer i => some (JsonNumber.integer i).render
    | .float (some d) => some (JsonNumber.double d).render
    | _ => none
  toJson := Yaml.Value.toJson
  isTable_iff {v} := by
    cases v with
    | float d => cases d <;> simp [Yaml.Value.toJson]
    | _ => simp [Yaml.Value.toJson, Json.ofMembers]
  get?_toJson {v} _ name := v.get?_toJson name
  get?_dateTime h := absurd h (by simp)
  toJson_dateTime h := absurd h (by simp)
  text?_toJson {v text} h := by
    cases v with
    | float d => cases d <;> simp_all [Yaml.Value.toJson, Json.text?]
    | _ => simp_all [Yaml.Value.toJson, Json.text?]

/-- TOML. -/
def toml : Format Toml.Value where
  isTable v := v matches .table _
  get? := Toml.Value.get?
  dateTime? := Toml.Value.dateTime?
  text? v := match v with
    | .string s => some s
    | .boolean b => some (if b then "true" else "false")
    | .integer i => some (JsonNumber.integer i).render
    | .float (some d) => some (JsonNumber.double d).render
    | _ => none
  toJson := Toml.Value.toJson
  isTable_iff {v} := by
    cases v with
    | float d => cases d <;> simp [Toml.Value.toJson]
    | _ => simp [Toml.Value.toJson, Toml.Value.dateTime?, Json.ofMembers]
  get?_toJson h name := Toml.Value.get?_toJson h name
  get?_dateTime {v t} h name := by
    cases v with
    | table members => exact absurd h (by simp [Toml.Value.dateTime?])
    | _ => rfl
  toJson_dateTime {v t} h := by
    cases v with
    | dateTime t' =>
        obtain rfl := Option.some.inj h
        rfl
    | _ => exact absurd h (by simp [Toml.Value.dateTime?])
  text?_toJson {v text} h := by
    cases v with
    | float d => cases d <;> simp_all [Toml.Value.toJson, Json.text?]
    | _ => simp_all [Toml.Value.toJson, Json.text?]

variable {α : Type} (format : Format α)

/-- What names lead to. -/
def at? : α → List String → Option α
  | v, [] => some v
  | v, name :: path => (format.get? v name).bind fun inner => at? inner path

/-- **A leaf of a tree:** something other than a table, that one name or more lead to. -/
structure IsLeaf (tree : α) (path : List String) (leaf : α) : Prop where
  named : path ≠ []
  leads : format.at? tree path = some leaf
  plain : format.isTable leaf = false

/-- **No other leaf has the dotted key** of these names. A date-time takes the key below its own
that its record has. -/
structure Alone (tree : α) (path : List String) : Prop where
  leaf : ∀ other leaf, format.IsLeaf tree other leaf →
    ".".intercalate other = ".".intercalate path → other = path
  record : ∀ other leaf, format.IsLeaf tree other leaf → (format.dateTime? leaf).isSome →
    ".".intercalate (other ++ [Toml.Value.dateTimeKey]) ≠ ".".intercalate path

/-- **The scalars of a tree are kept:** those that JSON can write have their texts under their
dotted keys, if no other leaf has the key. -/
def Keeps (tree : α) (settings : Settings) : Prop :=
  ∀ path leaf text, format.IsLeaf tree path leaf → format.text? leaf = some text →
    format.Alone tree path → settings.text? (".".intercalate path) = .ok (some text)

variable {format} {tree leaf : α} {path : List String}

/-- What has a member is no date-time. -/
theorem dateTime?_of_get? {v inner : α} {name : String} (h : format.get? v name = some inner) :
    format.dateTime? v = none := by
  cases ht : format.dateTime? v with
  | none => rfl
  | some t =>
      rw [format.get?_dateTime ht] at h
      cases h

/-- Below what has no members there is only itself: a path that leads somewhere is empty. -/
theorem eq_nil_of_at? (hget : ∀ name, format.get? tree name = none)
    (h : format.at? tree path = some leaf) : path = [] := by
  cases path with
  | nil => rfl
  | cons name path =>
      rw [Format.at?, hget] at h
      cases h

/-- **Names lead to the same** in a tree and in what it stands for. By induction on the names; a
date-time on the way is excluded, since no name leads on from there. -/
theorem at?_toJson (h : format.at? tree path = some leaf) :
    (format.toJson tree).at? path = some (format.toJson leaf) := by
  induction path generalizing tree with
  | nil => exact congrArg (fun v => some (format.toJson v)) (Option.some.inj h)
  | cons name path ih =>
      obtain ⟨inner, hinner, hrest⟩ := Option.bind_eq_some_iff.1 h
      rw [Json.at?, format.get?_toJson (dateTime?_of_get? hinner), hinner]
      exact ih hrest

/-- A leaf that is no date-time is a leaf of what the tree stands for. -/
theorem IsLeaf.toJson (h : format.IsLeaf tree path leaf) (hdate : format.dateTime? leaf = none) :
    (format.toJson tree).IsLeaf path (format.toJson leaf) := by
  refine ⟨h.named, at?_toJson h.leads, fun members hobject => ?_⟩
  exact Bool.eq_false_iff.1 h.plain (format.isTable_iff.2 ⟨hdate, members, hobject⟩)

/-- What has a text is no date-time: this is why a date-time is read as absent. -/
theorem dateTime?_of_text? {v : α} {text : String} (h : format.text? v = some text) :
    format.dateTime? v = none := by
  cases ht : format.dateTime? v with
  | none => rfl
  | some t =>
      have hjson := format.text?_toJson h
      rw [format.toJson_dateTime ht] at hjson
      cases hjson

/-- **What is no table** is a leaf of the tree, or the text in the record of a date-time. These are
all the leaves that the JSON has. -/
theorem leads_of_toJson {w : Json} (h : (format.toJson tree).at? path = some w)
    (hplain : ∀ members, w ≠ .object members) :
    (∃ leaf, format.at? tree path = some leaf ∧ format.isTable leaf = false) ∨
      ∃ before leaf, path = before ++ [Toml.Value.dateTimeKey] ∧
        format.at? tree before = some leaf ∧ (format.dateTime? leaf).isSome := by
  induction path generalizing tree with
  | nil =>
      refine Or.inl ⟨tree, rfl, Bool.eq_false_iff.2 fun htable => ?_⟩
      obtain ⟨-, members, hmembers⟩ := format.isTable_iff.1 htable
      exact hplain members ((Option.some.inj h).symm.trans hmembers)
  | cons name path ih =>
      cases ht : format.dateTime? tree with
      | some t =>
          rw [format.toJson_dateTime ht] at h
          obtain ⟨inner, hinner, hrest⟩ := Option.bind_eq_some_iff.1 h
          rw [Json.get?, Members.get?_cons, Members.get?_nil] at hinner
          split_ifs at hinner with hname
          obtain rfl := Option.some.inj hinner
          cases path with
          | nil => exact Or.inr ⟨[], tree, by rw [hname, List.nil_append], rfl, by rw [ht]; rfl⟩
          | cons name' path => cases hrest
      | none =>
          rw [Json.at?, format.get?_toJson ht] at h
          obtain ⟨_, hinner, hrest⟩ := Option.bind_eq_some_iff.1 h
          obtain ⟨inner, hget, rfl⟩ := Option.map_eq_some_iff.1 hinner
          have hcons (p : List String) : format.at? tree (name :: p) = format.at? inner p := by
            rw [Format.at?, hget]
            rfl
          obtain ⟨leaf, hleaf⟩ | ⟨before, leaf, rfl, hleaf⟩ := ih hrest
          · exact Or.inl ⟨leaf, (hcons path).symm ▸ hleaf⟩
          · exact Or.inr ⟨name :: before, leaf, rfl, (hcons before).symm ▸ hleaf⟩

/-- **A document in any of the notations** keeps its scalars: the leaf is alone with its key, so it
is the greatest leaf that has it. -/
theorem keeps_push {members : Members} (hobject : format.toJson tree = .object members)
    (hordered : (format.toJson tree).Ordered) (htable : format.isTable tree = true)
    (settings : Settings) : format.Keeps tree (settings.push (flatten members)) := by
  intro path leaf text hleaf htext halone
  have hfound := hleaf.toJson (dateTime?_of_text? htext)
  rw [hobject] at hordered hfound
  refine (text?_eq_text_iff ..).2 ⟨format.toJson leaf, ?_, format.text?_toJson htext⟩
  have hget : (flatten members).get? (".".intercalate path) = some (format.toJson leaf) := by
    refine get?_flatten_of_unique hordered hfound fun other w hother hkey => ?_
    have hleads := hother.leads
    rw [← hobject] at hleads
    obtain ⟨leaf', hleads', hplain'⟩ | ⟨before, leaf', rfl, hleads', hdate⟩ :=
      leads_of_toJson hleads hother.plain
    · exact halone.leaf other leaf' ⟨hother.named, hleads', hplain'⟩ hkey
    · have hnotTable : format.isTable leaf' = false := by
        refine Bool.eq_false_iff.2 fun h => ?_
        rw [(format.isTable_iff.1 h).1] at hdate
        cases hdate
      -- The tree itself is a table, so that a date-time has a name.
      have hnamed : before ≠ [] := by
        rintro rfl
        obtain rfl := Option.some.inj hleads'
        exact absurd htable (by simp [hnotTable])
      exact absurd hkey (halone.record before leaf' ⟨hnamed, hleads', hnotTable⟩ hdate)
  simp [lookup, push, hget]

end Format

variable {tool : Tool} {machine : Machine}

/-- **Pushing a file succeeds** when its text is a table in the notation of the file. -/
theorem run_pushFile_eq_ok_iff {settings settings' : Settings} {path : Path} :
    ((settings.pushFile path).run tool machine).1 = .ok settings' ↔
      ∃ text members, textOn machine.disk path = some text ∧
        readDocument path text = .ok (.object members) ∧
        settings' = settings.push (flatten members) := by
  rw [run_pushFile, fileLayer]
  cases textOn machine.disk path with
  | none => simp
  | some text =>
      dsimp only
      cases hread : readDocument path text with
      | error error => simp [Except.bind, hread]
      | ok v => cases v <;> simp [Except.bind, documentLayer, hread, eq_comm]

/-- **The scalars of a settings file are kept.** Pushing a file succeeds only if its text is a table
in the notation that the name of the file tells. Afterwards, whatever layers were there before,
every string, boolean, integer and finite float below the tables of the file has its text under the
dotted key of its names, if no other leaf of the file has this key. -/
theorem pushFile_keeps_scalars {settings settings' : Settings} {path : Path}
    (h : ((settings.pushFile path).run tool machine).1 = .ok settings') :
    ∃ text, textOn machine.disk path = some text ∧
      match path.suffix? with
      | some "yml" | some "yaml" =>
        ∃ tree, Yaml.read text = .ok tree ∧ Format.yaml.Keeps tree settings'
      | some "toml" =>
        ∃ members, Toml.parse text = .ok members ∧ Format.toml.Keeps (.table members) settings'
      | _ => ∃ tree, Json.parse text = .ok tree ∧ Format.json.Keeps tree settings' := by
  obtain ⟨text, members, htext, hread, rfl⟩ := run_pushFile_eq_ok_iff.1 h
  refine ⟨text, htext, ?_⟩
  have hyaml (hread : Yaml.parse text = .ok (.object members)) :
      ∃ tree, Yaml.read text = .ok tree ∧
        Format.yaml.Keeps tree (settings.push (flatten members)) := by
    obtain ⟨tree, htree, hobject⟩ := map_eq_ok_iff.1 hread
    exact ⟨tree, htree, Format.keeps_push hobject tree.ordered_toJson
      (Format.yaml.isTable_iff.2 ⟨rfl, members, hobject⟩) settings⟩
  have hvalue := mapError_eq_ok_iff.1 hread
  split
  next hsuffix =>
    rw [hsuffix] at hvalue
    exact hyaml hvalue
  next hsuffix =>
    rw [hsuffix] at hvalue
    exact hyaml hvalue
  next hsuffix =>
    rw [hsuffix] at hvalue
    obtain ⟨table, htable, hobject⟩ := map_eq_ok_iff.1 hvalue
    exact ⟨table, htable, Format.keeps_push hobject (Toml.Value.ordered_toJson _) rfl settings⟩
  next hyml hyaml htoml =>
    split at hvalue
    · contradiction
    · contradiction
    · contradiction
    · exact ⟨_, hvalue, Format.keeps_push rfl (Json.ordered_parse hvalue) rfl settings⟩

/-- A YAML text with a table. -/
def yamlText : String := "tech:\n  node: 7\n  fast: true\n"

/-- What it says. -/
def yamlTree : Yaml.Value :=
  .mapping [("tech", .mapping [("node", .integer 7), ("fast", .boolean true)])]

/-- A result that looks like this tree, with its names and scalars, is this tree. Trees have no test
for being equal, so this is how a text is found to say it. -/
theorem eq_ok_yamlTree {result : Except String Yaml.Value}
    (h : (match result with
      | .ok (.mapping [(tech, .mapping [(node, .integer n), (fast, .boolean b)])]) =>
        decide (tech = "tech" ∧ node = "node" ∧ n = 7 ∧ fast = "fast" ∧ b = true)
      | _ => false) = true) : result = .ok yamlTree := by
  split at h
  · obtain ⟨rfl, rfl, rfl, rfl, rfl⟩ := of_decide_eq_true h
    rfl
  · contradiction

/-- A machine with a YAML file. -/
def withYaml : Machine :=
  { disk := ⟨[(["s.yml"], .file (Utf8.encode yamlText) .newFile)], []⟩ }

/-- A number in a table of a YAML file has its text. -/
theorem withYaml_kept :
    ∃ settings, ((({} : Settings).pushFile ⟨"/s.yml"⟩).run (fun _ machine => (.ok (), machine))
      withYaml).1 = .ok settings ∧ settings.text? "tech.node" = .ok (some "7") := by
  have htext : textOn withYaml.disk ⟨"/s.yml"⟩ = some yamlText := by decide +kernel
  have hsuffix : (Path.mk "/s.yml").suffix? = some "yml" := by decide +kernel
  let members : Members :=
    [("tech", .object [("fast", .bool true), ("node", .number (.integer 7))])]
  have htree : Yaml.read yamlText = .ok yamlTree := eq_ok_yamlTree (by decide +kernel)
  have hobject : yamlTree.toJson = .object members := rfl
  have hread : readDocument ⟨"/s.yml"⟩ yamlText = .ok (.object members) := by
    rw [readDocument, hsuffix, Yaml.parse, htree, ← hobject]
    rfl
  have hrun : ((({} : Settings).pushFile ⟨"/s.yml"⟩).run (fun _ machine => (.ok (), machine))
      withYaml).1 = .ok (({} : Settings).push (flatten members)) :=
    run_pushFile_eq_ok_iff.2 ⟨yamlText, members, htext, hread, rfl⟩
  refine ⟨_, hrun, ?_⟩
  obtain ⟨text, htext', hkept⟩ := pushFile_keeps_scalars hrun
  obtain rfl := Option.some.inj (htext.symm.trans htext')
  rw [hsuffix] at hkept
  obtain ⟨tree', htree', hkept⟩ := hkept
  obtain rfl := Except.ok.inj (htree.symm.trans htree')
  have hordered : (Json.object members).Ordered := hobject ▸ yamlTree.ordered_toJson
  refine hkept ["tech", "node"] (.integer 7) "7" ⟨by simp, rfl, rfl⟩ rfl ⟨?_, ?_⟩
  · intro other leaf hleaf hkey
    have hmem : (other, leaf.toJson) ∈ memberPaths members :=
      (isLeaf_iff hordered).1 (hobject ▸ hleaf.toJson rfl)
    simp only [members, memberPaths, leafPaths, List.map_cons, List.map_nil, List.append_nil,
      List.cons_append, List.nil_append, List.mem_cons, Prod.mk.injEq, List.not_mem_nil,
      or_false] at hmem
    obtain ⟨rfl, -⟩ | ⟨rfl, -⟩ := hmem
    · exact absurd hkey (by decide)
    · rfl
  · intro other leaf hleaf hdate
    cases hdate

/-- A TOML text with a date-time and an infinity. -/
def tomlText : String := "built = 1979-05-27\nlimit = inf\n"

/-- What it says. -/
def tomlTable : Toml.Value :=
  .table [("built", .dateTime { date := some ⟨1979, 5, 27⟩ }), ("limit", .float none)]

/-- A result that looks like the members of that table is these members. -/
theorem eq_ok_tomlMembers {result : Except String (List (String × Toml.Value))}
    (h : (match result with
      | .ok [(built, .dateTime t), (limit, .float none)] =>
        decide (built = "built" ∧ t = { date := some ⟨1979, 5, 27⟩ } ∧ limit = "limit")
      | _ => false) = true) :
    result =
      .ok [("built", .dateTime { date := some ⟨1979, 5, 27⟩ }), ("limit", .float none)] := by
  split at h
  · obtain ⟨rfl, rfl, rfl⟩ := of_decide_eq_true h
    rfl
  · contradiction

/-- A machine with a TOML file. -/
def withToml : Machine :=
  { disk := ⟨[(["s.toml"], .file (Utf8.encode tomlText) .newFile)], []⟩ }

/-- **A date-time and an infinity are lost:** they are the leaves of a TOML file that is pushed, and
have no text under their keys. -/
theorem withToml_lost :
    textOn withToml.disk ⟨"/s.toml"⟩ = some tomlText ∧
    (Path.mk "/s.toml").suffix? = some "toml" ∧
    (Toml.parse tomlText).map Toml.Value.table = .ok tomlTable ∧
    Format.toml.IsLeaf tomlTable ["built"] (.dateTime { date := some ⟨1979, 5, 27⟩ }) ∧
    Format.toml.IsLeaf tomlTable ["limit"] (.float none) ∧
    (∀ path leaf, Format.toml.IsLeaf tomlTable path leaf →
      path = ["built"] ∨ path = ["limit"]) ∧
    ∃ settings, ((({} : Settings).pushFile ⟨"/s.toml"⟩).run
        (fun _ machine => (.ok (), machine)) withToml).1 = .ok settings ∧
      settings.text? "built" = .ok none ∧ settings.text? "limit" = .ok none := by
  have htext : textOn withToml.disk ⟨"/s.toml"⟩ = some tomlText := by decide +kernel
  have hsuffix : (Path.mk "/s.toml").suffix? = some "toml" := by decide +kernel
  have hparse : Toml.parse tomlText =
      .ok [("built", .dateTime { date := some ⟨1979, 5, 27⟩ }), ("limit", .float none)] :=
    eq_ok_tomlMembers (by decide +kernel)
  let members : Members := [("built", .object
    [(Toml.Value.dateTimeKey, .string "1979-05-27")]), ("limit", .null)]
  have hobject : tomlTable.toJson = .object members := rfl
  have hread : readDocument ⟨"/s.toml"⟩ tomlText = .ok (.object members) := by
    rw [readDocument, hsuffix, hparse, ← hobject]
    rfl
  have hrun : ((({} : Settings).pushFile ⟨"/s.toml"⟩).run (fun _ machine => (.ok (), machine))
      withToml).1 = .ok (({} : Settings).push (flatten members)) :=
    run_pushFile_eq_ok_iff.2 ⟨tomlText, members, htext, hread, rfl⟩
  refine ⟨htext, hsuffix, by rw [hparse]; rfl, ⟨by simp, rfl, rfl⟩, ⟨by simp, rfl, rfl⟩, ?_,
    _, hrun, (text?_eq_none_iff ..).2 (Or.inl ?_), (text?_eq_none_iff ..).2 (Or.inr ?_)⟩
  · rintro path leaf ⟨hnamed, hleads, -⟩
    cases path with
    | nil => exact absurd rfl hnamed
    | cons name rest =>
        obtain ⟨inner, hinner, hrest⟩ := Option.bind_eq_some_iff.1 hleads
        obtain ⟨⟨key, v⟩, hfind, rfl⟩ := Option.map_eq_some_iff.1 hinner
        obtain rfl : key = name := by simpa using List.find?_some hfind
        obtain hlimit | hbuilt := List.mem_pair.1 (List.mem_of_find?_eq_some hfind)
        · obtain ⟨rfl, rfl⟩ := Prod.mk.inj hlimit
          exact Or.inr (Format.eq_nil_of_at? (fun _ => rfl) hrest ▸ rfl)
        · obtain ⟨rfl, rfl⟩ := Prod.mk.inj hbuilt
          exact Or.inl (Format.eq_nil_of_at? (fun _ => rfl) hrest ▸ rfl)
  · simp [lookup, push, get?_flatten_paths, members, memberPaths, leafPaths,
      Toml.Value.dateTimeKey]
  · simp [lookup, push, get?_flatten_paths, members, memberPaths, leafPaths]

end Settings
end ProcessKit
