/-
# Where a technology is found

A directory has a document for a name when its JSON file or its YAML file is there (`HasDocument`),
and then loading it comes to what the disk holds in that file (`loadedOn`), right or wrong. A search
goes through its directories for the first one that has a document, and the others play no part
(`result_find`). So naming a technology and giving the directory that the search ends in come to the
same (`first_document_decides`).

The JSON file wins over the YAML file of the same directory (`fileOn`). Whether a document is good
is not asked when it is looked for: a broken one in an early directory ends the search with its
error, although a later directory may have a good one (`broken_document_decides`).

A search that finds nothing says where it has looked, with the path of each directory, in order. The
search only looks, so that all of this is a function of the disk, and is stated as one.
-/

import ProcessKit.Proofs.Command.Context
import ProcessKit.Proofs.Path

namespace ProcessKit

namespace Technology

open ProcessKit.Action (asks_ofExcept asks_pure asks_isFile asks_log)

variable {tool : Tool} {machine : Machine}

/-- The JSON document of a name in a directory. -/
def jsonFile (name : String) (dir : Path) : Path := dir.join ⟨name ++ ".tech.json"⟩

/-- The YAML document of a name in a directory. -/
def yamlFile (name : String) (dir : Path) : Path := dir.join ⟨name ++ ".tech.yml"⟩

/-- **A directory has a document** for a name: one of the two files is there. -/
def HasDocument (disk : Disk) (name : String) (dir : Path) : Prop :=
  disk.kind? (jsonFile name dir) = some .file ∨ disk.kind? (yamlFile name dir) = some .file

instance (disk : Disk) (name : String) (dir : Path) : Decidable (HasDocument disk name dir) :=
  inferInstanceAs (Decidable (_ ∨ _))

/-- What a file on a disk is loaded as, in the notation that `parse` reads. -/
def fileOn (disk : Disk) (name : String) (dir file : Path)
    (parse : String → Except Error Json) : Except Error Technology :=
  match (disk.readFile? file).bind Utf8.decode? with
  | some text => (parse text).bind (ofJson name dir)
  | none => .error (.io ("reading technology " ++ file.text))

/-- **What the document of a directory is loaded as:** the JSON file where it is there, and else the
YAML file. -/
def loadedOn (disk : Disk) (name : String) (dir : Path) : Except Error Technology :=
  if disk.kind? (jsonFile name dir) = some .file then
    fileOn disk name dir (jsonFile name dir) fun text => (Json.parse text).mapError .json
  else fileOn disk name dir (yamlFile name dir) fun text => (Yaml.parse text).mapError .yaml

/-- A document is read, and its text loaded in its notation. -/
theorem result_readDocument (tool : Tool) (machine : Machine) (name : String) (dir file : Path)
    (parse : String → Except Error Json) :
    ((readDocument file >>= fun text => (Action.ofExcept (parse text) >>= load name dir) >>=
        fun technology => pure (some technology)).run tool machine).1 =
      (fileOn machine.disk name dir file parse).map some := by
  have hload (v : Json) : ((load name dir v).run tool machine).1 = ofJson name dir v := by
    rw [load, Action.run_bind, Action.run_ofExcept]
    cases ofJson name dir v <;> rfl
  have hasks (text : String) : (Action.ofExcept (parse text) >>= load name dir).Asks
      Request.Quiet := (asks_ofExcept _).bind (load_asks name dir)
  rw [Action.result_bind (readDocument_asks file) fun text => (hasks text).bind fun _ =>
    asks_pure _, readDocument, Action.run_readText, fileOn]
  cases (machine.disk.readFile? file).bind Utf8.decode? with
  | none => rfl
  | some text =>
      dsimp only [Except.bind]
      rw [Action.result_bind (hasks text) fun _ => asks_pure _,
        Action.result_bind (asks_ofExcept _) (load_asks name dir), Action.run_ofExcept]
      cases parse text with
      | error error => rfl
      | ok v =>
          dsimp only [Except.bind]
          rw [hload]
          cases ofJson name dir v <;> rfl

/-- **Loading from a directory** comes to what its document is loaded as, if it has one. The JSON
file is taken if it is there, and the other one is not looked at then. -/
theorem result_loadFromDir (name : String) (dir : Path) :
    ((loadFromDir name dir).run tool machine).1 =
      if HasDocument machine.disk name dir then (loadedOn machine.disk name dir).map some
      else .ok none := by
  have hjson := result_readDocument tool machine name dir (jsonFile name dir) fun text =>
    (Json.parse text).mapError .json
  have hyaml := result_readDocument tool machine name dir (yamlFile name dir) fun text =>
    (Yaml.parse text).mapError .yaml
  rw [loadFromDir, Action.run_bind, Action.run_isFile, loadedOn]
  dsimp only
  rw [← jsonFile, ← yamlFile]
  by_cases hjsonFile : machine.disk.kind? (jsonFile name dir) = some .file
  · have hhas : HasDocument machine.disk name dir := Or.inl hjsonFile
    rw [if_pos hhas, if_pos hjsonFile, beq_iff_eq.2 hjsonFile, if_pos rfl]
    exact hjson
  · rw [if_neg hjsonFile, beq_eq_false_iff_ne.2 hjsonFile, if_neg Bool.false_ne_true,
      Action.run_bind, Action.run_isFile]
    dsimp only
    by_cases hyamlFile : machine.disk.kind? (yamlFile name dir) = some .file
    · have hhas : HasDocument machine.disk name dir := Or.inr hyamlFile
      rw [if_pos hhas, beq_iff_eq.2 hyamlFile, if_pos rfl]
      exact hyaml
    · have hnone : ¬ HasDocument machine.disk name dir := not_or.2 ⟨hjsonFile, hyamlFile⟩
      rw [if_neg hnone, beq_eq_false_iff_ne.2 hyamlFile, if_neg Bool.false_ne_true]
      rfl

/-- The first of some directories that has a document for a name. -/
def firstWithDocument? (disk : Disk) (name : String) (bases : List Path) : Option Path :=
  bases.find? fun base => HasDocument disk name (base.join ⟨name⟩)

/-- **A search** comes to what the first document is loaded as. By induction on the directories: one
without a document is passed over, and one with a document ends the search. -/
theorem result_findIn (name : String) (bases : List Path) :
    ((findIn name bases).run tool machine).1 =
      match firstWithDocument? machine.disk name bases with
      | some base => (loadedOn machine.disk name (base.join ⟨name⟩)).map some
      | none => .ok none := by
  induction bases with
  | nil => rfl
  | cons base bases ih =>
      rw [findIn, Action.result_bind (loadFromDir_asks name _) fun found => ?_, result_loadFromDir,
        firstWithDocument?, List.find?_cons]
      swap
      · cases found with
        | some technology => exact asks_pure _
        | none => exact findIn_asks name bases
      by_cases hhas : HasDocument machine.disk name (base.join ⟨name⟩)
      · rw [if_pos hhas, decide_eq_true hhas]
        dsimp only
        cases loadedOn machine.disk name (base.join ⟨name⟩) <;> rfl
      · rw [if_neg hhas, decide_eq_false hhas]
        exact ih

/-- **How a search ends,** read off the disk: with the document of the first base directory that has
one, be it good or bad, and otherwise with the list of what was looked for. -/
theorem result_find (name : String) (bases : List Path) :
    ((find name bases).run tool machine).1 =
      match firstWithDocument? machine.disk name bases with
      | some base => loadedOn machine.disk name (base.join ⟨name⟩)
      | none => .error (.technologyNotFound name (searched name bases)) := by
  rw [find, Action.result_bind (findIn_asks name bases) fun found => ?_, result_findIn]
  swap
  · cases found <;> trivial
  cases firstWithDocument? machine.disk name bases with
  | none => rfl
  | some base =>
      dsimp only
      cases loadedOn machine.disk name (base.join ⟨name⟩) <;> rfl

/-- The first directory with a document has none with one before it. -/
theorem firstWithDocument?_append {disk : Disk} {name : String} {before after : List Path}
    {base : Path} (hbefore : ∀ b ∈ before, ¬ HasDocument disk name (b.join ⟨name⟩))
    (hbase : HasDocument disk name (base.join ⟨name⟩)) :
    firstWithDocument? disk name (before ++ base :: after) = some base := by
  rw [firstWithDocument?, List.find?_eq_some_iff_append]
  exact ⟨decide_eq_true hbase, before, after, rfl, fun b hb => by simpa using hbefore b hb⟩

/-- If no base directory has a document, none is the first to have one. -/
theorem firstWithDocument?_eq_none {disk : Disk} {name : String} {bases : List Path}
    (h : ∀ base ∈ bases, ¬ HasDocument disk name (base.join ⟨name⟩)) :
    firstWithDocument? disk name bases = none := by
  rw [firstWithDocument?, List.find?_eq_none]
  exact fun base hbase => by simpa using h base hbase

end Technology

namespace Context

open Technology (HasDocument loadedOn)

variable {tool : Tool} {machine : Machine}

/-- The technology of a directory that is given with a name or named like it. -/
theorem result_located {invocation : Invocation} {config : Config} {dir : Path} {name : String}
    (hdir : invocation.techDir = some dir) (hname : nameOf dir invocation.tech = .ok name) :
    ((loadTechnology invocation config).run tool machine).1 =
      if HasDocument machine.disk name dir then loadedOn machine.disk name dir
      else .error (.technologyNotFound name dir.text) := by
  rw [loadTechnology, hdir]
  dsimp only
  rw [hname]
  change ((Technology.loadFromDir name dir >>= _).run tool machine).1 = _
  rw [Action.result_bind (Technology.loadFromDir_asks name dir) fun found => ?_,
    Technology.result_loadFromDir]
  swap
  · cases found <;> trivial
  split_ifs
  · cases loadedOn machine.disk name dir <;> rfl
  · rfl

/-- A directory behind a base is named like its last step. -/
theorem nameOf_join {name : String} (hname : isEntryName name = true) (base : Path) :
    nameOf (base.join ⟨name⟩) none = .ok name := by
  rw [nameOf, Path.fileName?, Path.components_join hname, List.getLast?_concat]

/-- **The first document decides** what a search for a name comes to, whatever the name and the
directories are:

* it is what this document is loaded as, below the directory that has it, whether it can be read,
  is well-formed and fits the schema or not; the directories before that one have no document, and
  those behind it and what is in them play no part;
* where no directory has a document, the technology is not found in all of them, in order;
* giving a directory comes to its document, or to the technology not being found in it. So for the
  name of an entry in a directory, naming it and giving the directory that the search ends in come
  to the same, and every technology that is loaded from a directory of the search, with no document
  in those before it, is loaded by its name as well. -/
theorem first_document_decides (tool : Tool) (machine : Machine) (name : String) :
    (∀ before base after, (∀ b ∈ before, ¬ HasDocument machine.disk name (b.join ⟨name⟩)) →
      HasDocument machine.disk name (base.join ⟨name⟩) →
      ((Technology.find name (before ++ base :: after)).run tool machine).1 =
        loadedOn machine.disk name (base.join ⟨name⟩)) ∧
    (∀ bases, (∀ base ∈ bases, ¬ HasDocument machine.disk name (base.join ⟨name⟩)) →
      ((Technology.find name bases).run tool machine).1 =
        .error (.technologyNotFound name (if bases = [] then "no search paths"
          else ", ".intercalate (bases.map fun base => (base.join ⟨name⟩).text)))) ∧
    (isEntryName name = true → ∀ (named located : Invocation) (config : Config) before base after,
      named.techDir = none → named.tech = some name →
      config.searchPaths = before ++ base :: after →
      (∀ b ∈ before, ¬ HasDocument machine.disk name (b.join ⟨name⟩)) →
      located.techDir = some (base.join ⟨name⟩) → located.tech = none →
      let byName := ((loadTechnology named config).run tool machine).1
      let byPlace := ((loadTechnology located config).run tool machine).1
      (HasDocument machine.disk name (base.join ⟨name⟩) → byName = byPlace) ∧
      (¬ HasDocument machine.disk name (base.join ⟨name⟩) →
        byPlace = .error (.technologyNotFound name (base.join ⟨name⟩).text)) ∧
      ∀ technology, byPlace = .ok technology → byName = .ok technology) := by
  have hfirst : ∀ before base after,
      (∀ b ∈ before, ¬ HasDocument machine.disk name (b.join ⟨name⟩)) →
      HasDocument machine.disk name (base.join ⟨name⟩) →
      ((Technology.find name (before ++ base :: after)).run tool machine).1 =
        loadedOn machine.disk name (base.join ⟨name⟩) := by
    intro before base after hbefore hbase
    rw [Technology.result_find, Technology.firstWithDocument?_append hbefore hbase]
  refine ⟨hfirst, fun bases hbases => ?_, ?_⟩
  · rw [Technology.result_find, Technology.firstWithDocument?_eq_none hbases]
    cases bases <;> rfl
  · intro hname named located config before base after hnone htech hpaths hbefore hdir hlocated
      byName byPlace
    have hplace : byPlace = if HasDocument machine.disk name (base.join ⟨name⟩) then
        loadedOn machine.disk name (base.join ⟨name⟩)
        else .error (.technologyNotFound name (base.join ⟨name⟩).text) :=
      result_located hdir (hlocated ▸ nameOf_join hname base)
    have hsame : HasDocument machine.disk name (base.join ⟨name⟩) → byName = byPlace := by
      intro hbase
      have hsearch : loadTechnology named config =
          Technology.find name (before ++ base :: after) := by
        rw [loadTechnology, hnone, htech, hpaths]
      rw [hplace, if_pos hbase, ← hfirst before base after hbefore hbase]
      exact congrArg (fun action => (Action.run tool action machine).1) hsearch
    refine ⟨hsame, fun hbase => by rw [hplace, if_neg hbase], fun technology hok => ?_⟩
    by_cases hbase : HasDocument machine.disk name (base.join ⟨name⟩)
    · exact (hsame hbase).trans hok
    · rw [hplace, if_neg hbase] at hok
      exact absurd hok (by simp)

/-- A machine where `/a` has nothing for the technology `t`, `/b` a JSON document that stops short
beside a good YAML one, and `/c` a good document. -/
def threeBases : Machine :=
  { disk := ⟨[(["a"], .dir .newDir), (["b"], .dir .newDir), (["b", "t"], .dir .newDir),
      (["b", "t", "t.tech.json"], .file (Utf8.encode "\x7b") .newFile),
      (["b", "t", "t.tech.yml"], .file (Utf8.encode "\x7b\x7d") .newFile),
      (["c"], .dir .newDir), (["c", "t"], .dir .newDir),
      (["c", "t", "t.tech.json"], .file (Utf8.encode "\x7b\x7d") .newFile)], []⟩ }

/-- The broken document in `/b` is not passed over for the good ones beside it and behind it, it
gives the same error when its directory is named, and `/a` alone has nothing to find. -/
theorem broken_document_decides :
    let idle : Tool := fun _ machine => (.ok (), machine)
    let config : Config := { searchPaths := [⟨"/a"⟩, ⟨"/b"⟩, ⟨"/c"⟩] }
    let named : Invocation := { command := .check, tech := some "t" }
    let located : Invocation := { command := .check, techDir := some ⟨"/b/t"⟩ }
    let selected (invocation : Invocation) :=
      ((loadTechnology invocation config).run idle threeBases).1
    (∃ reason, selected named = .error (.json reason)) ∧ selected named = selected located ∧
      ((Technology.find "t" [⟨"/a"⟩]).run idle threeBases).1 =
        .error (.technologyNotFound "t" "/a/t") := by
  intro idle config named located selected
  obtain ⟨hfirst, hnone, hplace⟩ := first_document_decides idle threeBases "t"
  have hbefore : ∀ b ∈ [Path.mk "/a"], ¬ HasDocument threeBases.disk "t" (b.join ⟨"t"⟩) := by
    decide +kernel
  have hbase : HasDocument threeBases.disk "t" ((Path.mk "/b").join ⟨"t"⟩) := by decide +kernel
  have hsearch := hfirst [⟨"/a"⟩] ⟨"/b"⟩ [⟨"/c"⟩] hbefore hbase
  have hbroken : ∃ reason, loadedOn threeBases.disk "t" ((Path.mk "/b").join ⟨"t"⟩) =
      .error (.json reason) := ⟨_, rfl⟩
  obtain ⟨hsame, -, -⟩ := hplace (by decide) named located config [⟨"/a"⟩] ⟨"/b"⟩ [⟨"/c"⟩] rfl rfl
    rfl hbefore rfl rfl
  refine ⟨?_, hsame hbase, hnone [⟨"/a"⟩] hbefore⟩
  obtain ⟨reason, hreason⟩ := hbroken
  exact ⟨reason, hsearch.trans hreason⟩

end Context
end ProcessKit
