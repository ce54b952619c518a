/-
# What is loaded

A technology that is loaded has been made of the value of a text, under the name that it was looked
for, wherever it was found (`Loaded`). Hence the schema has accepted it, which sees to the names of
its sources (`Loaded.named`), and its libraries have no extra prefixes, because no field of a
document puts any there (`Loaded.extraPrefixes_eq_nil`).

`Loaded` says that there is an ordered value, accepted under the name, from which the technology was
read. Both kinds of text give such a value, and every way to load goes through the one that makes a
technology of a value (`yields_load`), so the invariant is passed up through directories and
searches without being opened. What a document may hold under a name of its own does not count: the
name is the one that was asked for (`Loaded.name_eq`).
-/

import ProcessKit.Proofs.Host.Ending
import ProcessKit.Proofs.Path
import ProcessKit.Proofs.Technology.Document
import ProcessKit.Technology.Loading

namespace ProcessKit
namespace Technology

open Json (Agrees AgreesList Decoder Field IsListOf Optionally RecordKind)

variable {technology : Technology} {name : String} {dir : Path} {v : Json}

/-- **A technology made of a value,** one that a text may have. -/
def Loaded (name : String) (technology : Technology) : Prop :=
  ∃ dir v, v.Ordered ∧ ofJson name dir v = .ok technology

/-- What it takes to be made of a value. -/
theorem ofJson_eq_ok_iff : ofJson name dir v = .ok technology ↔
    Document.validate name v = .ok () ∧
      ∃ document, Document.kind.decoder.ofValue v = .ok document ∧
        technology = ⟨name, dir, document⟩ := by
  rw [ofJson, bind_eq_ok_iff]
  constructor
  · rintro ⟨_, hvalid, h⟩
    obtain ⟨document, hread, hpure⟩ := bind_eq_ok_iff.1 h
    exact ⟨hvalid, document, mapError_eq_ok_iff.1 hread, (Except.ok.inj hpure).symm⟩
  · rintro ⟨hvalid, document, hread, rfl⟩
    exact ⟨(), hvalid, bind_eq_ok_iff.2 ⟨document, mapError_eq_ok_iff.2 hread, rfl⟩⟩

/-- A technology that was loaded under a name has that name: the document cannot give it another
one. -/
theorem Loaded.name_eq (h : Loaded name technology) : technology.name = name := by
  obtain ⟨dir, v, -, hjson⟩ := h
  obtain ⟨-, document, -, rfl⟩ := ofJson_eq_ok_iff.1 hjson
  rfl

/-- A document that can be loaded gives a technology under the name that was asked for. Others end
the loading. -/
theorem yields_load (hv : v.Ordered) : (load name dir v).Yields (Loaded name) :=
  (Action.yields_ofExcept fun _ h => ⟨dir, v, hv, h⟩).bind fun _ h =>
    Action.yields_bind fun _ => Action.yields_pure.2 h

/-- The same of the text of a JSON document. -/
theorem yields_loadJson (text : String) : (loadJson name dir text).Yields (Loaded name) :=
  (Action.yields_ofExcept fun _ h => Json.ordered_parse (mapError_eq_ok_iff.1 h)).bind
    fun _ => yields_load

/-- The same of the text of a YAML document, which is turned into JSON first. -/
theorem yields_loadYaml (text : String) : (loadYaml name dir text).Yields (Loaded name) :=
  (Action.yields_ofExcept fun _ h => Yaml.ordered_parse (mapError_eq_ok_iff.1 h)).bind
    fun _ => yields_load

/-- **The document of a directory** is loaded under the name that was asked for, from whichever of
its two files is there. -/
theorem yields_loadFromDir (name : String) (dir : Path) :
    (loadFromDir name dir).Yields fun found => ∀ technology ∈ found, Loaded name technology := by
  have hfound {technology : Technology} (h : Loaded name technology) :
      ∀ other ∈ some technology, Loaded name other := fun other hother => Option.some.inj hother ▸ h
  refine Action.yields_bind fun json => ?_
  cases json with
  | true =>
      exact Action.yields_bind fun text => (yields_loadJson text).bind fun _ h =>
        Action.yields_pure.2 (hfound h)
  | false =>
      refine Action.yields_bind fun yaml => ?_
      cases yaml with
      | true =>
          exact Action.yields_bind fun text => (yields_loadYaml text).bind fun _ h =>
            Action.yields_pure.2 (hfound h)
      | false => exact Action.yields_bind fun _ => Action.yields_pure.2 (by simp)

/-- Whatever a search in several directories finds is loaded under the name that was searched for.
-/
theorem yields_findIn (name : String) (bases : List Path) :
    (findIn name bases).Yields fun found => ∀ technology ∈ found, Loaded name technology := by
  induction bases with
  | nil => exact Action.yields_pure.2 (by simp)
  | cons base bases ih =>
      refine (yields_loadFromDir name (base.join ⟨name⟩)).bind fun found h => ?_
      cases found with
      | none => exact ih
      | some technology => exact Action.yields_pure.2 h

/-- **The first technology** that is found is loaded under the name that was asked for, in whichever
directory it was. -/
theorem yields_find (name : String) (bases : List Path) :
    (find name bases).Yields (Loaded name) := by
  refine (yields_findIn name bases).bind fun found h => ?_
  cases found with
  | none => exact Action.yields_fail _
  | some technology => exact Action.yields_pure.2 (h technology rfl)

/-- What is read of an optional list has been read item by item. -/
theorem exists_item_of_ofValue {α : Type} {decoder : Decoder α} {read : Option (List α)}
    (h : decoder.list.optional.ofValue v = .ok read) {x : α} (hx : x ∈ read.getD []) :
    ∃ item, decoder.ofValue item = .ok x := by
  have hlist : v ≠ .null → ∃ xs, decoder.list.ofValue v = .ok xs ∧ some xs = read := by
    intro hnull
    cases v with
    | null => exact absurd rfl hnull
    | _ => exact map_eq_ok_iff.1 h
  cases v with
  | null =>
      obtain rfl : none = read := Except.ok.inj h
      exact absurd hx List.not_mem_nil
  | array items =>
      obtain ⟨xs, hxs, rfl⟩ := hlist (by simp)
      have hitems : List.Forall₂ (fun item y => decoder.ofValue item = .ok y) items xs :=
        mapM_eq_ok_iff.1 hxs
      obtain ⟨item, -, hitem⟩ := exists_of_forall₂ hitems.flip hx
      exact ⟨item, hitem⟩
  | _ =>
      obtain ⟨xs, hxs, -⟩ := hlist (by simp)
      exact absurd hxs (by simp [Decoder.list])

/-- **Libraries of a document** have no extra prefixes. Each field of a library keeps them as they
are, and there are none at the start. -/
theorem Loaded.extraPrefixes_eq_nil (h : Loaded name technology) :
    ∀ library ∈ technology.libraries, library.extraPrefixes = [] := by
  obtain ⟨dir, v, -, hjson⟩ := h
  obtain ⟨-, document, hread, rfl⟩ := ofJson_eq_ok_iff.1 hjson
  refine RecordKind.keeps_ofValue
    (I := fun document => ∀ library ∈ document.libraries.getD [], library.extraPrefixes = [])
    ?_ (by simp [Document.kind]) hread
  simp only [Document.kind, List.forall_mem_cons]
  refine ⟨Field.preserves_of ?_, Field.preserves_of ?_, Field.preserves_of ?_,
    Field.preserves_of ?_, Field.preserves_of ?_, Field.preserves_of ?_, Field.preserves_of ?_,
    by simp⟩
  case refine_6 =>
    intro document v libraries hlibraries _ library hlibrary
    obtain ⟨item, hitem⟩ := exists_item_of_ofValue hlibraries hlibrary
    exact Library.extraPrefixes_of_ofValue hitem
  all_goals exact fun _ _ _ _ hnone => hnone

/-- The names that an accepted document gives to its sources. -/
structure Named (technology : Technology) : Prop where
  installs : ∀ install ∈ technology.installs, install.path ≠ ""
  tarballs : ∀ tarball ∈ technology.tarballs, isEntryName tarball.path = true

/-- An item read from a list that may be declared comes from one of the required shape. -/
theorem exists_item_of_agrees {α : Type} {R : α → Json → Prop} {P : Json → Prop}
    {read : Option (List α)} (hR : Agrees (AgreesList R) read v name)
    (hP : Optionally (IsListOf P) v name) {x : α} (hx : x ∈ read.getD []) :
    ∃ item, R x item ∧ P item := by
  cases hv : v.get? name with
  | none =>
      rw [hR.eq_none hv] at hx
      exact absurd hx List.not_mem_nil
  | some value =>
      obtain ⟨items, rfl, hitems⟩ := hP value hv
      obtain ⟨list, rfl, hlist⟩ := hR.eq_some hv
      obtain ⟨item, hmem, hitem⟩ := exists_of_forall₂ (Json.agreesList_array.1 hlist) hx
      exact ⟨item, hitem, hitems item hmem⟩

/-- **The schema sees to it** that every name is a text with something in it, and that the name of a
tarball is the name of an entry. -/
theorem Loaded.named (h : Loaded name technology) : Named technology := by
  obtain ⟨dir, v, hordered, hjson⟩ := h
  obtain ⟨hvalid, -⟩ := ofJson_eq_ok_iff.1 hjson
  have hshape := Document.validate_eq_ok_iff.1 hvalid
  obtain ⟨document, -, hok, hagrees⟩ := ofJson_of_shape name dir hordered hshape
  obtain rfl := Except.ok.inj (hjson.symm.trans hok)
  constructor
  · intro install hinstall
    obtain ⟨item, hitem, hitemShape⟩ :=
      exists_item_of_agrees hagrees.installs hshape.installs hinstall
    obtain ⟨s, hs, hne⟩ := hitemShape.path
    obtain rfl : install.path = s := by simpa [hitem.path] using hs
    exact hne
  · intro tarball htarball
    obtain ⟨item, hitem, hitemShape⟩ :=
      exists_item_of_agrees hagrees.tarballs hshape.tarballs htarball
    obtain ⟨s, hs, hne, hslash, -, hdot, hdots⟩ := hitemShape.path
    obtain rfl : tarball.path = s := by simpa [hitem.path] using hs
    exact isEntryName_iff.2 ⟨hne, hdot, hdots, hslash⟩

end Technology
end ProcessKit
