/-
# Listing libraries as JSON

The list of libraries that is printed as JSON is an array in which every library is read again as
the one declared, in the same order. So it is with a single library that has been read out of
whatever object: what is written of it says all there is about it (`libraries_come_back`).

Three things have to be seen to. What is written of a library gives it back, with the members of its
objects in any order. The printed text is read as the value that was printed, with sorted members,
as long as it is not nested too deep for the reader, and a library is not (`fits_libraries`). And a
library that was loaded has no extra prefixes, which are the one part of it that is never written.
-/

import ProcessKit.Command.Execution
import ProcessKit.Proofs.Host.Run
import ProcessKit.Proofs.Library.Roundtrip
import ProcessKit.Proofs.Technology.Loading

namespace ProcessKit
namespace Context

open Technology (Loaded)

/-- Listing libraries as JSON prints one text. -/
theorem run_list_json (context : Context) (tool : Tool) (machine : Machine) :
    (context.list .json).run tool machine = (.ok (), { machine with output := machine.output ++
      [(Json.array (context.technology.libraries.map Library.toJson)).pretty] }) := rfl

/-- The JSON of any libraries is not nested too deep to be read. -/
theorem fits_libraries (libraries : List Library) :
    (Json.array (libraries.map Library.toJson)).Fits 128 := by
  refine ⟨by decide, Json.allFit_iff.2 (List.forall_mem_map.2 fun library _ => ?_)⟩
  exact library.fits_toJson (by decide)

/-- **Libraries come back one by one,** without their extra prefixes, so a list of them comes back
in its order and with its length. -/
theorem mapM_parse_toJson (libraries : List Library) :
    ((libraries.map Library.toJson).map Json.arranged).mapM Library.parse =
      .ok (libraries.map (·.setExtraPrefixes [])) := by
  rw [List.map_map]
  refine mapM_eq_ok_iff.2 (List.forall₂_map_left_iff.2 (List.forall₂_map_right_iff.2 ?_))
  exact List.forall₂_same.2 fun library _ => library.parse_toJson.2

/-- **No library is changed by writing it as JSON.**

* A library that has been read out of any object is written so that it can be read again, as a value
  with its members in the order of the document or of their names, or as text. It is the same then,
  in every field and so in the list of its files. Extra prefixes make no difference to what is
  written.
* Listing the libraries of a technology as JSON prints one text, followed by a new line, which is
  read as an array. Its items are read as the declared libraries, in order. This is so without any
  libraries too, when the array is empty. -/
theorem libraries_come_back :
    (∀ v library, Library.parse v = .ok library →
      Library.parse library.toJson = .ok library ∧
      Json.parse library.toJson.pretty = .ok library.toJson.arranged ∧
      Library.parse library.toJson.arranged = .ok library ∧
      ∀ ps, (library.setExtraPrefixes ps).toJson = library.toJson) ∧
    ∀ (name : String) (context : Context) (tool : Tool) (machine : Machine),
      Loaded name context.technology →
      ∃ text items, (context.list .json).run tool machine =
          (.ok (), { machine with output := machine.output ++ [text] }) ∧
        Json.parse (text ++ "\n") = .ok (.array items) ∧
        items.mapM Library.parse = .ok context.technology.libraries ∧
        (context.technology.libraries = [] → text = "[]") := by
  constructor
  · intro v library hparse
    obtain ⟨hwritten, harranged⟩ := Library.parse_toJson_of_parse hparse
    have htext := Json.parse_pretty (library.fits_toJson (show 3 < 128 by decide))
      (show Json.skipBlanks [] = [] from rfl)
    refine ⟨hwritten, ?_, harranged, fun _ => rfl⟩
    rwa [String.ofList_nil, String.append_empty] at htext
  · intro name context tool machine hloaded
    have htext := Json.parse_pretty (fits_libraries context.technology.libraries)
      (show Json.skipBlanks ['\n'] = [] from rfl)
    have hsame : context.technology.libraries.map (·.setExtraPrefixes []) =
        context.technology.libraries := by
      have hnone := hloaded.extraPrefixes_eq_nil
      exact (List.map_congr_left fun library hmem =>
        Library.setExtraPrefixes_nil (hnone library hmem)).trans (List.map_id _)
    refine ⟨_, _, run_list_json context tool machine, htext, ?_, fun hempty => ?_⟩
    · rw [Json.arrangedItems_eq, mapM_parse_toJson, hsame]
    · rw [hempty]
      rfl

/-- A library with a null member, a corner given as an array, a quote in a path, and a member of its
own. -/
def oddLibrary : Json :=
  .object [("corner", .array [.string "ss", .null, .string "125"]), ("gds_file", .string "a\"b"),
    ("maturity", .number (.integer 1)), ("name", .null)]

/-- A document with a library whose name has to be escaped. -/
def escapedLibrary : Json :=
  .object [("libraries", .array [.object [("name", .string "µ\\\n")]])]

/-- A machine with nothing on it. -/
def emptyMachine : Machine := { disk := ⟨[], []⟩ }

/-- A tool that does nothing. -/
def idleTool : Tool := fun _ machine => (.ok (), machine)

/-- The odd library comes back, and so does the list of the libraries of the document. -/
theorem odd_and_escaped_come_back :
    (∃ library, Library.parse oddLibrary = .ok library ∧
      library.corner = some ⟨some "ss", none, some "125"⟩ ∧
      Library.parse library.toJson = .ok library ∧
      Json.parse library.toJson.pretty = .ok library.toJson.arranged) ∧
    ∃ technology, Technology.ofJson "tech" ⟨"/tech"⟩ escapedLibrary = .ok technology ∧
      technology.libraries.map (·.name) = [some "µ\\\n"] ∧
      ∃ text items, ((Context.mk technology {} ⟨"/c"⟩).list .json).run idleTool emptyMachine =
          (.ok (), { emptyMachine with output := [text] }) ∧
        Json.parse (text ++ "\n") = .ok (.array items) ∧
        items.mapM Library.parse = .ok technology.libraries := by
  have hodd : (Library.parse oddLibrary).toOption.map (·.corner) =
      some (some ⟨some "ss", none, some "125"⟩) := by decide +kernel
  have hescaped : (Technology.ofJson "tech" ⟨"/tech"⟩ escapedLibrary).toOption.map
      (·.libraries.map (·.name)) = some [some "µ\\\n"] := by decide +kernel
  obtain ⟨library, hlibrary, hcorner⟩ := Option.map_eq_some_iff.1 hodd
  obtain ⟨technology, htechnology, hnames⟩ := Option.map_eq_some_iff.1 hescaped
  have hparse := eq_ok_of_toOption hlibrary
  have hread := eq_ok_of_toOption htechnology
  have hordered : escapedLibrary.Ordered := by
    refine ⟨List.pairwise_singleton .., ⟨⟨⟨List.pairwise_singleton .., trivial, trivial⟩, trivial⟩,
      trivial⟩⟩
  obtain ⟨hone, hmany⟩ := libraries_come_back
  obtain ⟨hagain, htext, -, -⟩ := hone oddLibrary library hparse
  obtain ⟨text, items, hrun, hitems, hlibraries, -⟩ := hmany "tech" ⟨technology, {}, ⟨"/c"⟩⟩
    idleTool emptyMachine ⟨⟨"/tech"⟩, escapedLibrary, hordered, hread⟩
  exact ⟨⟨library, hparse, hcorner, hagain, htext⟩, technology, hread, hnames, text, items, hrun,
    hitems, hlibraries⟩

end Context
end ProcessKit
