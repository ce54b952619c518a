/-
# The way to an entry of a directory

A path to a directory with two names joined to it is followed in two parts: the way to the
directory, and then the two names. `LeadsTo` says that a path leads to a directory whatever that
directory holds, which no change inside the directory can spoil (`LeadsTo.congr`). From there on
`find_entryPath` reads off the disk at two places where the whole path leads, as long as the first
name is no symbolic link.

A walk goes from place to place, starts anew at the target of a symbolic link, and is bounded by the
number of links that it may follow. It is cut in two by `walk_append`: the steps of the first part
end at a place, and the others are followed from there with the links that are left. The name at the
end is one lookup (`walkFrom_last`). So a statement about the whole path comes down to `slot`, a
function of the entry of the area and the entry of the name, in which every way to fail has its
line: a path or a name that is too long, an area that is missing, and one that is no directory.

`Below`, `AgreeOutside` and `Within` say where two disks may differ: strictly below a directory, or
at and below it while it stays one. They are the frames of all later statements about what an
operation or the tool leaves alone.
-/

import Mathlib.Tactic.ByContra
import ProcessKit.Disk.Operations
import ProcessKit.Proofs.Disk.Entries
import ProcessKit.Proofs.Path

namespace ProcessKit
namespace Disk

variable {disk disk' : Disk} {home : Place} {dir : Path} {area name : String}

/-- Whether a place is strictly below another one. -/
def Below (home place : Place) : Prop := home <+: place ∧ place ≠ home

/-- Two disks that differ at most strictly below a place. -/
structure AgreeOutside (home : Place) (disk disk' : Disk) : Prop where
  current : disk'.current = disk.current
  get? : ∀ place, ¬ Below home place → disk'.get? place = disk.get? place

/-- A disk agrees with itself. -/
theorem AgreeOutside.refl (home : Place) (disk : Disk) : AgreeOutside home disk disk :=
  ⟨rfl, fun _ _ => rfl⟩

/-- Changes inside a directory, one after the other, are changes inside it. -/
theorem AgreeOutside.trans {disk'' : Disk} (h : AgreeOutside home disk disk')
    (h' : AgreeOutside home disk' disk'') : AgreeOutside home disk disk'' :=
  ⟨h'.current.trans h.current, fun p hp => (h'.get? p hp).trans (h.get? p hp)⟩

/-- What is below a place's own name is below the place. -/
theorem below_append (home : Place) (area : String) (rel : Place) :
    Below home (home ++ area :: rel) :=
  ⟨List.prefix_append home _, by simp⟩

/-- What is below a directory is not the root. -/
theorem ne_nil_of_below {place : Place} (h : Below home place) : place ≠ [] := by
  rintro rfl
  exact h.2 (List.prefix_nil.1 h.1).symm

/-- What is further down is below the directory, too. -/
theorem Below.extend {place place' : Place} (h : Below home place) (hp : place <+: place') :
    Below home place' := by
  refine ⟨h.1.trans hp, ?_⟩
  rintro rfl
  exact h.2 (hp.eq_of_length_le h.1.length_le)

/-- An entry set inside a directory is seen inside it only. -/
theorem AgreeOutside.set {place : Place} (h : Below home place) (entry : Entry) :
    AgreeOutside home disk (disk.set place entry) := by
  refine ⟨rfl, fun p hp => ?_⟩
  rw [get?_set (ne_nil_of_below h), if_neg]
  rintro rfl
  exact hp h

/-- Two disks that differ at most at and below a directory, which stays one. -/
structure Within (place : Place) (disk disk' : Disk) : Prop where
  current : disk'.current = disk.current
  get? : ∀ p, ¬ place <+: p → disk'.get? p = disk.get? p
  isDir : disk.IsDir place
  isDir' : disk'.IsDir place

/-- Work in a directory, continued, is work in it. -/
theorem Within.trans {disk'' : Disk} {place : Place} (h : Within place disk disk')
    (h' : Within place disk' disk'') : Within place disk disk'' :=
  ⟨h'.current.trans h.current, fun p hp => (h'.get? p hp).trans (h.get? p hp), h.isDir, h'.isDir'⟩

/-- Setting an entry below a directory is work in it. -/
theorem within_set {place rel : Place} (h : disk.IsDir place) (hne : rel ≠ []) (e : Entry) :
    Within place disk (disk.set (place ++ rel) e) := by
  have hset := @get?_set disk (place ++ rel) (by simp [hne]) e
  obtain ⟨mode, hmode⟩ := h
  refine ⟨rfl, fun p hp => ?_, ⟨mode, hmode⟩, mode, ?_⟩
  · rw [hset, if_neg]
    rintro rfl
    exact hp (List.prefix_append place rel)
  · rw [hset, if_neg (by simpa using hne), hmode]

/-- Work in a directory is a change inside every directory around it. -/
theorem Within.agreeOutside {place : Place} (h : Within place disk disk') (hb : Below home place) :
    AgreeOutside home disk disk' :=
  ⟨h.current, fun p hp => h.get? p fun hpre => hp (hb.extend hpre)⟩

/-- Where a path leads as the start of longer ones. The empty path is the current directory. -/
def follow (disk : Disk) (path : Path) : Found :=
  disk.walk true 40 (if path.isAbsolute then [] else disk.current) (Path.pieces path.text)

/-- The path leads to a directory, by a way that does not go through that directory. -/
def LeadsTo (disk : Disk) (path : Path) (home : Place) : Prop :=
  ∀ disk', AgreeOutside home disk disk' → ∃ mode, disk'.follow path = .entry home (.dir mode)

/-- What happens inside a directory does not change the way to it. -/
theorem LeadsTo.congr (h : disk.LeadsTo dir home) (hd : AgreeOutside home disk disk') :
    disk'.LeadsTo dir home :=
  fun disk'' hd' => h disk'' (hd.trans hd')

/-- How a way goes on behind a link: from a directory, along other steps. -/
abbrev AtLink := Place → List String → Found

/-- Steps that stay where they are. -/
theorem walkFrom_stay {followLast : Bool} {atLink : AtLink} {here : Place}
    {step : String} (h : step = "" ∨ step = ".") (rest : List String) :
    disk.walkFrom followLast atLink here (step :: rest) =
      disk.walkFrom followLast atLink here rest := by
  rw [walkFrom, if_pos h]

/-- Empty steps lead nowhere else. -/
theorem walkFrom_empties {followLast : Bool} {atLink : AtLink} {here : Place}
    {zs : List String} (hz : ∀ z ∈ zs, z = "") :
    disk.walkFrom followLast atLink here zs = disk.walkFrom followLast atLink here [] := by
  induction zs with
  | nil => rfl
  | cons z zs ih =>
      rw [walkFrom_stay (Or.inl (hz z List.mem_cons_self))]
      exact ih fun z hz' => hz z (List.mem_cons_of_mem _ hz')

/-- A way leads only to what is there, given that this holds behind a link. -/
theorem get?_of_walkFrom {followLast : Bool} {atLink : AtLink} {place : Place} {e : Entry}
    (hlink : ∀ start xs, atLink start xs = .entry place e → disk.get? place = some e)
    {here : Place} {steps : List String}
    (h : disk.walkFrom followLast atLink here steps = .entry place e) :
    disk.get? place = some e := by
  induction steps generalizing here with
  | nil =>
      rw [walkFrom] at h
      split at h
      · rename_i hhere
        obtain ⟨rfl, rfl⟩ := Found.entry.inj h
        exact hhere
      · exact absurd h (by simp)
  | cons step rest ih =>
      rw [walkFrom] at h
      by_cases hstay : step = "" ∨ step = "."
      · exact ih (if_pos hstay ▸ h)
      by_cases hup : step = ".."
      · rw [if_neg hstay, if_pos hup] at h
        exact ih h
      by_cases hlong : 255 < step.utf8ByteSize
      · rw [if_neg hstay, if_neg hup, if_pos hlong] at h
        exact absurd h (by simp)
      rw [if_neg hstay, if_neg hup, if_neg hlong] at h
      split at h
      · split at h <;> exact absurd h (by simp)
      · exact ih h
      · rename_i hentry
        split at h
        · obtain ⟨rfl, rfl⟩ := Found.entry.inj h
          exact hentry
        · split at h
          · exact absurd h (by simp)
          · exact hlink _ _ h
      · rename_i hentry
        split at h
        · obtain ⟨rfl, rfl⟩ := Found.entry.inj h
          exact hentry
        · exact absurd h (by simp)

/-- **What a way leads to is on the disk,** at the place where the way ends, links followed or not.
-/
theorem get?_of_walk {followLast : Bool} {place : Place} {e : Entry} {links : Nat} {here : Place}
    {steps : List String} (h : disk.walk followLast links here steps = .entry place e) :
    disk.get? place = some e := by
  induction links generalizing here steps with
  | zero => exact get?_of_walkFrom (fun _ _ hblocked => absurd hblocked (by simp)) h
  | succ links ih => exact get?_of_walkFrom (fun _ _ hlink => ih hlink) h

/-- **A path leads only to what is there.** This turns an answer about a path into a fact about a
place. -/
theorem get?_of_find {followLast : Bool} {path : Path} {place : Place} {e : Entry}
    (h : disk.find followLast path = .entry place e) : disk.get? place = some e := by
  rw [find] at h
  split at h
  · exact absurd h (by simp)
  split at h
  · exact absurd h (by simp)
  · exact get?_of_walk h

/-- A directory that a path leads to is there. -/
theorem LeadsTo.isDir (h : disk.LeadsTo dir home) : disk.IsDir home := by
  obtain ⟨mode, hmode⟩ := h disk (.refl home disk)
  exact ⟨mode, get?_of_walk hmode⟩

/-- Steps that lead to a directory may be followed first, given that this holds behind a link. -/
theorem walkFrom_append {mode : Mode} {zs : List String} (hz : ∀ z ∈ zs, z = "")
    (atLink : Bool → AtLink)
    (hlink : ∀ start xs, atLink true start (xs ++ zs) = .entry home (.dir mode) →
      ∃ atLink' : Bool → AtLink, ∀ followLast ys, ys ≠ [] →
        atLink followLast start (xs ++ ys) = disk.walkFrom followLast (atLink' followLast) home ys)
    (here : Place) (ps : List String)
    (h : disk.walkFrom true (atLink true) here (ps ++ zs) = .entry home (.dir mode)) :
    ∃ atLink' : Bool → AtLink, ∀ followLast ys, ys ≠ [] →
      disk.walkFrom followLast (atLink followLast) here (ps ++ ys) =
        disk.walkFrom followLast (atLink' followLast) home ys := by
  induction ps generalizing here with
  | nil =>
      rw [List.nil_append, walkFrom_empties hz, walkFrom] at h
      refine ⟨atLink, fun followLast ys _ => ?_⟩
      split at h
      · obtain ⟨rfl, -⟩ := Found.entry.inj h
        rw [List.nil_append]
      · exact absurd h (by simp)
  | cons step rest ih =>
      rw [List.cons_append, walkFrom] at h
      simp only [List.cons_append, walkFrom]
      by_cases hstay : step = "" ∨ step = "."
      · rw [if_pos hstay] at h
        simpa only [if_pos hstay] using ih here h
      by_cases hup : step = ".."
      · rw [if_neg hstay, if_pos hup] at h
        simpa only [if_neg hstay, if_pos hup] using ih here.dropLast h
      by_cases hlong : 255 < step.utf8ByteSize
      · rw [if_neg hstay, if_neg hup, if_pos hlong] at h
        exact absurd h (by simp)
      rw [if_neg hstay, if_neg hup, if_neg hlong] at h
      simp only [if_neg hstay, if_neg hup, if_neg hlong]
      have hys : ∀ ys : List String, ys ≠ [] → rest ++ ys ≠ [] := fun ys =>
        List.append_ne_nil_of_right_ne_nil rest
      cases hentry : disk.get? (here ++ [step]) with
      | none =>
          simp only [hentry] at h
          split at h <;> exact absurd h (by simp)
      | some entry =>
          cases entry with
          | dir mode' =>
              simp only [hentry] at h
              exact ih (here ++ [step]) h
          | link target =>
              simp only [hentry, Bool.not_true, Bool.and_false, Bool.false_eq_true, if_false] at h
              by_cases hempty : target = ""
              · rw [if_pos hempty] at h
                exact absurd h (by simp)
              · rw [if_neg hempty, ← List.append_assoc] at h
                obtain ⟨atLink', hrest⟩ := hlink _ _ h
                refine ⟨atLink', fun followLast ys hne => ?_⟩
                dsimp only
                rw [← hrest followLast ys hne, decide_eq_false (hys ys hne), Bool.false_and,
                  if_neg Bool.false_ne_true, if_neg hempty, List.append_assoc]
          | file bytes mode' =>
              simp only [hentry] at h
              split at h <;> exact absurd h (by simp)
          | device =>
              simp only [hentry] at h
              split at h <;> exact absurd h (by simp)

/-- **A way is followed in two parts.** Where some steps lead to a directory, those steps with
others behind them lead where the others lead from that directory. Empty steps at the end of the
first part may be left out. -/
theorem walk_append {mode : Mode} {zs : List String} (hz : ∀ z ∈ zs, z = "") (links : Nat)
    (here : Place) (ps : List String)
    (h : disk.walk true links here (ps ++ zs) = .entry home (.dir mode)) :
    ∃ atLink : Bool → AtLink, ∀ followLast ys, ys ≠ [] →
      disk.walk followLast links here (ps ++ ys) =
        disk.walkFrom followLast (atLink followLast) home ys := by
  induction links generalizing here ps with
  | zero =>
      exact walkFrom_append hz (fun _ _ _ => .blocked)
        (fun _ _ hblocked => absurd hblocked (by simp)) here ps h
  | succ links ih =>
      exact walkFrom_append hz (fun followLast => disk.walk followLast links) ih here ps h

/-- The last step of a way, to an entry that is no link or is not to be followed. -/
theorem walkFrom_last (hname : isEntryName name = true) {followLast : Bool}
    {atLink : AtLink} {here : Place}
    (hlast : followLast = true → disk.Unlinked (here ++ [name])) :
    disk.walkFrom followLast atLink here [name] =
      if 255 < name.utf8ByteSize then .blocked
      else
        match disk.get? (here ++ [name]) with
        | none => .free (here ++ [name]) false
        | some e => .entry (here ++ [name]) e := by
  obtain ⟨hne, hdot, hdots, -⟩ := isEntryName_iff.1 hname
  rw [walkFrom, if_neg (not_or.2 ⟨hne, hdot⟩), if_neg hdots]
  by_cases hlong : 255 < name.utf8ByteSize
  · rw [if_pos hlong, if_pos hlong]
  · rw [if_neg hlong, if_neg hlong]
    cases hentry : disk.get? (here ++ [name]) with
    | none => rfl
    | some e =>
        cases e with
        | dir mode => simp only [walkFrom, hentry]
        | file => rfl
        | device => rfl
        | link target =>
            cases followLast with
            | false => rfl
            | true => exact absurd hentry (hlast rfl target)

/-- Whether a text is no path at all, because of its length or a NUL in it. -/
def unusable (path : Path) : Bool := path.chars.contains '\x00' || 4096 ≤ path.text.utf8ByteSize

/-- A text that is no path is none with a relative path behind it either. -/
theorem unusable_join {p q : Path} (hq : q.isAbsolute = false) (h : unusable p = true) :
    unusable (p.join q) = true := by
  have hextends : ∃ rest : String, (p.join q).text = p.text ++ rest := by
    rw [Path.join, hq, if_neg Bool.false_ne_true]
    split_ifs
    · exact ⟨_, rfl⟩
    · exact ⟨"/" ++ q.text, String.append_assoc ..⟩
  obtain ⟨rest, hrest⟩ := hextends
  rw [unusable, Bool.or_eq_true, List.contains_iff_mem, decide_eq_true_iff] at h ⊢
  rw [Path.chars, hrest, String.toList_append, String.utf8ByteSize_append]
  obtain hnul | hlong := h
  · exact Or.inl (List.mem_append_left _ hnul)
  · exact Or.inr (Nat.le_add_right_of_le hlong)

/-- **The way to an entry** of a directory that a path leads to: if neither the path nor the name is
too long, it leads to what is at that name. -/
theorem LeadsTo.find_join (h : disk.LeadsTo dir home) (hname : isEntryName name = true)
    (hl : disk.Unlinked (home ++ [name])) (followLast : Bool) :
    disk.find followLast (dir.join ⟨name⟩) =
      if unusable (dir.join ⟨name⟩) then .blocked
      else if 255 < name.utf8ByteSize then .blocked
      else
        match disk.get? (home ++ [name]) with
        | none => .free (home ++ [name]) false
        | some e => .entry (home ++ [name]) e := by
  obtain ⟨ps, zs, hdir, hz, hps⟩ := Path.pieces_join hname dir
  obtain ⟨mode, hhome⟩ := h disk (.refl home disk)
  rw [follow, hdir] at hhome
  obtain ⟨atLink, hrest⟩ := walk_append hz 40 _ ps hhome
  rw [find, if_neg (Path.text_join_ne hname dir)]
  by_cases hun : unusable (dir.join ⟨name⟩) = true
  · rw [if_pos hun]
    exact if_pos hun
  rw [if_neg hun]
  refine (if_neg hun).trans ?_
  rw [Path.isAbsolute_join hname dir, hps, hrest followLast _ (by simp),
    walkFrom_last hname fun _ => hl]

/-- A directory of `home`, if it is there: what is at its name is no symbolic link. -/
structure HasArea (disk : Disk) (dir : Path) (home : Place) (area : String) : Prop where
  leads : disk.LeadsTo dir home
  isName : isEntryName area = true
  short : area.utf8ByteSize ≤ 255
  unlinked : disk.Unlinked (home ++ [area])

/-- A change inside the directory keeps the area, if it makes no link of it. -/
theorem HasArea.congr (h : disk.HasArea dir home area) (hd : AgreeOutside home disk disk')
    (hu : disk'.Unlinked (home ++ [area])) : disk'.HasArea dir home area :=
  ⟨h.leads.congr hd, h.isName, h.short, hu⟩

/-- **The way to an area:** what is there, unless the path is too long to be followed. -/
theorem find_area (h : disk.HasArea dir home area) (followLast : Bool) :
    disk.find followLast (dir.join ⟨area⟩) =
      if unusable (dir.join ⟨area⟩) then .blocked
      else
        match disk.get? (home ++ [area]) with
        | none => .free (home ++ [area]) false
        | some e => .entry (home ++ [area]) e := by
  rw [h.leads.find_join h.isName h.unlinked, if_neg (Nat.not_lt.2 h.short)]

/-- The path of an entry of an area. -/
def entryPath (dir : Path) (area name : String) : Path := (dir.join ⟨area⟩).join ⟨name⟩

/-- The root directory's path leads there. -/
theorem leadsTo_root (disk : Disk) : disk.LeadsTo ⟨"/"⟩ [] := fun _ _ => ⟨_, rfl⟩

/-- **A path through real directories leads to the last one.** One step more is taken to an entry
that is a directory and no link. -/
theorem LeadsTo.join (h : disk.LeadsTo dir home) (hname : isEntryName name = true)
    (hshort : name.utf8ByteSize ≤ 255) (hdir : disk.IsDir (home ++ [name])) :
    disk.LeadsTo (dir.join ⟨name⟩) (home ++ [name]) := by
  intro disk' hd
  have houtside : AgreeOutside home disk disk' := by
    refine ⟨hd.current, fun p hp => hd.get? p fun hbelow => hp ?_⟩
    exact (below_append home name []).extend hbelow.1
  have hroot : disk'.get? (home ++ [name]) = disk.get? (home ++ [name]) :=
    hd.get? _ fun hbelow => hbelow.2 rfl
  obtain ⟨mode, hmode⟩ := hdir
  obtain ⟨ps, zs, hps, hz, hjoin⟩ := Path.pieces_join hname dir
  obtain ⟨_, hhome⟩ := h disk' houtside
  rw [follow, hps] at hhome
  obtain ⟨atLink, hrest⟩ := walk_append hz 40 _ ps hhome
  refine ⟨mode, ?_⟩
  rw [follow, Path.isAbsolute_join hname dir, hjoin, hrest true _ (by simp), walkFrom_last hname,
    if_neg (Nat.not_lt.2 hshort), hroot, hmode]
  exact fun _ => IsDir.unlinked ⟨mode, hroot.trans hmode⟩

/-- Where the path to an entry of an area leads, as far as two places of the disk tell. -/
def slot (disk : Disk) (home : Place) (path : Path) (area name : String) : Found :=
  if unusable path then .blocked
  else
    match disk.get? (home ++ [area]) with
    | none => .missing
    | some (.dir _) =>
      if 255 < name.utf8ByteSize then .blocked
      else
        match disk.get? (home ++ [area, name]) with
        | none => .free (home ++ [area, name]) false
        | some e => .entry (home ++ [area, name]) e
    | some _ => .blocked

/-- **The way to an entry of an area** is read off at two places of the disk, the area and the
entry, and does not depend on anything else in the cache. -/
theorem find_entryPath (h : disk.HasArea dir home area) (hname : isEntryName name = true)
    (followLast : Bool)
    (hlast : followLast = true → disk.Unlinked (home ++ [area, name])) :
    disk.find followLast (entryPath dir area name) =
      disk.slot home (entryPath dir area name) area name := by
  have hpath : home ++ [area] ++ [name] = home ++ [area, name] := by rw [List.append_assoc]; rfl
  obtain ⟨hne, hdot, hdots, -⟩ := isEntryName_iff.1 h.isName
  -- The pieces of the whole path are those of the directory and the two names.
  obtain ⟨ps, zs, hdir, hz, hps⟩ := Path.pieces_join h.isName dir
  obtain ⟨ps', zs', hps', hz', hwhole⟩ := Path.pieces_join hname (dir.join ⟨area⟩)
  obtain rfl : zs' = [] := by
    by_contra hzs
    rw [hps, ← List.dropLast_concat_getLast hzs, ← List.append_assoc] at hps'
    exact hne ((List.cons.inj (List.append_inj_right' hps' rfl)).1.trans
      (hz' _ (List.getLast_mem hzs)))
  rw [List.append_nil] at hps'
  rw [← hps', hps, List.append_assoc] at hwhole
  obtain ⟨mode, hhome⟩ := h.leads disk (.refl home disk)
  rw [follow, hdir] at hhome
  obtain ⟨atLink, hrest⟩ := walk_append hz 40 _ ps hhome
  have htext : (entryPath dir area name).text ≠ "" := Path.text_join_ne hname _
  rw [find, if_neg htext, slot]
  by_cases hun : unusable (entryPath dir area name) = true
  · rw [if_pos hun]
    exact if_pos hun
  rw [if_neg hun]
  refine (if_neg hun).trans ?_
  have hstart : (entryPath dir area name).isAbsolute = dir.isAbsolute :=
    (Path.isAbsolute_join hname _).trans (Path.isAbsolute_join h.isName dir)
  rw [hstart, entryPath, hwhole, hrest followLast _ (by simp), List.singleton_append, walkFrom,
    if_neg (not_or.2 ⟨hne, hdot⟩), if_neg hdots, if_neg (Nat.not_lt.2 h.short)]
  cases hentry : disk.get? (home ++ [area]) with
  | none => simp [(isEntryName_iff.1 hname).1]
  | some e =>
      cases e with
      | dir mode =>
          dsimp only
          rw [walkFrom_last hname (hpath ▸ hlast), hpath]
      | file => rfl
      | device => rfl
      | link target => exact absurd hentry (h.unlinked target)

/-- The area is a directory, and the path to an entry of it is short enough to be followed. -/
structure Reaches (disk : Disk) (home : Place) (dir : Path) (area name : String) : Prop where
  usable : unusable (entryPath dir area name) = false
  short : name.utf8ByteSize ≤ 255
  area : disk.IsDir (home ++ [area])

/-- The path of an entry can be followed as long as its area is a directory. -/
theorem Reaches.congr (h : disk.Reaches home dir area name)
    (ha : disk'.IsDir (home ++ [area])) :
    disk'.Reaches home dir area name := ⟨h.usable, h.short, ha⟩

/-- Where a path to an entry leads when it can be followed to the area. -/
theorem find_of_reaches (h : disk.HasArea dir home area) (hname : isEntryName name = true)
    (hr : disk.Reaches home dir area name) (followLast : Bool)
    (hlast : followLast = true → disk.Unlinked (home ++ [area, name])) :
    disk.find followLast (entryPath dir area name) =
      match disk.get? (home ++ [area, name]) with
      | none => .free (home ++ [area, name]) false
      | some e => .entry (home ++ [area, name]) e := by
  obtain ⟨mode, hmode⟩ := hr.area
  rw [find_entryPath h hname followLast hlast, slot, hr.usable, if_neg Bool.false_ne_true, hmode]
  exact if_neg (Nat.not_lt.2 hr.short)

/-- **The four ends of the way to an entry:** it is cut off for good, there is no area yet, or it
leads to a free name or to an entry of the area. -/
theorem find_cases (h : disk.HasArea dir home area) (hname : isEntryName name = true)
    (followLast : Bool)
    (hlast : followLast = true → disk.Unlinked (home ++ [area, name])) :
    (¬ disk.Reaches home dir area name ∧
        disk.find followLast (entryPath dir area name) = .blocked) ∨
      (disk.get? (home ++ [area]) = none ∧
        disk.find followLast (entryPath dir area name) = .missing) ∨
      (disk.Reaches home dir area name ∧ disk.get? (home ++ [area, name]) = none ∧
        disk.find followLast (entryPath dir area name) = .free (home ++ [area, name]) false) ∨
      (disk.Reaches home dir area name ∧ ∃ e, disk.get? (home ++ [area, name]) = some e ∧
        disk.find followLast (entryPath dir area name) = .entry (home ++ [area, name]) e) := by
  by_cases hr : disk.Reaches home dir area name
  · have hfind := find_of_reaches h hname hr followLast hlast
    cases hentry : disk.get? (home ++ [area, name]) with
    | none => exact Or.inr (Or.inr (Or.inl ⟨hr, rfl, by rw [hfind, hentry]⟩))
    | some e => exact Or.inr (Or.inr (Or.inr ⟨hr, e, rfl, by rw [hfind, hentry]⟩))
  rw [find_entryPath h hname followLast hlast, slot]
  by_cases hun : unusable (entryPath dir area name) = true
  · exact Or.inl ⟨hr, if_pos hun⟩
  rw [if_neg hun]
  cases harea : disk.get? (home ++ [area]) with
  | none => exact Or.inr (Or.inl ⟨rfl, rfl⟩)
  | some e =>
      refine Or.inl ⟨hr, ?_⟩
      cases e with
      | dir mode =>
          have hreaches := fun hshort => hr ⟨Bool.eq_false_iff.2 hun, hshort, mode, harea⟩
          exact if_pos (Nat.not_le.1 hreaches)
      | file => rfl
      | device => rfl
      | link => rfl

end Disk
end ProcessKit
