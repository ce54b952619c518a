/-
# Disks that look alike

A disk is kept as a list of entries, and two lists may show the same. `Disk.Alike` says that two
disks show the same entry at every place. Paths lead to the same on them (`Alike.find`), and each
operation answers the same on both and leaves alike disks behind: writing (`Alike.writeFile?`),
renaming (`Alike.rename?`) and making directories (`Alike.makeDirs`). Removing a tree is another
matter, since how far a refused removal comes depends on the order of the list.

Two disks come to differ as lists when one of them has seen an attempt that was undone: what was set
and erased again leaves no entry, but what was set once more stands at another position. No
operation but a removal can tell the difference. They all go by the walk along a path, which asks
for the entry at one place after the other, and `get?_of_find_free` sees to the last case that needs
an argument: where a path leads to a free place, there is nothing at it on either disk.
-/

import ProcessKit.Proofs.Disk.Ways

namespace ProcessKit

namespace Disk

variable {disk disk' : Disk} {place source target : Place} {path : Path}

/-- Two disks that show the same. -/
structure Alike (disk disk' : Disk) : Prop where
  current : disk'.current = disk.current
  get? : disk'.get? = disk.get?

/-- A free name is one where there is nothing, given that this holds behind a link. -/
theorem get?_of_walkFrom_free {followLast : Bool} {atLink : AtLink} {slash : Bool}
    (hlink : ∀ start xs, atLink start xs = .free place slash → disk.get? place = none)
    {here : Place} {steps : List String}
    (h : disk.walkFrom followLast atLink here steps = .free place slash) :
    disk.get? place = none := by
  induction steps generalizing here with
  | nil =>
      rw [walkFrom] at h
      split at h <;> exact absurd h (by simp)
  | cons step rest ih =>
      rw [walkFrom] at h
      by_cases hstay : step = "" ∨ step = "."
      · exact ih (if_pos hstay ▸ h)
      by_cases hup : step = ".."
      · rw [if_neg hstay, if_pos hup] at h
        exact ih h
      by_cases hlong : 255 < step.utf8ByteSize
      · rw [if_neg hstay, if_neg hup, if_pos hlong] at h
        exact absurd h (by simp)
      rw [if_neg hstay, if_neg hup, if_neg hlong] at h
      split at h
      · rename_i hentry
        split at h
        · obtain ⟨rfl, -⟩ := Found.free.inj h
          exact hentry
        · exact absurd h (by simp)
      · exact ih h
      · split at h
        · exact absurd h (by simp)
        · split at h
          · exact absurd h (by simp)
          · exact hlink _ _ h
      · split at h <;> exact absurd h (by simp)

/-- A way that ends at a free name ends where there is nothing, however many links it goes through.
-/
theorem get?_of_walk_free {followLast slash : Bool} {links : Nat} {here : Place}
    {steps : List String} (h : disk.walk followLast links here steps = .free place slash) :
    disk.get? place = none := by
  induction links generalizing here steps with
  | zero => exact get?_of_walkFrom_free (fun _ _ hblocked => absurd hblocked (by simp)) h
  | succ links ih => exact get?_of_walkFrom_free (fun _ _ hlink => ih hlink) h

/-- **A free name** is one where there is nothing. -/
theorem get?_of_find_free {followLast slash : Bool}
    (h : disk.find followLast path = .free place slash) : disk.get? place = none := by
  rw [find] at h
  split at h
  · exact absurd h (by simp)
  split at h
  · exact absurd h (by simp)
  · exact get?_of_walk_free h

/-- The root is always there. -/
theorem ne_nil_of_get? (h : disk.get? place = none) : place ≠ [] := by
  rintro rfl
  exact absurd h (by rw [get?_nil]; simp)

/-! ### The three changes -/

/-- Setting the same entry keeps disks alike. -/
theorem Alike.set (h : Alike disk disk') (hne : place ≠ []) (entry : Entry) :
    Alike (disk.set place entry) (disk'.set place entry) := by
  refine ⟨h.current, funext fun p => ?_⟩
  rw [get?_set hne, get?_set hne, h.get?]

/-- Moving the tree from and to the same places keeps disks alike. -/
theorem Alike.moveTree (h : Alike disk disk') (hs : source ≠ []) (ht : target ≠ []) :
    Alike (disk.moveTree source target) (disk'.moveTree source target) := by
  refine ⟨h.current, funext fun p => ?_⟩
  rw [get?_moveTree hs ht, get?_moveTree hs ht, h.get?]

/-! ### Where a path leads -/

/-- **Paths lead to the same** on alike disks. A walk asks for the entry at each place that it comes
to, and for nothing else. -/
theorem Alike.find (h : Alike disk disk') : disk'.find = disk.find := by
  have hfrom : ∀ followLast atLink steps here,
      disk'.walkFrom followLast atLink here steps = disk.walkFrom followLast atLink here steps := by
    intro followLast atLink steps
    induction steps with
    | nil => exact fun here => by rw [walkFrom, walkFrom, h.get?]
    | cons step rest ih => exact fun here => by simp only [walkFrom, h.get?, ih]
  have hwalk : ∀ followLast links, disk'.walk followLast links = disk.walk followLast links := by
    intro followLast links
    induction links with
    | zero => exact funext fun here => funext fun steps => hfrom followLast _ steps here
    | succ links ih =>
        funext here steps
        rw [walk, walk, ih]
        exact hfrom followLast _ steps here
  funext followLast path
  rw [Disk.find, Disk.find, hwalk, h.current]

/-- The same kinds of things are seen on alike disks. -/
theorem Alike.kind? (h : Alike disk disk') : disk'.kind? = disk.kind? := by
  funext path
  rw [Disk.kind?, Disk.kind?, h.find]

/-- The same bytes are read on alike disks. -/
theorem Alike.readFile? (h : Alike disk disk') : disk'.readFile? = disk.readFile? := by
  funext path
  rw [Disk.readFile?, Disk.readFile?, h.find]

/-- Directories are empty on both of two alike disks or on none. -/
theorem Alike.children_isEmpty (h : Alike disk disk') (place : Place) :
    (disk'.children place).isEmpty = (disk.children place).isEmpty := by
  rw [Bool.eq_iff_iff, Disk.children_isEmpty, Disk.children_isEmpty, h.get?]

/-! ### The operations -/

/-- **Writing a file** is refused on both of two alike disks, or keeps them alike. Where the path
leads decides, and that is the same on both. -/
theorem Alike.writeFile? (h : Alike disk disk') (path : Path) (bytes : Bytes) :
    Option.Rel Alike (disk.writeFile? path bytes) (disk'.writeFile? path bytes) := by
  rw [Disk.writeFile?, Disk.writeFile?, h.find]
  cases hfind : disk.find true path with
  | entry place e =>
      cases e with
      | file old mode =>
          refine .some (h.set ?_ _)
          rintro rfl
          exact absurd (get?_of_find hfind) (by rw [get?_nil]; simp)
      | device => exact .some h
      | dir => exact .none
      | link => exact .none
  | free place slash =>
      cases slash with
      | false => exact .some (h.set (ne_nil_of_get? (get?_of_find_free hfind)) _)
      | true => exact .none
  | missing => exact .none
  | blocked => exact .none

/-- Moving a tree that is not above its new place. -/
theorem Alike.moveTree_of_not_prefix (h : Alike disk disk') (ht : target ≠ [])
    (hp : source.isPrefixOf target = false) :
    Alike (disk.moveTree source target) (disk'.moveTree source target) := by
  refine h.moveTree ?_ ht
  rintro rfl
  exact absurd hp (by simp)

/-- **Renaming** is refused on both of two alike disks, or keeps them alike. Whether a directory
that is replaced is empty can be seen on both. -/
theorem Alike.rename? (h : Alike disk disk') (source target : Path) :
    Option.Rel Alike (disk.rename? source target) (disk'.rename? source target) := by
  rw [Disk.rename?, Disk.rename?, h.find]
  cases hsource : disk.find false source with
  | entry here e =>
      cases htarget : disk.find false target with
      | free there slash =>
          have hthere := ne_nil_of_get? (get?_of_find_free htarget)
          dsimp only
          cases hp : here.isPrefixOf there with
          | true => exact .none
          | false =>
              have hmoved := h.moveTree_of_not_prefix hthere hp
              cases e with
              | dir => exact .some hmoved
              | file | link | device =>
                  cases slash with
                  | true => exact .none
                  | false => exact .some hmoved
      | entry there e' =>
          dsimp only
          by_cases hsame : here = there
          · rw [if_pos hsame, if_pos hsame]
            exact .some h
          rw [if_neg hsame, if_neg hsame]
          cases hp : here.isPrefixOf there with
          | true => exact .none
          | false =>
              have hthere : there = [] → ∃ mode, e' = .dir mode := by
                rintro rfl
                exact ⟨_, (Option.some.inj (get?_of_find htarget)).symm⟩
              have hmoved := fun hne => h.moveTree_of_not_prefix hne hp
              rw [if_neg Bool.false_ne_true, if_neg Bool.false_ne_true]
              cases e with
              | dir =>
                  cases e' with
                  | dir =>
                      dsimp only
                      rw [h.children_isEmpty]
                      cases hempty : (disk.children there).isEmpty && there != [] with
                      | true =>
                          rw [if_pos rfl, if_pos rfl]
                          exact .some (hmoved (bne_iff_ne.1 (Bool.and_eq_true_iff.1 hempty).2))
                      | false => exact .none
                  | file | link | device => exact .none
              | file | link | device =>
                  cases e' with
                  | dir => exact .none
                  | file | link | device =>
                      refine .some (hmoved fun hnil => ?_)
                      obtain ⟨mode, hmode⟩ := hthere hnil
                      exact absurd hmode (by simp)
      | missing => exact .none
      | blocked => exact .none
  | free => exact .none
  | missing => exact .none
  | blocked => exact .none

/-- Making one directory: the answer is the same, and what was made looks alike. -/
theorem Alike.makeDir (h : Alike disk disk') (path : Path) :
    (∃ made made', disk.makeDir path = .made made ∧ disk'.makeDir path = .made made' ∧
      Alike made made') ∨
    (disk.makeDir path = .noParent ∧ disk'.makeDir path = .noParent) ∨
    (disk.makeDir path = .refused ∧ disk'.makeDir path = .refused) := by
  rw [Disk.makeDir, Disk.makeDir, h.find]
  cases hfind : disk.find false path.withoutFinalSlashes with
  | free place slash =>
      exact Or.inl ⟨_, _, rfl, rfl, h.set (ne_nil_of_get? (get?_of_find_free hfind)) _⟩
  | missing => exact Or.inr (Or.inl ⟨rfl, rfl⟩)
  | entry => exact Or.inr (Or.inr ⟨rfl, rfl⟩)
  | blocked => exact Or.inr (Or.inr ⟨rfl, rfl⟩)

/-- **Making directories** has the same success on two alike disks, and keeps them alike even if it
stops half way. -/
theorem Alike.makeDirs (h : Alike disk disk') (fuel : Nat) (path : Path) :
    (disk'.makeDirs fuel path).1 = (disk.makeDirs fuel path).1 ∧
      Alike (disk.makeDirs fuel path).2 (disk'.makeDirs fuel path).2 := by
  induction fuel generalizing disk disk' path with
  | zero => exact ⟨rfl, h⟩
  | succ fuel ih =>
      rw [Disk.makeDirs, Disk.makeDirs]
      by_cases hempty : path.text = ""
      · rw [if_pos hempty, if_pos hempty]
        exact ⟨rfl, h⟩
      rw [if_neg hempty, if_neg hempty]
      obtain ⟨made, made', hd, hd', hmade⟩ | ⟨hd, hd'⟩ | ⟨hd, hd'⟩ := h.makeDir path
      · rw [hd, hd']
        exact ⟨rfl, hmade⟩
      · rw [hd, hd']
        dsimp only
        cases path.parent? with
        | none => exact ⟨rfl, h⟩
        | some parent =>
            dsimp only
            obtain ⟨hok, halike⟩ := ih h parent
            rw [hok]
            cases (disk.makeDirs fuel parent).1 with
            | false => exact ⟨rfl, halike⟩
            | true =>
                rw [Bool.not_true, if_neg Bool.false_ne_true, if_neg Bool.false_ne_true]
                -- The directory itself, now that those above it have been made.
                obtain ⟨made, made', hd, hd', hmade⟩ | ⟨hd, hd'⟩ | ⟨hd, hd'⟩ := halike.makeDir path
                · rw [hd, hd']
                  exact ⟨rfl, hmade⟩
                · rw [hd, hd', halike.kind?]
                  exact ⟨rfl, halike⟩
                · rw [hd, hd', halike.kind?]
                  exact ⟨rfl, halike⟩
      · rw [hd, hd', h.kind?]
        exact ⟨rfl, h⟩

end Disk
end ProcessKit
