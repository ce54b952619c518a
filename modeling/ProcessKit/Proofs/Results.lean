/-
# Results

How a result that is no failure has come about: through all the steps, or through all the items of a
list. Otherwise the first failure decides.

The equivalences are for rewriting a hypothesis that something came out well into what its parts
came to. `mapM_eq_ok_iff` pairs the items of a list with their results, in order, and
`mapM_eq_error` is about a list in which some item fails: those before it came out well, and those
after it do not count.
-/

import Mathlib.Data.List.Forall2

namespace ProcessKit

variable {ε α β : Type} {f : α → Except ε β}

/-- A result that gives a value came out well. -/
theorem eq_ok_of_toOption {result : Except ε α} {x : α} (h : result.toOption = some x) :
    result = .ok x := by
  cases result with
  | error error => cases h
  | ok y => exact congrArg Except.ok (Option.some.inj h)

/-- Applying a function to a result comes out well exactly when the result did. -/
theorem map_eq_ok_iff {result : Except ε α} {g : α → β} {y : β} :
    result.map g = .ok y ↔ ∃ x, result = .ok x ∧ g x = y := by
  cases result <;> simp [Except.map]

/-- Changing the error of a result changes nothing of one that came out well. -/
theorem mapError_eq_ok_iff {ε' : Type} {result : Except ε α} {g : ε → ε'} {x : α} :
    result.mapError g = .ok x ↔ result = .ok x := by
  cases result <;> simp [Except.mapError]

/-- One step after another comes out well exactly when both do: the second on what the first one
gave. -/
theorem bind_eq_ok_iff {result : Except ε α} {y : β} :
    (result >>= f) = .ok y ↔ ∃ x, result = .ok x ∧ f x = .ok y := by
  cases result <;> simp [bind, Except.bind]

/-- What every step keeps, a fold that succeeds keeps. -/
theorem foldlM_keeps {I : β → Prop} {step : β → α → Except ε β} {xs : List α}
    (hstep : ∀ x ∈ xs, ∀ y y', I y → step y x = .ok y' → I y') {y y' : β} (h : I y)
    (hfold : xs.foldlM step y = .ok y') : I y' := by
  induction xs generalizing y with
  | nil =>
      obtain rfl := Except.ok.inj hfold
      exact h
  | cons x xs ih =>
      rw [List.foldlM_cons, bind_eq_ok_iff] at hfold
      obtain ⟨next, hnext, hrest⟩ := hfold
      exact ih (fun x hx => hstep x (List.mem_cons_of_mem _ hx))
        (hstep x (List.mem_cons_self ..) y next h hnext) hrest

/-- **Success item by item:** a list comes out well exactly if each item does, and the results are
those of the items, in order. -/
theorem mapM_eq_ok_iff {xs : List α} {ys : List β} :
    xs.mapM f = .ok ys ↔ List.Forall₂ (fun x y => f x = .ok y) xs ys := by
  induction xs generalizing ys with
  | nil => cases ys <;> simp [pure, Except.pure]
  | cons x xs ih =>
      rw [List.mapM_cons]
      cases hx : f x with
      | error error => cases ys <;> simp [bind, Except.bind, hx]
      | ok y =>
          cases hxs : xs.mapM f with
          | error error => cases ys <;> simp [bind, Except.bind, ← ih, hxs, hx]
          | ok rest => cases ys <;> simp [bind, Except.bind, pure, Except.pure, ← ih, hxs, hx]

/-- What succeeds on every item succeeds on the list. -/
theorem exists_mapM {xs : List α} (h : ∀ x ∈ xs, ∃ y, f x = .ok y) : ∃ ys, xs.mapM f = .ok ys := by
  induction xs with
  | nil => exact ⟨[], rfl⟩
  | cons x xs ih =>
      obtain ⟨y, hy⟩ := h x (List.mem_cons_self ..)
      obtain ⟨ys, hys⟩ := ih fun x' hx' => h x' (List.mem_cons_of_mem _ hx')
      exact ⟨y :: ys, mapM_eq_ok_iff.2 (.cons hy (mapM_eq_ok_iff.1 hys))⟩

/-- **The first failure decides.** The items before it came out well, and what comes after it is not
looked at. -/
theorem mapM_eq_error {before after : List α} {x : α} {error : ε}
    (h : ∀ x ∈ before, ∃ y, f x = .ok y) (hx : f x = .error error) :
    (before ++ x :: after).mapM f = .error error := by
  induction before with
  | nil => rw [List.nil_append, List.mapM_cons, hx]; rfl
  | cons x' before ih =>
      obtain ⟨y, hy⟩ := h x' (List.mem_cons_self ..)
      rw [List.cons_append, List.mapM_cons, hy, ih fun x hx => h x (List.mem_cons_of_mem _ hx)]
      rfl

/-- An item of a list is related to one of the list that is related to it item by item. -/
theorem exists_of_forall₂ {R : α → β → Prop} {xs : List α} {ys : List β}
    (h : List.Forall₂ R xs ys) {x : α} (hx : x ∈ xs) : ∃ y ∈ ys, R x y := by
  induction h with
  | nil => exact absurd hx List.not_mem_nil
  | @cons x' y xs' ys' hy hrest ih =>
      obtain rfl | hx := List.mem_cons.1 hx
      · exact ⟨y, List.mem_cons_self .., hy⟩
      · obtain ⟨y', hmem, hy'⟩ := ih hx
        exact ⟨y', List.mem_cons_of_mem _ hmem, hy'⟩

/-- Each element that was gone through has its result among the results, in a run that came out
well. -/
theorem exists_of_mapM {xs : List α} {ys : List β} (h : xs.mapM f = .ok ys) {x : α} (hx : x ∈ xs) :
    ∃ y ∈ ys, f x = .ok y := exists_of_forall₂ (mapM_eq_ok_iff.1 h) hx

end ProcessKit
