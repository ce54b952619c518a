/-
# What is read from a JSON text is ordered

The reader puts the members of an object in one by one, each at its place, so that every value it
gives is `Ordered`, whatever the text looks like (`ordered_parse`). `ReadsOrdered` is the invariant:
it is carried from one amount of fuel to the next by one lemma for each of the three readers.

The readers call each other with less fuel: that of a value those of items and of members, and these
the one of a value. So the three statements are proved together, by induction on the fuel, and each
of the lemmas takes all three for what comes with less. A value that is read without fuel is none,
so there is nothing to show in the first case.
-/

import ProcessKit.Json.Reader
import ProcessKit.Proofs.Json.Members
import ProcessKit.Proofs.Results

namespace ProcessKit
namespace Json

/-- An ordered object stays so when an ordered value is inserted. -/
theorem ordered_insert {members : Members} {v : Json} (h : (Json.object members).Ordered)
    (hv : v.Ordered) (name : String) : (Json.object (members.insert name v)).Ordered := by
  refine ⟨h.1.insert name v, membersOrdered_iff.2 fun member hmem => ?_⟩
  obtain hnew | hold := Members.mem_insert hmem
  · exact (Prod.mk.inj hnew).2 ▸ hv
  · exact membersOrdered_iff.1 h.2 member hold

/-- The empty object is ordered. -/
theorem ordered_nil : (Json.object []).Ordered := ⟨List.Pairwise.nil, trivial⟩

/-- **An object put together from pairs** is ordered if their values are. The pairs may come in any
order, and a name may be there twice. -/
theorem ordered_ofMembers {pairs : List (String × Json)} (h : MembersOrdered pairs) :
    (ofMembers pairs).Ordered := by
  refine List.foldlRecOn (motive := fun members => (Json.object members).Ordered) pairs _
    ordered_nil fun members hmembers pair hpair => ?_
  exact ordered_insert hmembers (membersOrdered_iff.1 h pair hpair) pair.1

/-- A literal is read as the value that it stands for, or not at all. -/
theorem eq_of_readLiteral {value v : Json} {expected cs rest : List Char}
    (h : readLiteral value expected cs = .ok (v, rest)) : v = value := by
  induction expected generalizing cs with
  | nil => exact (Prod.mk.inj (Except.ok.inj h)).1.symm
  | cons e expected ih =>
      cases cs with
      | nil => exact absurd h (by simp [readLiteral])
      | cons c cs =>
          rw [readLiteral] at h
          split_ifs at h
          exact ih h

/-- Literals and numbers are ordered, having nothing in them. -/
theorem ordered_readScalar {c : Char} {cs rest : List Char} {v : Json}
    (h : readScalar c cs = .ok (v, rest)) : v.Ordered := by
  have hmap {α : Type} {result : Except Fault α} {f : α → Json × List Char}
      (hf : ∀ x, (f x).1.Ordered) (h : result.map f = .ok (v, rest)) : v.Ordered := by
    obtain ⟨x, -, heq⟩ := map_eq_ok_iff.1 h
    have hx := hf x
    rwa [heq] at hx
  rw [readScalar] at h
  split_ifs at h
  · exact eq_of_readLiteral h ▸ trivial
  · exact eq_of_readLiteral h ▸ trivial
  · exact eq_of_readLiteral h ▸ trivial
  · exact hmap (fun ⟨_, _⟩ => trivial) h
  · exact hmap (fun ⟨_, _⟩ => trivial) h
  · exact hmap (fun ⟨_, _⟩ => trivial) h

/-- **What is read with some fuel is ordered,** given that the members before it are. -/
structure ReadsOrdered (fuel : Nat) : Prop where
  value : ∀ {depth cs v rest}, readValue fuel depth cs = .ok (v, rest) → v.Ordered
  items : ∀ {depth cs items rest}, readItems fuel depth cs = .ok (items, rest) → AllOrdered items
  members : ∀ {depth before cs members rest}, (Json.object before).Ordered →
    readMembers fuel depth before cs = .ok (members, rest) → (Json.object members).Ordered

variable {fuel depth : Nat} {cs rest : List Char}

/-- A value is read ordered, if what is inside it is with less fuel. -/
theorem ReadsOrdered.value_succ (ih : ReadsOrdered fuel) {v : Json}
    (h : readValue (fuel + 1) depth cs = .ok (v, rest)) : v.Ordered := by
  rw [readValue] at h
  split at h
  · cases h
  · split_ifs at h
    · split at h
      · cases h
        trivial
      · cases h
      · obtain ⟨⟨items, left⟩, hitems, heq⟩ := map_eq_ok_iff.1 h
        exact (Prod.mk.inj heq).1 ▸ ih.items hitems
    · split at h
      · cases h
        exact ordered_nil
      · cases h
      · obtain ⟨⟨members, left⟩, hmembers, heq⟩ := map_eq_ok_iff.1 h
        exact (Prod.mk.inj heq).1 ▸ ih.members ordered_nil hmembers
    · exact ordered_readScalar h

/-- Items are read ordered, the first one as a value and the others with less fuel. -/
theorem ReadsOrdered.items_succ (ih : ReadsOrdered fuel) {items : List Json}
    (h : readItems (fuel + 1) depth cs = .ok (items, rest)) : AllOrdered items := by
  rw [readItems] at h
  obtain ⟨⟨v, left⟩, hv, h⟩ := bind_eq_ok_iff.1 h
  have hfirst := ih.value hv
  dsimp only at h
  split at h
  · cases h
  · cases h
    exact ⟨hfirst, trivial⟩
  · split at h
    · cases h
    · cases h
    · obtain ⟨⟨others, left⟩, hothers, h⟩ := bind_eq_ok_iff.1 h
      cases h
      exact ⟨hfirst, ih.items hothers⟩
  · cases h

/-- Members are read ordered on top of ordered ones: each is inserted at its place. -/
theorem ReadsOrdered.members_succ (ih : ReadsOrdered fuel) {before members : Members}
    (hbefore : (Json.object before).Ordered)
    (h : readMembers (fuel + 1) depth before cs = .ok (members, rest)) :
    (Json.object members).Ordered := by
  -- Each equation of the reader is about one kind of first character; unfolded, it is one match.
  unfold readMembers at h
  dsimp only at h
  split at h
  · obtain ⟨⟨name, left⟩, -, h⟩ := bind_eq_ok_iff.1 h
    dsimp only at h
    split at h
    · cases h
    · obtain ⟨⟨v, left⟩, hv, h⟩ := bind_eq_ok_iff.1 h
      have hmore := ordered_insert hbefore (ih.value hv) name
      dsimp only at h
      split at h
      · cases h
      · cases h
        exact hmore
      · split at h
        · cases h
        · cases h
        · exact ih.members hmore h
      · cases h
    · cases h
  · cases h

/-- **Whatever is read is ordered,** by induction on the fuel of the reader. -/
theorem readsOrdered (fuel : Nat) : ReadsOrdered fuel := by
  induction fuel with
  | zero => constructor <;> simp [readValue, readItems, readMembers]
  | succ fuel ih => exact ⟨ih.value_succ, ih.items_succ, ih.members_succ⟩

/-- **The value of a JSON text** is ordered, so every object in it has each name once and its
members sorted. -/
theorem ordered_parse {text : String} {v : Json} (h : parse text = .ok v) : v.Ordered := by
  rw [parse] at h
  cases hchars : parseChars text.toList with
  | error fault =>
      rw [hchars] at h
      exact absurd h (by simp [Except.mapError])
  | ok v' =>
      rw [hchars] at h
      obtain rfl := Except.ok.inj h
      rw [parseChars, readWhole] at hchars
      obtain ⟨⟨v'', left⟩, hv, h⟩ := bind_eq_ok_iff.1 hchars
      dsimp only at h
      split at h
      · cases h
        exact (readsOrdered _).value hv
      · cases h

end Json
end ProcessKit
