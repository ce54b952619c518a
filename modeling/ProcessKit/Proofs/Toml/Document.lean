/-
# Documents of tables

A document that opens tables of different names one after the other, each with values of different
names, is the list of these tables in order (`run_tables`, `parse_of_says`).

The reader of a document keeps a tree of nodes and puts in one statement after the other, and most
of what can go wrong there is about a name that is there already. For documents of this kind nothing
is ever there already: a header makes a new node at the end of the tree (`openTable_of_not_mem`),
and an assignment a new value in the node that was opened last (`assignIn_of_not_mem`). So the tree
is the list of what was said, and `node` turns a table of that list into what the tree holds for it.
-/

import Mathlib.Tactic.SplitIfs
import ProcessKit.Proofs.Toml.Printer

namespace ProcessKit
namespace Toml

namespace Node

variable {name : String} {node : Node} {members : Members}

/-- A name that no member has is not found. -/
theorem find?_of_not_mem (h : name ∉ members.map (·.1)) : find? name members = none := by
  induction members with
  | nil => rfl
  | cons member members ih =>
      rw [List.map_cons, List.mem_cons, not_or] at h
      rw [find?, List.find?_cons_of_neg (by simpa using Ne.symm h.1)]
      exact ih h.2

/-- A member that was added under a new name is found under it. -/
theorem find?_append_of_not_mem (h : name ∉ members.map (·.1)) :
    find? name (members ++ [(name, node)]) = some node := by
  induction members with
  | nil => simp [find?]
  | cons member members ih =>
      rw [List.map_cons, List.mem_cons, not_or] at h
      rw [List.cons_append, find?, List.find?_cons_of_neg (by simpa using Ne.symm h.1)]
      exact ih h.2

/-- Putting a node under a new name adds it behind the other members. -/
theorem put_of_not_mem (h : name ∉ members.map (·.1)) :
    put name node members = members ++ [(name, node)] := by
  induction members with
  | nil => rfl
  | cons member members ih =>
      rw [List.map_cons, List.mem_cons, not_or] at h
      rw [put, if_neg (by simpa using Ne.symm h.1), ih h.2]
      rfl

/-- Putting a node under the name that was added last replaces that one, where it stands. -/
theorem put_append_of_not_mem {other : Node} (h : name ∉ members.map (·.1)) :
    put name other (members ++ [(name, node)]) = members ++ [(name, other)] := by
  induction members with
  | nil => simp [put]
  | cons member members ih =>
      rw [List.map_cons, List.mem_cons, not_or] at h
      rw [List.cons_append, put, if_neg (by simpa using Ne.symm h.1), ih h.2]
      rfl

/-- A header opens a table behind the others, if its name is free. -/
theorem openTable_of_not_mem (h : name ∉ members.map (·.1)) :
    openTable [name] members = some (members ++ [(name, .table .header [])]) := by
  rw [openTable, List.getLast?_singleton, List.dropLast_singleton]
  dsimp only
  rw [change, find?_of_not_mem h, put_of_not_mem h]

/-- A value is assigned behind the others, if its name is free. -/
theorem assign_of_not_mem {v : Value} (h : name ∉ members.map (·.1)) :
    assign [name] v members = some (members ++ [(name, .value v)]) := by
  have hfree : ¬ ((Origin.header = Origin.dotted) ≠ (([] : List String) ≠ []) ∨
      (find? name members).isSome) := by
    simp [find?_of_not_mem h]
  exact (if_neg hfree).trans (congrArg some (put_of_not_mem h))

/-- An assignment adds to the table opened last, if its name is free there. -/
theorem assignIn_of_not_mem {key : String} {v : Value} {inner : Members}
    (h : name ∉ members.map (·.1)) (hkey : key ∉ inner.map (·.1)) :
    assignIn [name] [key] v (members ++ [(name, .table .header inner)]) =
      some (members ++ [(name, .table .header (inner ++ [(key, .value v)]))]) := by
  rw [assignIn, change, find?_append_of_not_mem h]
  dsimp only
  rw [if_neg (by simp), change, assign_of_not_mem hkey, Option.map_some, put_append_of_not_mem h]

end Node

/-- A table of values, with its name. -/
abbrev FlatTable := String × List (String × Value)

namespace FlatTable

/-- The statements of a table: its header, and an assignment for each of its values. -/
def statements (table : FlatTable) : List Statement :=
  .openTable [table.1] :: table.2.map fun (key, v) => .assign [key] v

/-- The table as it is built. -/
def node (table : FlatTable) : String × Node :=
  (table.1, .table .header (table.2.map fun (key, v) => (key, .value v)))

end FlatTable

/-- The assignments below a header fill its table. -/
theorem run_assignments {name : String} {root : Node.Members} {values : List (String × Value)}
    (inner : Node.Members) (hname : name ∉ root.map (·.1))
    (hvalues : (inner.map (·.1) ++ values.map (·.1)).Nodup) (rest : List Statement) :
    Statement.run [name] (root ++ [(name, .table .header inner)])
        (values.map (fun (key, v) => Statement.assign [key] v) ++ rest) =
      Statement.run [name] (root ++
        [(name, .table .header (inner ++ values.map fun (key, v) => (key, .value v)))]) rest := by
  induction values generalizing inner with
  | nil => simp
  | cons value values ih =>
      obtain ⟨key, v⟩ := value
      have hkey : key ∉ inner.map (·.1) := by
        intro hmem
        rw [List.map_cons, List.nodup_append] at hvalues
        exact hvalues.2.2 key hmem key List.mem_cons_self rfl
      rw [List.map_cons, List.cons_append, Statement.run, Node.assignIn_of_not_mem hname hkey]
      have hrest : ((inner ++ [(key, Node.value v)]).map (·.1) ++ values.map (·.1)).Nodup := by
        simpa using hvalues
      rw [Option.bind_some, ih _ hrest]
      simp

/-- **Tables of different names** are carried out to themselves, behind those there are: by
induction on the tables, each of which opens a new node. -/
theorem run_tables {tables : List FlatTable} {root : Node.Members}
    (hnames : (root.map (·.1) ++ tables.map (·.1)).Nodup)
    (hvalues : ∀ table ∈ tables, (table.2.map (·.1)).Nodup) (opened : List String) :
    Statement.run opened root (tables.flatMap FlatTable.statements) =
      some (root ++ tables.map FlatTable.node) := by
  induction tables generalizing root opened with
  | nil => simp [Statement.run]
  | cons table tables ih =>
      obtain ⟨name, values⟩ := table
      obtain ⟨hhead, hrest⟩ := List.forall_mem_cons.1 hvalues
      have hname : name ∉ root.map (·.1) := by
        intro hmem
        rw [List.map_cons, List.nodup_append] at hnames
        exact hnames.2.2 name hmem name List.mem_cons_self rfl
      have hfilled := run_assignments [] hname hhead
        (tables.flatMap FlatTable.statements)
      rw [List.flatMap_cons, FlatTable.statements, List.cons_append, Statement.run,
        Node.openTable_of_not_mem hname, Option.bind_some, hfilled, ih _ hrest]
      · simp [FlatTable.node]
      · simpa using hnames

/-- What the tables of a document stand for. -/
theorem membersToValue_nodes (tables : List FlatTable) :
    Node.membersToValue (tables.map FlatTable.node) =
      tables.map fun table => (table.1, .table table.2) := by
  have hvalues (values : List (String × Value)) :
      Node.membersToValue (values.map fun (key, v) => (key, .value v)) = values := by
    induction values with
    | nil => rfl
    | cons value values ih =>
        rw [List.map_cons, Node.membersToValue, ih]
        rfl
  induction tables with
  | nil => rfl
  | cons table tables ih =>
      rw [List.map_cons, FlatTable.node, Node.membersToValue, ih, Node.toValue, hvalues]
      rfl

/-- No text that says anything starts with a byte order mark. -/
theorem Says.head?_ne_mark {cs : List Char} {statements : List Statement} (h : Says cs statements) :
    cs.head? ≠ some '\uFEFF' := by
  intro hhead
  obtain ⟨rest, rfl⟩ := List.head?_eq_some_iff.1 hhead
  have hnone : statements? (rest.length + 2) ('\uFEFF' :: rest) = none := rfl
  exact absurd (hnone.symm.trans (h _ (by simp))) (by simp)

/-- **A text that says tables** of different names is read as these tables. -/
theorem parse_of_says {text : String} {tables : List FlatTable}
    (h : Says text.toList (tables.flatMap FlatTable.statements))
    (hnames : (tables.map (·.1)).Nodup)
    (hvalues : ∀ table ∈ tables, (table.2.map (·.1)).Nodup) :
    parse text = .ok (tables.map fun table => (table.1, .table table.2)) := by
  have hrun : Statement.run [] [] (tables.flatMap FlatTable.statements) =
      some (tables.map FlatTable.node) := by
    refine run_tables ?_ hvalues []
    exact hnames
  have hread := h (text.toList.length + 1) (Nat.lt_succ_self _)
  have hstart := h.head?_ne_mark
  rw [parse]
  -- the byte order mark that would be passed over is not there
  split
  · rename_i hnone
    split at hnone
    · rename_i rest heq
      exact absurd (by rw [heq]; rfl) hstart
    · exact absurd (hnone.symm.trans hread) (by simp)
  · rename_i statements hsome
    split at hsome
    · rename_i rest heq
      exact absurd (by rw [heq]; rfl) hstart
    · obtain rfl := Option.some.inj (hsome.symm.trans hread)
      rw [hrun]
      exact congrArg Except.ok (membersToValue_nodes tables)

end Toml
end ProcessKit
