import Opstream.Proofs.Fields
import Opstream.Proofs.Indexing

/-!
Definitions in any order. Main statement: definitions can be made one after the other exactly if no
two of them share an opcode or a name and all widths are supported, and every order of them makes
the same table. A registry that finds its definitions by two hash indexes answers as the table does,
however an index is walked.
-/

namespace Opstream

/-- Definitions that do not stand in each other's way. -/
structure Compatible (entries : List Entry) : Prop where
  opcodes : (entries.map Entry.opcode).Nodup
  names : (entries.map fun entry => entry.operation.name).Nodup
  supported : ∀ entry ∈ entries, ∀ width ∈ entry.operation.widths, width ∈ supportedWidths

theorem Compatible.perm {entries order : List Entry} (compatible : Compatible entries)
    (same : order.Perm entries) : Compatible order where
  opcodes := (same.map _).nodup_iff.mpr compatible.opcodes
  names := (same.map _).nodup_iff.mpr compatible.names
  supported entry member := compatible.supported entry (same.mem_iff.mp member)

namespace Table

theorem compatible (table : Table) : Compatible table.entries :=
  ⟨table.opcodes_distinct, table.names_distinct, table.supported⟩

/-- The order by opcode leaves no choice where an entry stands. -/
theorem eq_of_perm {first second : Table} (same : first.entries.Perm second.entries) :
    first = second := by
  apply entries_injective
  apply same.eq_of_pairwise _ first.ordered second.ordered
  intro entry other _ _ below above
  exact absurd (UInt8.lt_trans below above) (UInt8.lt_irrefl _)

theorem define_perm {table extended : Table} {entry : Entry}
    (defined : table.define entry = .ok extended) :
    extended.entries.Perm (entry :: table.entries) := by
  rw [(define_ok_iff.mp defined).2.2.2]
  exact insert_perm entry table.entries

theorem define_all_perm {table extended : Table} {entries : List Entry}
    (accepted : table.defineAll entries = .ok extended) :
    extended.entries.Perm (table.entries ++ entries) := by
  induction entries generalizing table with
  | nil =>
      cases accepted
      rw [List.append_nil]
  | cons entry entries induction =>
      rw [defineAll, List.foldlM_cons, bind_ok_iff] at accepted
      obtain ⟨middle, defined, others⟩ := accepted
      have first := (define_perm defined).append_right entries
      exact (induction others).trans (first.trans List.perm_middle.symm)

theorem define_compatible {table : Table} {entry : Entry} {entries : List Entry}
    (compatible : Compatible (table.entries ++ entry :: entries)) :
    ∃ extended, table.define entry = .ok extended := by
  obtain ⟨opcodes, names, supported⟩ := compatible.perm List.perm_middle.symm
  rw [List.map_cons, List.nodup_cons, List.map_append, List.mem_append, not_or] at opcodes names
  exact define_accepts opcodes.1.1 names.1.1 (supported entry List.mem_cons_self)

theorem define_all_compatible {table : Table} {entries : List Entry}
    (compatible : Compatible (table.entries ++ entries)) :
    ∃ extended, table.defineAll entries = .ok extended := by
  induction entries generalizing table with
  | nil => exact ⟨table, rfl⟩
  | cons entry entries induction =>
      obtain ⟨middle, defined⟩ := define_compatible compatible
      have first := (define_perm defined).append_right entries
      obtain ⟨extended, others⟩ := induction (compatible.perm (first.trans List.perm_middle.symm))
      refine ⟨extended, ?_⟩
      rw [defineAll, List.foldlM_cons, defined]
      exact others

end Table

/-- Definitions can be made one after the other, from nothing, exactly if no two of them share an
opcode or a name and all widths are supported. The table then lists just these definitions, and
every order of them makes the same table, so it gives the same answers. A registry of two indexes
accepts and refuses what the table does, for the same cause. Made in any order, it finds what the
table finds under each opcode and each name, and it lists the entries of the table however its index
is walked. -/
theorem definitions_in_any_order (entries : List Entry) :
    Registry.Matches (Registry.empty.defineAll entries) (Table.empty.defineAll entries) ∧
    ((∃ table, Table.empty.defineAll entries = .ok table) ↔
      (entries.map Entry.opcode).Nodup ∧
        (entries.map fun entry => entry.operation.name).Nodup ∧
        ∀ entry ∈ entries, ∀ width ∈ entry.operation.widths, width ∈ supportedWidths) ∧
    ∀ table, Table.empty.defineAll entries = .ok table →
      table.entries.Perm entries ∧
      ∀ order : List Entry, order.Perm entries →
        Table.empty.defineAll order = .ok table ∧
          ∃ registry, Registry.empty.defineAll order = .ok registry ∧ registry.Answers table := by
  have made {defined : List Entry} {table : Table}
      (accepted : Table.empty.defineAll defined = .ok table) : table.entries.Perm defined :=
    Table.define_all_perm accepted
  have lockstep (defined : List Entry) := Registry.define_all_matches Registry.empty_answers defined
  refine ⟨lockstep entries, ?_, ?_⟩
  · constructor
    · intro accepted
      obtain ⟨table, accepted⟩ := accepted
      obtain ⟨opcodes, names, supported⟩ := table.compatible.perm (made accepted).symm
      exact ⟨opcodes, names, supported⟩
    · intro distinct
      obtain ⟨opcodes, names, supported⟩ := distinct
      exact Table.define_all_compatible ⟨opcodes, names, supported⟩
  · intro table accepted
    refine ⟨made accepted, ?_⟩
    intro order same
    have listed := same.trans (made accepted).symm
    obtain ⟨other, again⟩ : ∃ other, Table.empty.defineAll order = .ok other :=
      Table.define_all_compatible (table.compatible.perm listed)
    have unchanged : other = table := Table.eq_of_perm ((made again).trans listed)
    subst unchanged
    refine ⟨again, ?_⟩
    have agreed := lockstep order
    rw [again] at agreed
    generalize Registry.empty.defineAll order = outcome at agreed ⊢
    cases agreed with
    | @accepted registry _ answers => exact ⟨registry, rfl, answers⟩

/-- The definition that comes first has the greatest opcode, and one name is empty. -/
theorem three_definitions_reordered :
    let entries : List Entry := [⟨200, ⟨"Wide", [8, 1]⟩⟩, ⟨3, ⟨"", []⟩⟩, ⟨7, ⟨"Load", [2]⟩⟩]
    let order : List Entry := [⟨7, ⟨"Load", [2]⟩⟩, ⟨200, ⟨"Wide", [8, 1]⟩⟩, ⟨3, ⟨"", []⟩⟩]
    let table : Table := ⟨[⟨3, ⟨"", []⟩⟩, ⟨7, ⟨"Load", [2]⟩⟩, ⟨200, ⟨"Wide", [8, 1]⟩⟩],
      by decide, by decide, by decide⟩
    order.Perm entries ∧ Table.empty.defineAll entries = .ok table ∧
      Table.empty.defineAll order = .ok table ∧
      ∃ registry, Registry.empty.defineAll order = .ok registry ∧
        registry.lookup 200 = .ok ⟨"Wide", [8, 1]⟩ ∧ registry.opcodeNamed? "" = some 3 ∧
        Registry.sorted registry.operations.toList = table.entries := by
  intro entries order table
  have same : order.Perm entries := by decide
  have accepted : Table.empty.defineAll entries = .ok table := rfl
  obtain ⟨_, _, reordered⟩ := definitions_in_any_order entries
  obtain ⟨again, registry, defined, answers⟩ := (reordered table accepted).2 order same
  exact ⟨same, accepted, again, registry, defined, (answers.lookup 200).trans (by decide),
    (answers.named "").trans (by decide), answers.listed _ (List.Perm.refl _)⟩

end Opstream
