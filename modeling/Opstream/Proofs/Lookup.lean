import Mathlib.Data.List.Nodup
import Opstream.Table

/-!
What a table answers, in terms of its entries. Both directions of looking up find an entry
exactly if it is there, because no two entries share an opcode or a name. A definition adds
its entry and keeps every other, and every table comes from definitions alone.
-/

namespace Opstream

theorem find_bearer_iff {Value Key : Type} [DecidableEq Key] (key : Value → Key)
    {values : List Value} (distinct : (values.map key).Nodup) (wanted : Key) (value : Value) :
    (values.find? fun candidate => key candidate == wanted) = some value ↔
      value ∈ values ∧ key value = wanted := by
  induction values with
  | nil => simp
  | cons head tail induction =>
      rw [List.map_cons, List.nodup_cons] at distinct
      rw [List.find?_cons_eq_some, induction distinct.2, List.mem_cons]
      simp only [Bool.not_eq_true', beq_eq_false_iff_ne, beq_iff_eq]
      constructor
      · intro found
        rcases found with ⟨same, rfl⟩ | ⟨_, member, same⟩
        · exact ⟨.inl rfl, same⟩
        · exact ⟨.inr member, same⟩
      · intro bearer
        rcases bearer with ⟨rfl | member, same⟩
        · exact .inl ⟨same, rfl⟩
        · have other : key head ≠ wanted := by
            intro first
            exact distinct.1 (List.mem_map.mpr ⟨value, member, same.trans first.symm⟩)
          exact .inr ⟨other, member, same⟩

namespace Table

theorem opcodes_distinct (table : Table) : (table.entries.map Entry.opcode).Nodup :=
  List.pairwise_map.mpr (table.ordered.imp UInt8.ne_of_lt)

theorem names_distinct (table : Table) :
    (table.entries.map fun entry => entry.operation.name).Nodup :=
  List.pairwise_map.mpr table.named

theorem entries_injective {left right : Table} (same : left.entries = right.entries) :
    left = right := by
  cases left
  cases right
  cases same
  rfl

theorem lookup_ok_iff {table : Table} {opcode : UInt8} {operation : Operation} :
    table.lookup opcode = .ok operation ↔ ⟨opcode, operation⟩ ∈ table.entries := by
  have found := find_bearer_iff Entry.opcode table.opcodes_distinct opcode
  rw [lookup]
  cases search : table.entries.find? fun entry => entry.opcode == opcode with
  | none =>
      have absent := (found ⟨opcode, operation⟩).not.mp (by simp [search])
      simpa using absent
  | some entry =>
      obtain ⟨member, rfl⟩ := (found entry).mp search
      constructor
      · intro same
        cases same
        exact member
      · intro other
        have same := search.symm.trans ((found _).mpr ⟨other, rfl⟩)
        rw [Option.some.inj same]

theorem lookup_error_iff {table : Table} {opcode : UInt8} {cause : CodeError} :
    table.lookup opcode = .error cause ↔
      opcode ∉ table.opcodes ∧ cause = .undefinedOpcode opcode := by
  have found := find_bearer_iff Entry.opcode table.opcodes_distinct opcode
  rw [lookup, opcodes]
  cases search : table.entries.find? fun entry => entry.opcode == opcode with
  | none =>
      have absent : opcode ∉ table.entries.map Entry.opcode := by
        intro taken
        obtain ⟨entry, member, same⟩ := List.mem_map.mp taken
        have bearer := (found entry).mpr ⟨member, same⟩
        rw [search] at bearer
        contradiction
      simp only [Except.error.injEq, absent, not_false_eq_true, true_and, eq_comm]
  | some entry =>
      obtain ⟨member, rfl⟩ := (found entry).mp search
      have taken : entry.opcode ∈ table.entries.map Entry.opcode := List.mem_map_of_mem member
      simp only [reduceCtorEq, taken, not_true, false_and]

theorem entry_named_iff {table : Table} {name : String} {entry : Entry} :
    table.entryNamed? name = some entry ↔
      entry ∈ table.entries ∧ entry.operation.name = name :=
  find_bearer_iff (fun entry : Entry => entry.operation.name) table.names_distinct name entry

theorem define_ok_iff {table extended : Table} {entry : Entry} :
    table.define entry = .ok extended ↔
      entry.opcode ∉ table.opcodes ∧ entry.operation.name ∉ table.names ∧
        (∀ width ∈ entry.operation.widths, width ∈ supportedWidths) ∧
        extended.entries = entry.insert table.entries := by
  unfold define
  split
  · next taken => simp [taken]
  · next free =>
      split
      · next known => simp [known]
      · next fresh =>
          split
          · next width odd =>
              have member := List.mem_of_find?_eq_some odd
              have unsupported : width ∉ supportedWidths := by simpa using List.find?_some odd
              simp only [reduceCtorEq, false_iff, not_and]
              intro _ _ supported
              exact absurd (supported width member) unsupported
          · next even =>
              have supported : ∀ width ∈ entry.operation.widths, width ∈ supportedWidths := by
                simpa using List.find?_eq_none.mp even
              simp only [Except.ok.injEq]
              constructor
              · intro same
                subst same
                exact ⟨free, fresh, supported, rfl⟩
              · intro all
                exact entries_injective all.2.2.2.symm

theorem define_accepts {table : Table} {entry : Entry} (free : entry.opcode ∉ table.opcodes)
    (fresh : entry.operation.name ∉ table.names)
    (supported : ∀ width ∈ entry.operation.widths, width ∈ supportedWidths) :
    ∃ extended, table.define entry = .ok extended := by
  unfold define
  rw [dif_neg free, dif_neg fresh]
  split
  · next width odd =>
      have unsupported : width ∉ supportedWidths := by simpa using List.find?_some odd
      exact absurd (supported width (List.mem_of_find?_eq_some odd)) unsupported
  · exact ⟨_, rfl⟩

theorem entries_subset_define {table extended : Table} {entry : Entry}
    (accepted : table.define entry = .ok extended) : table.entries ⊆ extended.entries := by
  intro other member
  rw [(define_ok_iff.mp accepted).2.2.2]
  exact mem_insert.mpr (.inr member)

theorem insert_behind (entry : Entry) (entries : List Entry)
    (behind : ∀ other ∈ entries, other.opcode < entry.opcode) :
    entry.insert entries = entries ++ [entry] := by
  induction entries with
  | nil => rfl
  | cons head tail induction =>
      have first := behind head (by simp)
      have others := induction (by intro other member; exact behind other (by simp [member]))
      rw [Entry.insert, if_neg (UInt8.not_lt.mpr (UInt8.le_of_lt first)), others, List.cons_append]

theorem define_all_behind (table : Table) (entries : List Entry) (start : Table)
    (whole : start.entries ++ entries = table.entries) : start.defineAll entries = .ok table := by
  induction entries generalizing start with
  | nil =>
      rw [List.append_nil] at whole
      rw [entries_injective whole]
      rfl
  | cons entry entries induction =>
      have rising := table.ordered
      have differing := table.named
      have widths := table.supported
      rw [← whole] at rising differing widths
      have behind : ∀ other ∈ start.entries, other.opcode < entry.opcode := by
        intro other member
        exact (List.pairwise_append.mp rising).2.2 other member entry (by simp)
      have unnamed : ∀ other ∈ start.entries, other.operation.name ≠ entry.operation.name := by
        intro other member
        exact (List.pairwise_append.mp differing).2.2 other member entry (by simp)
      have free : entry.opcode ∉ start.opcodes := by
        intro taken
        obtain ⟨other, member, same⟩ := List.mem_map.mp taken
        exact UInt8.ne_of_lt (behind other member) same
      have fresh : entry.operation.name ∉ start.names := by
        intro known
        obtain ⟨other, member, same⟩ := List.mem_map.mp known
        exact unnamed other member same
      obtain ⟨extended, accepted⟩ := define_accepts free fresh (widths entry (by simp))
      have grown := (define_ok_iff.mp accepted).2.2.2
      rw [insert_behind entry start.entries behind] at grown
      rw [defineAll, List.foldlM_cons, accepted]
      exact induction extended (by rw [grown, List.append_assoc]; exact whole)

theorem define_all_entries (table : Table) : Table.empty.defineAll table.entries = .ok table :=
  define_all_behind table table.entries .empty rfl

end Table

end Opstream
