import Opstream.Proofs.Lookup

/-!
What definitions do to a table. Main statements: in every table names and opcodes lead to each other
and the entries are listed in opcode order; a definition is accepted exactly if it clashes with
nothing, adds itself and leaves all else as it was, and a refusal is for the first cause there is.
-/

namespace Opstream

namespace Table

theorem mem_opcodes_iff {table : Table} {opcode : UInt8} :
    opcode ∈ table.opcodes ↔ ∃ operation, table.lookup opcode = .ok operation := by
  cases known : table.lookup opcode with
  | ok operation =>
      have taken : opcode ∈ table.opcodes :=
        List.mem_map.mpr ⟨⟨opcode, operation⟩, lookup_ok_iff.mp known, rfl⟩
      simpa using taken
  | error cause => simpa using (lookup_error_iff.mp known).1

theorem opcode_named_iff {table : Table} {name : String} {opcode : UInt8} :
    table.opcodeNamed? name = some opcode ↔
      ∃ operation, table.lookup opcode = .ok operation ∧ operation.name = name := by
  simp only [opcodeNamed?, Option.map_eq_some_iff, entry_named_iff, lookup_ok_iff]
  constructor
  · intro found
    obtain ⟨entry, ⟨member, named⟩, rfl⟩ := found
    exact ⟨entry.operation, member, named⟩
  · intro found
    obtain ⟨operation, member, named⟩ := found
    exact ⟨⟨opcode, operation⟩, ⟨member, named⟩, rfl⟩

theorem mem_names_iff {table : Table} {name : String} :
    name ∈ table.names ↔ ∃ opcode, table.opcodeNamed? name = some opcode := by
  simp only [opcode_named_iff, lookup_ok_iff, names, List.mem_map]
  constructor
  · intro known
    obtain ⟨entry, member, named⟩ := known
    exact ⟨entry.opcode, entry.operation, member, named⟩
  · intro known
    obtain ⟨opcode, operation, member, named⟩ := known
    exact ⟨_, member, named⟩

/-- Names and opcodes lead to each other, and the entries are listed in opcode order, each opcode
once with what it stands for. There are as many entries as opcodes that stand for something. -/
structure Consistent (table : Table) : Prop where
  named : ∀ name opcode, table.opcodeNamed? name = some opcode ↔
    ∃ operation, table.lookup opcode = .ok operation ∧ operation.name = name
  distinct : ∀ first second left right, table.lookup first = .ok left →
    table.lookup second = .ok right → left.name = right.name → first = second
  supported : ∀ opcode operation, table.lookup opcode = .ok operation →
    ∀ width ∈ operation.widths, width = 1 ∨ width = 2 ∨ width = 4 ∨ width = 8
  ordered : table.opcodes.Pairwise (· < ·)
  listed : ∀ opcode operation,
    ⟨opcode, operation⟩ ∈ table.entries ↔ table.lookup opcode = .ok operation
  counted : ∀ defined : List UInt8, defined.Nodup →
    (∀ opcode, opcode ∈ defined ↔ ∃ operation, table.lookup opcode = .ok operation) →
      table.size = defined.length

theorem consistent (table : Table) : table.Consistent where
  named _ _ := opcode_named_iff
  distinct first second left right found other same := by
    have name_of_first := opcode_named_iff.mpr ⟨left, found, same⟩
    have name_of_second := opcode_named_iff.mpr ⟨right, other, rfl⟩
    exact Option.some.inj (name_of_first.symm.trans name_of_second)
  supported opcode operation found width member := by
    simpa [supportedWidths] using table.supported _ (lookup_ok_iff.mp found) width member
  ordered := List.pairwise_map.mpr table.ordered
  listed _ _ := lookup_ok_iff.symm
  counted defined distinct all := by
    have same : table.opcodes.Perm defined :=
      (List.perm_ext_iff_of_nodup table.opcodes_distinct distinct).mpr fun opcode =>
        mem_opcodes_iff.trans (all opcode).symm
    rw [← same.length_eq, opcodes, List.length_map, size]

/-- Why a table refuses an entry. A taken opcode comes before a taken name, and that before the
first width in the list that has no encoding. -/
inductive Refuses (table : Table) (entry : Entry) : CodeError → Prop where
  | opcode {operation : Operation} (taken : table.lookup entry.opcode = .ok operation) :
      Refuses table entry (.opcodeTaken entry.opcode)
  | name {opcode : UInt8}
      (free : table.lookup entry.opcode = .error (.undefinedOpcode entry.opcode))
      (known : table.opcodeNamed? entry.operation.name = some opcode) :
      Refuses table entry (.nameTaken entry.operation.name)
  | width {width : Nat} {before after : List Nat}
      (free : table.lookup entry.opcode = .error (.undefinedOpcode entry.opcode))
      (fresh : table.opcodeNamed? entry.operation.name = none)
      (split : entry.operation.widths = before ++ width :: after)
      (supported : ∀ other ∈ before, other ∈ supportedWidths)
      (odd : width ∉ supportedWidths) :
      Refuses table entry (.unsupportedWidth width)

theorem free_iff {table : Table} {opcode : UInt8} :
    table.lookup opcode = .error (.undefinedOpcode opcode) ↔ opcode ∉ table.opcodes := by
  rw [lookup_error_iff, and_iff_left rfl]

theorem fresh_iff {table : Table} {name : String} :
    table.opcodeNamed? name = none ↔ name ∉ table.names := by
  rw [mem_names_iff, Option.eq_none_iff_forall_ne_some, not_exists]

theorem refuses_of_define_error {table : Table} {entry : Entry} {cause : CodeError}
    (refused : table.define entry = .error cause) : table.Refuses entry cause := by
  unfold define at refused
  split at refused
  · next taken =>
      cases refused
      obtain ⟨operation, found⟩ := mem_opcodes_iff.mp taken
      exact .opcode found
  · next free =>
      split at refused
      · next known =>
          cases refused
          obtain ⟨opcode, named⟩ := mem_names_iff.mp known
          exact .name (free_iff.mpr free) named
      · next fresh =>
          split at refused
          · next width odd =>
              cases refused
              obtain ⟨unsupported, before, after, split, supported⟩ :=
                List.find?_eq_some_iff_append.mp odd
              refine .width (free_iff.mpr free) (fresh_iff.mpr fresh) split ?_ ?_
              · simpa using supported
              · simpa using unsupported
          · cases refused

theorem find_unsupported {widths before after : List Nat} {width : Nat}
    (split : widths = before ++ width :: after)
    (supported : ∀ other ∈ before, other ∈ supportedWidths) (odd : width ∉ supportedWidths) :
    (widths.find? fun width => width ∉ supportedWidths) = some width := by
  apply List.find?_eq_some_iff_append.mpr
  exact ⟨by simpa using odd, before, after, split, by simpa using supported⟩

theorem define_error_of_refuses {table : Table} {entry : Entry} {cause : CodeError}
    (refuses : table.Refuses entry cause) : table.define entry = .error cause := by
  cases refuses with
  | opcode found =>
      have taken := mem_opcodes_iff.mpr ⟨_, found⟩
      rw [define, dif_pos taken]
  | name free known =>
      rw [define, dif_neg (free_iff.mp free), dif_pos (mem_names_iff.mpr ⟨_, known⟩)]
  | @width width before after free fresh split supported odd =>
      have first := find_unsupported split supported odd
      rw [define, dif_neg (free_iff.mp free), dif_neg (fresh_iff.mp fresh)]
      split
      · next width found => rw [Option.some.inj (found.symm.trans first)]
      · next even =>
          rw [even] at first
          contradiction

theorem define_accepted_iff {table : Table} {entry : Entry} :
    (∃ extended, table.define entry = .ok extended) ↔
      table.lookup entry.opcode = .error (.undefinedOpcode entry.opcode) ∧
        table.opcodeNamed? entry.operation.name = none ∧
        ∀ width ∈ entry.operation.widths, width ∈ supportedWidths := by
  rw [free_iff, fresh_iff]
  constructor
  · intro accepted
    obtain ⟨extended, defined⟩ := accepted
    obtain ⟨free, fresh, supported, _⟩ := define_ok_iff.mp defined
    exact ⟨free, fresh, supported⟩
  · intro admissible
    obtain ⟨free, fresh, supported⟩ := admissible
    exact define_accepts free fresh supported

theorem mem_entries_define {table extended : Table} {entry other : Entry}
    (defined : table.define entry = .ok extended) :
    other ∈ extended.entries ↔ other = entry ∨ other ∈ table.entries := by
  rw [(define_ok_iff.mp defined).2.2.2, mem_insert]

theorem lookup_define {table extended : Table} {entry : Entry}
    (defined : table.define entry = .ok extended) (opcode : UInt8) :
    extended.lookup opcode =
      if opcode = entry.opcode then .ok entry.operation else table.lookup opcode := by
  split
  · next same =>
      rw [same]
      exact lookup_ok_iff.mpr ((mem_entries_define defined).mpr (.inl rfl))
  · next other =>
      cases before : table.lookup opcode with
      | ok operation =>
          have member := lookup_ok_iff.mp before
          exact lookup_ok_iff.mpr ((mem_entries_define defined).mpr (.inr member))
      | error cause =>
          obtain ⟨free, rfl⟩ := lookup_error_iff.mp before
          refine lookup_error_iff.mpr ⟨?_, rfl⟩
          intro taken
          obtain ⟨operation, found⟩ := mem_opcodes_iff.mp taken
          rcases (mem_entries_define defined).mp (lookup_ok_iff.mp found) with same | member
          · exact other (congrArg Entry.opcode same)
          · exact free (mem_opcodes_iff.mpr ⟨operation, lookup_ok_iff.mpr member⟩)

theorem opcode_named_define {table extended : Table} {entry : Entry}
    (defined : table.define entry = .ok extended) (name : String) :
    extended.opcodeNamed? name =
      if name = entry.operation.name then some entry.opcode else table.opcodeNamed? name := by
  obtain ⟨free, _⟩ := define_ok_iff.mp defined
  split
  · next same =>
      rw [same]
      exact opcode_named_iff.mpr
        ⟨entry.operation, lookup_ok_iff.mpr ((mem_entries_define defined).mpr (.inl rfl)), rfl⟩
  · next other =>
      apply Option.ext
      intro opcode
      rw [opcode_named_iff, opcode_named_iff]
      apply exists_congr
      intro operation
      rw [lookup_ok_iff, lookup_ok_iff, mem_entries_define defined]
      constructor
      · intro found
        obtain ⟨same | member, named⟩ := found
        · exact absurd (named.symm.trans (congrArg (fun entry => entry.operation.name) same)) other
        · exact ⟨member, named⟩
      · intro found
        exact ⟨.inr found.1, found.2⟩

/-- The answers so far and the table stay as they are when one more definition is tried. -/
theorem define_each_append (table : Table) (entries : List Entry) (entry : Entry) :
    table.defineEach (entries ++ [entry]) =
      match (table.defineEach entries).2.define entry with
      | .ok extended => ((table.defineEach entries).1 ++ [none], extended)
      | .error cause =>
          ((table.defineEach entries).1 ++ [some cause], (table.defineEach entries).2) := by
  induction entries generalizing table with
  | nil =>
      cases defined : table.define entry <;> simp [defineEach, defined]
  | cons first entries induction =>
      simp only [List.cons_append, defineEach]
      cases table.define first with
      | ok extended =>
          simp only [induction extended]
          cases (extended.defineEach entries).2.define entry <;> rfl
      | error cause =>
          simp only [induction table]
          cases (table.defineEach entries).2.define entry <;> rfl

theorem mem_define_each {table : Table} {entries : List Entry} {entry : Entry} :
    entry ∈ (table.defineEach entries).2.entries ↔
      entry ∈ table.entries ∨ (entry, none) ∈ entries.zip (table.defineEach entries).1 := by
  induction entries generalizing table with
  | nil => simp [defineEach]
  | cons first entries induction =>
      rw [defineEach]
      cases defined : table.define first with
      | ok extended =>
          simp only [induction, mem_entries_define defined, List.zip_cons_cons, List.mem_cons,
            Prod.mk.injEq, and_true, or_assoc, or_left_comm]
      | error cause =>
          simp only [induction, List.zip_cons_cons, List.mem_cons, Prod.mk.injEq, reduceCtorEq,
            and_false, false_or]

theorem length_define_each (table : Table) (entries : List Entry) :
    (table.defineEach entries).1.length = entries.length := by
  induction entries generalizing table with
  | nil => rfl
  | cons first entries induction =>
      rw [defineEach]
      cases table.define first with
      | ok extended => exact congrArg Nat.succ (induction extended)
      | error cause => exact congrArg Nat.succ (induction table)

end Table

end Opstream
