import Opstream.Proofs.Defining
import Std.Data.HashMap.Lemmas

/-!
Definitions in two hash indexes, by opcode and by name. Main statement: after any sequence of
definitions, accepted or refused, the indexes are in step with each other and with the table, and
the next definition is accepted or refused in both alike.
-/

namespace Opstream

/-- Definitions in two indexes, by opcode and by name. Neither has an order of its own. -/
structure Registry where
  operations : Std.HashMap UInt8 Operation
  opcodes : Std.HashMap String UInt8

namespace Registry

def empty : Registry := ⟨∅, ∅⟩

def lookup (registry : Registry) (opcode : UInt8) : Except CodeError Operation :=
  match registry.operations[opcode]? with
  | some operation => .ok operation
  | none => .error (.undefinedOpcode opcode)

def opcodeNamed? (registry : Registry) (name : String) : Option UInt8 := registry.opcodes[name]?

def size (registry : Registry) : Nat := registry.operations.size

/-- Names and opcodes are bound in pairs: a pair that has either of them already gives way. -/
def insert (registry : Registry) (entry : Entry) : Registry where
  operations := registry.operations.insert entry.opcode entry.operation
  opcodes := (registry.opcodes.filter fun _ opcode => opcode != entry.opcode).insert
    entry.operation.name entry.opcode

def define (registry : Registry) (entry : Entry) : Except CodeError Registry :=
  if registry.operations.contains entry.opcode then .error (.opcodeTaken entry.opcode)
  else if registry.opcodes.contains entry.operation.name then
    .error (.nameTaken entry.operation.name)
  else
    match entry.operation.widths.find? fun width => width ∉ supportedWidths with
    | some width => .error (.unsupportedWidth width)
    | none => .ok (registry.insert entry)

def defineAll (registry : Registry) (entries : List Entry) : Except CodeError Registry :=
  entries.foldlM define registry

/-- A refused entry leaves both indexes as they were. -/
def defineEach (registry : Registry) : List Entry → List (Option CodeError) × Registry
  | [] => ([], registry)
  | entry :: entries =>
      match registry.define entry with
      | .ok extended =>
          let (answers, final) := extended.defineEach entries
          (none :: answers, final)
      | .error cause =>
          let (answers, final) := registry.defineEach entries
          (some cause :: answers, final)

/-- What a walk through the index by opcode has met, put into opcode order. -/
def sorted (walked : List (UInt8 × Operation)) : List Entry :=
  (walked.map fun pair => Entry.mk pair.1 pair.2).mergeSort
    fun entry other => entry.opcode ≤ other.opcode

/-- The registry says what the table says, in whatever order its index is walked. -/
structure Answers (registry : Registry) (table : Table) : Prop where
  lookup : ∀ opcode, registry.lookup opcode = table.lookup opcode
  named : ∀ name, registry.opcodeNamed? name = table.opcodeNamed? name
  counted : registry.size = table.size
  listed : ∀ walked, walked.Perm registry.operations.toList → sorted walked = table.entries

inductive Matches : Except CodeError Registry → Except CodeError Table → Prop where
  | refused (cause : CodeError) : Matches (.error cause) (.error cause)
  | accepted {registry : Registry} {table : Table} (answers : registry.Answers table) :
      Matches (.ok registry) (.ok table)

theorem lookup_ok_iff {registry : Registry} {opcode : UInt8} {operation : Operation} :
    registry.lookup opcode = .ok operation ↔ registry.operations[opcode]? = some operation := by
  rw [lookup]
  cases registry.operations[opcode]? <;> simp

theorem sorted_perm (walked : List (UInt8 × Operation)) :
    (sorted walked).Perm (walked.map fun pair => ⟨pair.1, pair.2⟩) := List.mergeSort_perm _ _

theorem sorted_ascending (walked : List (UInt8 × Operation)) :
    (sorted walked).Pairwise fun entry other => entry.opcode ≤ other.opcode := by
  have sorting := @List.pairwise_mergeSort Entry (fun entry other =>
    decide (entry.opcode ≤ other.opcode)) ?_ ?_ (walked.map fun pair => ⟨pair.1, pair.2⟩)
  · simp only [decide_eq_true_eq] at sorting
    exact sorting
  · simpa only [decide_eq_true_eq] using fun first second third => UInt8.le_trans
  · simpa only [Bool.or_eq_true, decide_eq_true_eq] using fun first second => UInt8.le_total _ _

theorem mem_sorted_iff {walked : List (UInt8 × Operation)} {entry : Entry} :
    entry ∈ sorted walked ↔ (entry.opcode, entry.operation) ∈ walked := by
  rw [(sorted_perm walked).mem_iff, List.mem_map]
  constructor
  · intro met
    obtain ⟨pair, member, rfl⟩ := met
    exact member
  · intro member
    exact ⟨_, member, rfl⟩

theorem sorted_nodup {registry : Registry} {walked : List (UInt8 × Operation)}
    (all : walked.Perm registry.operations.toList) : (sorted walked).Nodup := by
  have keys : (registry.operations.toList.map Prod.fst).Nodup := by
    have distinct : registry.operations.toList.Pairwise _ := Std.HashMap.distinct_keys_toList
    simp only [beq_eq_false_iff_ne] at distinct
    exact List.pairwise_map.mpr distinct
  have opcodes : ((sorted walked).map Entry.opcode).Nodup := by
    rw [((sorted_perm walked).map _).nodup_iff, List.map_map]
    exact (all.map Prod.fst).nodup_iff.mpr keys
  exact List.Nodup.of_map _ opcodes

section Lockstep

variable {registry : Registry} {table : Table}

theorem sorted_eq (found : ∀ opcode, registry.lookup opcode = table.lookup opcode)
    {walked : List (UInt8 × Operation)} (all : walked.Perm registry.operations.toList) :
    sorted walked = table.entries := by
  have same_entries (entry : Entry) : entry ∈ sorted walked ↔ entry ∈ table.entries := by
    rw [mem_sorted_iff, all.mem_iff, Std.HashMap.mem_toList_iff_getElem?_eq_some,
      ← lookup_ok_iff, found, Table.lookup_ok_iff]
  have rising := table.ordered.imp UInt8.le_of_lt
  have perm : (sorted walked).Perm table.entries :=
    (List.perm_ext_iff_of_nodup (sorted_nodup all)
      (List.Nodup.of_map _ table.opcodes_distinct)).mpr same_entries
  apply perm.eq_of_pairwise _ (sorted_ascending walked) rising
  intro entry other member memberToo below above
  have opcode : entry.opcode = other.opcode := UInt8.le_antisymm below above
  have looked := Table.lookup_ok_iff.mpr ((same_entries entry).mp member)
  rw [opcode, Table.lookup_ok_iff.mpr memberToo] at looked
  cases entry
  cases other
  cases opcode
  cases looked
  rfl

theorem answers_of (found : ∀ opcode, registry.lookup opcode = table.lookup opcode)
    (named : ∀ name, registry.opcodeNamed? name = table.opcodeNamed? name) :
    registry.Answers table where
  lookup := found
  named := named
  counted := by
    have listed := sorted_eq found (List.Perm.refl registry.operations.toList)
    rw [size, Table.size, ← listed, (sorted_perm _).length_eq, List.length_map,
      Std.HashMap.length_toList]
  listed _ all := sorted_eq found all

variable (answers : registry.Answers table)

include answers

theorem contains_opcode_iff (opcode : UInt8) :
    registry.operations.contains opcode = true ↔ opcode ∈ table.opcodes := by
  rw [Std.HashMap.contains_eq_isSome_getElem?, Option.isSome_iff_exists, Table.mem_opcodes_iff]
  apply exists_congr
  intro operation
  rw [← lookup_ok_iff, answers.lookup]

theorem contains_name_iff (name : String) :
    registry.opcodes.contains name = true ↔ name ∈ table.names := by
  rw [Std.HashMap.contains_eq_isSome_getElem?, Option.isSome_iff_exists, Table.mem_names_iff]
  apply exists_congr
  intro opcode
  rw [← answers.named, opcodeNamed?]

theorem answers_insert {extended : Table} {entry : Entry}
    (defined : table.define entry = .ok extended) : (registry.insert entry).Answers extended := by
  have free := (Table.define_ok_iff.mp defined).1
  apply answers_of
  · intro opcode
    rw [Table.lookup_define defined, lookup, insert, Std.HashMap.getElem?_insert]
    by_cases same : entry.opcode = opcode
    · simp [same]
    · simp [same, Ne.symm same, ← answers.lookup, lookup]
  · intro name
    rw [Table.opcode_named_define defined, opcodeNamed?, insert, Std.HashMap.getElem?_insert]
    by_cases same : entry.operation.name = name
    · simp [same]
    · -- No name leads to the new opcode yet, so nothing gives way.
      have kept : (registry.opcodes[name]?).filter (fun opcode => opcode != entry.opcode) =
          registry.opcodes[name]? := by
        cases bound : registry.opcodes[name]? with
        | none => rfl
        | some opcode =>
            have known : table.opcodeNamed? name = some opcode :=
              (answers.named name).symm.trans bound
            obtain ⟨operation, found, _⟩ := Table.opcode_named_iff.mp known
            have other : opcode ≠ entry.opcode := by
              rintro rfl
              exact free (Table.mem_opcodes_iff.mpr ⟨operation, found⟩)
            simp [other]
      simp [same, Ne.symm same, ← answers.named, opcodeNamed?, kept]

theorem define_matches (entry : Entry) : Matches (registry.define entry) (table.define entry) := by
  cases defined : table.define entry with
  | ok extended =>
      obtain ⟨free, fresh, supported, _⟩ := Table.define_ok_iff.mp defined
      have even : (entry.operation.widths.find? fun width => width ∉ supportedWidths) = none := by
        simpa using supported
      rw [define, if_neg ((contains_opcode_iff answers _).not.mpr free),
        if_neg ((contains_name_iff answers _).not.mpr fresh), even]
      exact .accepted (answers_insert answers defined)
  | error cause =>
      cases Table.refuses_of_define_error defined with
      | opcode found =>
          have taken := Table.mem_opcodes_iff.mpr ⟨_, found⟩
          rw [define, if_pos ((contains_opcode_iff answers _).mpr taken)]
          exact .refused _
      | name free known =>
          have taken := Table.mem_names_iff.mpr ⟨_, known⟩
          rw [define, if_neg ((contains_opcode_iff answers _).not.mpr (Table.free_iff.mp free)),
            if_pos ((contains_name_iff answers _).mpr taken)]
          exact .refused _
      | width free fresh split supported odd =>
          rw [define, if_neg ((contains_opcode_iff answers _).not.mpr (Table.free_iff.mp free)),
            if_neg ((contains_name_iff answers _).not.mpr (Table.fresh_iff.mp fresh)),
            Table.find_unsupported split supported odd]
          exact .refused _

theorem define_all_matches (entries : List Entry) :
    Matches (registry.defineAll entries) (table.defineAll entries) := by
  induction entries generalizing registry table with
  | nil => exact .accepted answers
  | cons entry entries induction =>
      rw [defineAll, Table.defineAll, List.foldlM_cons, List.foldlM_cons]
      have step := define_matches answers entry
      generalize registry.define entry = left, table.define entry = right at step
      cases step with
      | refused cause => exact .refused cause
      | accepted agreed => exact induction agreed

theorem define_each_answers (entries : List Entry) :
    (registry.defineEach entries).1 = (table.defineEach entries).1 ∧
      (registry.defineEach entries).2.Answers (table.defineEach entries).2 := by
  induction entries generalizing registry table with
  | nil => exact ⟨rfl, answers⟩
  | cons entry entries induction =>
      rw [defineEach, Table.defineEach]
      have step := define_matches answers entry
      generalize registry.define entry = left, table.define entry = right at step
      cases step with
      | refused cause =>
          obtain ⟨same, final⟩ := induction answers
          exact ⟨congrArg _ same, final⟩
      | accepted agreed =>
          obtain ⟨same, final⟩ := induction agreed
          exact ⟨congrArg _ same, final⟩

end Lockstep

theorem empty_answers : empty.Answers .empty := by
  apply answers_of
  · intro opcode
    rw [lookup, empty, Std.HashMap.getElem?_empty]
    rfl
  · intro name
    rw [opcodeNamed?, empty, Std.HashMap.getElem?_empty]
    rfl

end Registry

/-- Start from nothing and try any entries in turn, where a refused one leaves the table as it was.
The table that comes of it holds just the accepted ones, and in it names and opcodes lead to each
other. One more entry is accepted exactly if its opcode is not defined, its name is not defined and
all its widths are supported; it is then found under its own opcode and name, and all others are
found as before. Otherwise the answer is the cause that comes first, and the table stays. A registry
of two indexes refuses the same entries for the same causes, and it answers as the table does. -/
theorem definitions_keep_names_and_opcodes_in_step (entries : List Entry) :
    let answers := (Table.empty.defineEach entries).1
    let table := (Table.empty.defineEach entries).2
    answers.length = entries.length ∧
    (∀ entry, entry ∈ table.entries ↔ (entry, none) ∈ entries.zip answers) ∧
    table.Consistent ∧
    (Registry.empty.defineEach entries).1 = answers ∧
    (Registry.empty.defineEach entries).2.Answers table ∧ ∀ entry : Entry,
      ((∃ extended, table.define entry = .ok extended) ↔
        table.lookup entry.opcode = .error (.undefinedOpcode entry.opcode) ∧
          table.opcodeNamed? entry.operation.name = none ∧
          ∀ width ∈ entry.operation.widths, width ∈ supportedWidths) ∧
      (∀ extended, table.define entry = .ok extended →
        Table.empty.defineEach (entries ++ [entry]) = (answers ++ [none], extended) ∧
          (∀ opcode, extended.lookup opcode =
            if opcode = entry.opcode then .ok entry.operation else table.lookup opcode) ∧
          ∀ name, extended.opcodeNamed? name =
            if name = entry.operation.name then some entry.opcode
            else table.opcodeNamed? name) ∧
      ∀ cause,
        (table.define entry = .error cause ↔ table.Refuses entry cause) ∧
          (table.define entry = .error cause →
            Table.empty.defineEach (entries ++ [entry]) = (answers ++ [some cause], table)) := by
  intro answers table
  obtain ⟨alike, agreed⟩ := Registry.define_each_answers Registry.empty_answers entries
  refine ⟨Table.empty.length_define_each entries, ?_, table.consistent, alike, agreed, ?_⟩
  · intro entry
    rw [Table.mem_define_each]
    simp only [Table.empty, List.not_mem_nil, false_or]
    rfl
  intro entry
  have next := Table.empty.define_each_append entries entry
  refine ⟨Table.define_accepted_iff, ?_, ?_⟩
  · intro extended defined
    refine ⟨?_, Table.lookup_define defined, Table.opcode_named_define defined⟩
    rw [next, defined]
  · intro cause
    refine ⟨⟨Table.refuses_of_define_error, Table.define_error_of_refuses⟩, ?_⟩
    intro refused
    rw [next, refused]

/-- A refusal is for the first cause that there is, and what was refused can be tried again. -/
theorem clashing_definitions_refused :
    let entries : List Entry := [⟨1, ⟨"OpX", []⟩⟩, ⟨1, ⟨"OpX", [3]⟩⟩, ⟨2, ⟨"OpX", [3]⟩⟩,
      ⟨2, ⟨"OpY", [8, 3, 5]⟩⟩]
    let table := (Table.empty.defineEach entries).2
    (Table.empty.defineEach entries).1 =
        [none, some (.opcodeTaken 1), some (.nameTaken "OpX"), some (.unsupportedWidth 3)] ∧
      (∃ extended, table.define ⟨0, ⟨"OpY", [8]⟩⟩ = .ok extended ∧
        extended.lookup 0 = .ok ⟨"OpY", [8]⟩ ∧ extended.opcodeNamed? "OpX" = some 1) ∧
      table.define ⟨1, ⟨"OpX", [3]⟩⟩ = .error (.opcodeTaken 1) ∧
      (Registry.empty.defineEach entries).2.size = 1 := by
  intro entries table
  obtain ⟨_, _, _, _, agreed, next⟩ := definitions_keep_names_and_opcodes_in_step entries
  obtain ⟨accepted, changed, _⟩ := next ⟨0, ⟨"OpY", [8]⟩⟩
  obtain ⟨extended, defined⟩ := accepted.mpr ⟨by decide, by decide, by decide⟩
  obtain ⟨_, lookups, names⟩ := changed extended defined
  obtain ⟨_, _, refused⟩ := next ⟨1, ⟨"OpX", [3]⟩⟩
  have taken : table.lookup 1 = .ok ⟨"OpX", []⟩ := by decide
  exact ⟨by decide, ⟨extended, defined, lookups 0, names "OpX"⟩, (refused _).1.mpr (.opcode taken),
    agreed.counted⟩

end Opstream
