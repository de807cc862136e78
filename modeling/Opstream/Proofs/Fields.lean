import Mathlib.Algebra.GroupWithZero.Nat
import Mathlib.Data.List.Forall2
import Mathlib.Data.List.Induction
import Opstream.Table

/-!
Operand fields in a row. Main statement: a window reads as the given operands exactly if its
front is what writing them gives, so what was read can be written back, and nothing behind
the last field matters.
-/

namespace Opstream

/-- What is specified of one answer and of no other. -/
theorem answer_iff {Outcome : Type} {answer : Outcome} {Specified : Outcome → Prop}
    (holds : Specified answer) (only : ∀ {outcome}, Specified outcome → answer = outcome)
    {outcome : Outcome} : answer = outcome ↔ Specified outcome := by
  constructor
  · intro same
    exact same ▸ holds
  · exact only

theorem ok_bind {Refusal First Second : Type} (value : First)
    (next : First → Except Refusal Second) : (Except.ok value >>= next) = next value := rfl

theorem bind_ok_iff {Refusal First Second : Type} {first : Except Refusal First}
    {next : First → Except Refusal Second} {result : Second} :
    (first >>= next) = .ok result ↔ ∃ value, first = .ok value ∧ next value = .ok result := by
  cases first <;> simp [bind, Except.bind]

theorem bind_error_iff {Refusal First Second : Type} {first : Except Refusal First}
    {next : First → Except Refusal Second} {refusal : Refusal} :
    (first >>= next) = .error refusal ↔
      first = .error refusal ∨ ∃ value, first = .ok value ∧ next value = .error refusal := by
  cases first <;> simp [bind, Except.bind]

theorem map_error_ok_iff {Refusal Cause Result : Type} {outcome : Except Refusal Result}
    {explain : Refusal → Cause} {result : Result} :
    outcome.mapError explain = .ok result ↔ outcome = .ok result := by
  cases outcome <;> simp [Except.mapError]

theorem map_error_error_iff {Refusal Cause Result : Type} {outcome : Except Refusal Result}
    {explain : Refusal → Cause} {cause : Cause} :
    outcome.mapError explain = .error cause ↔
      ∃ refusal, outcome = .error refusal ∧ explain refusal = cause := by
  cases outcome <;> simp [Except.mapError]

theorem each_ok_iff {Refusal Value Result : Type} {f : Value → Except Refusal Result}
    {values : List Value} {results : List Result} :
    values.mapM f = .ok results ↔
      List.Forall₂ (fun value result => f value = .ok result) values results := by
  induction values generalizing results with
  | nil => simp [pure, Except.pure, eq_comm]
  | cons value values induction =>
      rw [List.mapM_cons, bind_ok_iff, List.forall₂_cons_left_iff]
      simp only [bind_ok_iff, induction]
      constructor
      · intro traversed
        obtain ⟨result, first, others, rest, same⟩ := traversed
        exact ⟨result, others, first, rest, (Except.ok.inj same).symm⟩
      · intro related
        obtain ⟨result, others, first, rest, rfl⟩ := related
        exact ⟨result, first, others, rest, rfl⟩

namespace BigEndian

theorem decode_lt_capacity (bytes : List UInt8) (short : bytes.length ≤ 8) :
    (decode bytes).toNat < capacity bytes.length := by
  induction bytes using List.reverseRecOn with
  | nil => decide
  | append_singleton bytes byte induction =>
      rw [List.length_append, List.length_singleton] at short ⊢
      have bounded := induction (by omega)
      have digit : byte.toNat < 256 := byte.toNat_lt
      rw [decode_append_value bytes byte (by omega) bounded, capacity]
      omega

/-- Zeros in front are bytes too, so the number of bytes has to be kept. -/
theorem encode_decode (bytes : List UInt8) (short : bytes.length ≤ 8) :
    encode bytes.length (decode bytes) = bytes := by
  induction bytes using List.reverseRecOn with
  | nil => rfl
  | append_singleton bytes byte induction =>
      rw [List.length_append, List.length_singleton] at short ⊢
      have bounded := decode_lt_capacity bytes (by omega)
      have digit : byte.toNat < 256 := byte.toNat_lt
      have value := decode_append_value bytes byte (by omega) bounded
      have quotient : decode (bytes ++ [byte]) / 256 = decode bytes := by
        apply UInt64.toNat_inj.mp
        rw [UInt64.toNat_div, value]
        change ((decode bytes).toNat * 256 + byte.toNat) / 256 = (decode bytes).toNat
        omega
      have last : (decode (bytes ++ [byte])).toUInt8 = byte := by
        apply UInt8.toNat_inj.mp
        rw [UInt64.toNat_toUInt8, value]
        omega
      rw [encode, quotient, last, induction (by omega)]

end BigEndian

theorem capacity_eq_pow (width : Nat) : BigEndian.capacity width = 256 ^ width := by
  induction width with
  | zero => rfl
  | succ width induction => rw [BigEndian.capacity, induction, pow_succ]

theorem supported_width_le {width : Nat} (supported : width ∈ supportedWidths) : width ≤ 8 := by
  simp only [supportedWidths, List.mem_cons, List.not_mem_nil, or_false] at supported
  omega

namespace Operand

theorem encode_ok_iff {value : Operand} {width : Nat} {bytes : List UInt8} :
    encode value width = .ok bytes ↔
      width ∈ supportedWidths ∧ value.toNat < BigEndian.capacity width ∧
        BigEndian.encode width value = bytes := by
  unfold encode
  split_ifs with supported oversized
  · simp [Nat.not_lt.mpr oversized]
  · simp [supported, Nat.not_le.mp oversized]
  · simp [supported]

theorem encode_oversized {value : Operand} {width : Nat} (supported : width ∈ supportedWidths)
    (oversized : ¬ value.toNat < 256 ^ width) :
    encode value width = .error (.oversizedOperand value width) := by
  rw [← capacity_eq_pow, Nat.not_lt] at oversized
  rw [encode, if_neg (not_not.mpr supported), if_pos oversized]

theorem encode_succeeds {value : Operand} {width : Nat} (supported : width ∈ supportedWidths)
    (fits : value.toNat < 256 ^ width) : ∃ front, encode value width = .ok front := by
  rw [← capacity_eq_pow] at fits
  exact ⟨_, encode_ok_iff.mpr ⟨supported, fits, rfl⟩⟩

theorem length_of_encode {value : Operand} {width : Nat} {bytes : List UInt8}
    (encoded : encode value width = .ok bytes) : bytes.length = width := by
  obtain ⟨_, _, rfl⟩ := encode_ok_iff.mp encoded
  exact BigEndian.length_encode width value

/-- Reading is the inverse of writing. A value written in `width` bytes has that length, so
the right side also says that the window is long enough. -/
theorem read_ok_iff {window : List UInt8} {width : Nat} {value : Operand} :
    read window width = .ok value ↔ encode value width = .ok (window.take width) := by
  constructor
  · intro found
    simp only [read] at found
    split_ifs at found with supported short
    have full : (window.take width).length = width := by
      rw [List.length_take] at short ⊢
      omega
    have eight := supported_width_le supported
    have same : BigEndian.decode (window.take width) = value := Except.ok.inj found
    have bounded := BigEndian.decode_lt_capacity (window.take width) (by omega)
    have written := BigEndian.encode_decode (window.take width) (by omega)
    rw [full, same] at bounded written
    apply encode_ok_iff.mpr
    exact ⟨supported, bounded, written⟩
  · intro encoded
    have full := length_of_encode encoded
    obtain ⟨supported, bounded, written⟩ := encode_ok_iff.mp encoded
    unfold read
    rw [if_neg (not_not.mpr supported), if_neg (by omega), ← written,
      BigEndian.decode_encode width value bounded]

theorem encode_fields_cons_iff {width : Nat} {widths : List Nat} {value : Operand}
    {values : List Operand} {bytes : List UInt8} :
    encodeFields (width :: widths) (value :: values) = .ok bytes ↔
      ∃ front rest, encode value width = .ok front ∧ encodeFields widths values = .ok rest ∧
        front ++ rest = bytes := by
  rw [encodeFields, bind_ok_iff]
  simp only [bind_ok_iff, Except.ok.injEq]
  constructor
  · intro written
    obtain ⟨front, first, rest, others, joined⟩ := written
    exact ⟨front, rest, first, others, joined⟩
  · intro parts
    obtain ⟨front, rest, first, others, joined⟩ := parts
    exact ⟨front, first, rest, others, joined⟩

theorem length_of_encode_fields {widths : List Nat} {values : List Operand} {bytes : List UInt8}
    (arity : values.length = widths.length) (encoded : encodeFields widths values = .ok bytes) :
    bytes.length = widths.sum := by
  induction widths generalizing values bytes with
  | nil =>
      cases encoded
      rfl
  | cons width widths induction =>
      cases values with
      | nil => contradiction
      | cons value values =>
          obtain ⟨front, rest, first, others, rfl⟩ := encode_fields_cons_iff.mp encoded
          have front_length := length_of_encode first
          have rest_length := induction (Nat.succ.inj arity) others
          rw [List.length_append, front_length, rest_length, List.sum_cons]

theorem read_fields_cons_iff {width : Nat} {widths : List Nat} {offset stop : Nat}
    {window : List UInt8} {value : Operand} {values : List Operand} :
    readFields (width :: widths) offset window = .ok (value :: values, stop) ↔
      read window width = .ok value ∧
        readFields widths (offset + width) (window.drop width) = .ok (values, stop) := by
  rw [readFields]
  cases front : read window width with
  | error cause => simp
  | ok found =>
      simp only [bind_ok_iff, Prod.exists, Except.ok.injEq, Prod.mk.injEq, List.cons.injEq]
      constructor
      · intro all
        obtain ⟨_, _, read, ⟨rfl, rfl⟩, rfl⟩ := all
        exact ⟨rfl, read⟩
      · intro parts
        obtain ⟨rfl, read⟩ := parts
        exact ⟨values, stop, read, ⟨rfl, rfl⟩, rfl⟩

theorem read_fields_cons_nil {width : Nat} {widths : List Nat} {offset stop : Nat}
    {window : List UInt8} : readFields (width :: widths) offset window ≠ .ok ([], stop) := by
  rw [readFields]
  cases read window width with
  | error cause => simp
  | ok found => simp [bind_ok_iff]

theorem read_fields_ok_iff {widths : List Nat} {offset stop : Nat} {window : List UInt8}
    {values : List Operand} :
    readFields widths offset window = .ok (values, stop) ↔
      stop = offset + widths.sum ∧ values.length = widths.length ∧
        encodeFields widths values = .ok (window.take widths.sum) := by
  induction widths generalizing offset window values with
  | nil => cases values <;> simp [readFields, encodeFields, eq_comm]
  | cons width widths induction =>
      cases values with
      | nil => simp [read_fields_cons_nil]
      | cons value values =>
          have joined : window.take ((width :: widths).sum) =
              window.take width ++ (window.drop width).take widths.sum := List.take_add
          rw [read_fields_cons_iff, read_ok_iff, induction, encode_fields_cons_iff, joined,
            List.sum_cons, Nat.add_assoc, List.length_cons, List.length_cons,
            Nat.add_right_cancel_iff]
          constructor
          · intro read
            obtain ⟨first, stops, arity, others⟩ := read
            exact ⟨stops, arity, _, _, first, others, rfl⟩
          · intro written
            obtain ⟨stops, arity, front, rest, first, others, same⟩ := written
            have front_length := length_of_encode first
            have rest_length := length_of_encode_fields arity others
            have lengths := congrArg List.length same
            simp only [List.length_append, List.length_take, List.length_drop] at lengths
            obtain ⟨rfl, rfl⟩ := List.append_inj same (by rw [List.length_take]; omega)
            exact ⟨first, stops, arity, others⟩

theorem write_ok_iff {buffer : List UInt8} {value : Operand} {width : Nat}
    {written : List UInt8} :
    write buffer value width = .ok written ↔
      ∃ front, encode value width = .ok front ∧ width ≤ buffer.length ∧
        front ++ buffer.drop width = written := by
  rw [write, bind_ok_iff]
  apply exists_congr
  intro front
  by_cases short : buffer.length < width
  · simp [Nat.not_le.mpr short, short]
  · simp [short, Nat.not_lt.mp short]

/-- Whether a field can be read is told by its width and the length of the window alone. -/
theorem read_refused_iff (window : List UInt8) (width : Nat) :
    (∃ cause, read window width = .error cause) ↔
      width ∈ supportedWidths → window.length < width := by
  have taken : (window.take width).length < width ↔ window.length < width := by
    rw [List.length_take]
    omega
  by_cases supported : width ∈ supportedWidths
  · by_cases short : window.length < width
    · simp only [read, supported, not_true, if_false, taken, short, if_true, true_imp_iff,
        iff_true]
      exact ⟨_, rfl⟩
    · simp only [read, supported, not_true, if_false, taken, short, reduceCtorEq, exists_false,
        true_imp_iff, iff_self]
  · simp [read, supported]

/-- The refusal of a row of fields of which `available` bytes are there. -/
def shortField? : List Nat → (offset available : Nat) → Option CodeError
  | [], _, _ => none
  | width :: widths, offset, available =>
      if width ∈ supportedWidths ∧ width ≤ available then
        shortField? widths (offset + width) (available - width)
      else some (.shortOperand offset width available)

/-- What the bytes of a window are has no part in a refusal, only how many there are. -/
theorem read_fields_error_iff {widths : List Nat} {offset : Nat} {window : List UInt8}
    {cause : CodeError} :
    readFields widths offset window = .error cause ↔
      shortField? widths offset window.length = some cause := by
  induction widths generalizing offset window with
  | nil => simp [readFields, shortField?]
  | cons width widths induction =>
      have refused := read_refused_iff window width
      rw [readFields, shortField?]
      cases front : read window width with
      | error other =>
          have short := refused.mp ⟨other, front⟩
          rw [if_neg (by intro room; exact absurd (short room.1) (Nat.not_lt.mpr room.2))]
          simp
      | ok value =>
          have room : ¬ (width ∈ supportedWidths → window.length < width) := by
            intro short
            obtain ⟨other, failed⟩ := refused.mpr short
            rw [front] at failed
            contradiction
          rw [Classical.not_imp, Nat.not_lt] at room
          rw [if_pos room, ← List.length_drop, ← induction]
          cases readFields widths (offset + width) (window.drop width) with
          | error other => simp [bind, Except.bind]
          | ok read => simp [bind, Except.bind]

/-- The first field of a row that has no encoding or no room in the bytes that are there. -/
structure FirstShort (widths : List Nat) (available field width : Nat) : Prop where
  here : widths[field]? = some width
  stuck : ¬ (width ∈ supportedWidths ∧ (widths.take field).sum + width ≤ available)
  before : ∀ earlier other, earlier < field → widths[earlier]? = some other →
    other ∈ supportedWidths ∧ (widths.take earlier).sum + other ≤ available

theorem first_short_zero_iff {first available width : Nat} {widths : List Nat} :
    FirstShort (first :: widths) available 0 width ↔
      first = width ∧ ¬ (first ∈ supportedWidths ∧ first ≤ available) := by
  constructor
  · intro leading
    have same : first = width := Option.some.inj leading.here
    have stuck := leading.stuck
    rw [List.take_zero, List.sum_nil, Nat.zero_add, ← same] at stuck
    exact ⟨same, stuck⟩
  · intro leading
    have stuck := leading.2
    rw [leading.1] at stuck ⊢
    refine ⟨rfl, ?_, by simp⟩
    rw [List.take_zero, List.sum_nil, Nat.zero_add]
    exact stuck

theorem first_short_succ_iff {first available field width : Nat} {widths : List Nat} :
    FirstShort (first :: widths) available (field + 1) width ↔
      (first ∈ supportedWidths ∧ first ≤ available) ∧
        FirstShort widths (available - first) field width := by
  constructor
  · intro whole
    have room := whole.before 0 first (Nat.succ_pos field) rfl
    have stuck := whole.stuck
    rw [List.take_zero, List.sum_nil, Nat.zero_add] at room
    rw [List.take_succ_cons, List.sum_cons] at stuck
    refine ⟨room, whole.here, ?_, ?_⟩
    · intro fit
      exact stuck ⟨fit.1, by omega⟩
    · intro earlier other below there
      have fit := whole.before (earlier + 1) other (Nat.succ_lt_succ below) there
      rw [List.take_succ_cons, List.sum_cons] at fit
      exact ⟨fit.1, by omega⟩
  · intro parts
    have room := parts.1
    have rest := parts.2
    refine ⟨rest.here, ?_, ?_⟩
    · rw [List.take_succ_cons, List.sum_cons]
      intro fit
      exact rest.stuck ⟨fit.1, by omega⟩
    · intro earlier other below there
      cases earlier with
      | zero =>
          cases there
          simpa using room
      | succ earlier =>
          have fit := rest.before earlier other (Nat.lt_of_succ_lt_succ below) there
          rw [List.take_succ_cons, List.sum_cons]
          exact ⟨fit.1, by omega⟩

/-- The fields before it fit, so it begins within the bytes that are there. -/
theorem FirstShort.start_le {widths : List Nat} {available field width : Nat}
    (first : FirstShort widths available field width) : (widths.take field).sum ≤ available := by
  induction field generalizing widths available with
  | zero => exact Nat.zero_le _
  | succ field induction =>
      cases widths with
      | nil => cases first.here
      | cons head widths =>
          have parts := first_short_succ_iff.mp first
          have inner := induction parts.2
          have room := parts.1.2
          rw [List.take_succ_cons, List.sum_cons]
          omega

theorem short_field_some_iff {widths : List Nat} {offset available : Nat} {cause : CodeError} :
    shortField? widths offset available = some cause ↔
      ∃ field width, FirstShort widths available field width ∧
        cause = .shortOperand (offset + (widths.take field).sum) width
          (available - (widths.take field).sum) := by
  induction widths generalizing offset available with
  | nil =>
      constructor
      · intro short
        cases short
      · intro found
        obtain ⟨field, width, first, _⟩ := found
        cases first.here
  | cons head widths induction =>
      rw [shortField?]
      split_ifs with room
      · rw [induction]
        constructor
        · intro found
          obtain ⟨field, width, first, rfl⟩ := found
          refine ⟨field + 1, width, first_short_succ_iff.mpr ⟨room, first⟩, ?_⟩
          rw [List.take_succ_cons, List.sum_cons, Nat.add_assoc, Nat.sub_sub]
        · intro found
          obtain ⟨field, width, first, rfl⟩ := found
          cases field with
          | zero => exact absurd room (first_short_zero_iff.mp first).2
          | succ field =>
              refine ⟨field, width, (first_short_succ_iff.mp first).2, ?_⟩
              rw [List.take_succ_cons, List.sum_cons, Nat.add_assoc, Nat.sub_sub]
      · constructor
        · intro short
          cases short
          exact ⟨0, head, first_short_zero_iff.mpr ⟨rfl, room⟩, by simp⟩
        · intro found
          obtain ⟨field, width, first, rfl⟩ := found
          cases field with
          | zero =>
              rw [(first_short_zero_iff.mp first).1]
              simp
          | succ field => exact absurd (first_short_succ_iff.mp first).1 room

theorem short_field_none_iff {widths : List Nat} {offset available : Nat} :
    shortField? widths offset available = none ↔
      (∀ width ∈ widths, width ∈ supportedWidths) ∧ widths.sum ≤ available := by
  induction widths generalizing offset available with
  | nil => simp [shortField?]
  | cons width widths induction =>
      rw [shortField?, List.forall_mem_cons, List.sum_cons]
      split_ifs with room
      · rw [induction]
        simp only [room.1, true_and, and_congr_right_iff]
        intro _
        omega
      · simp only [false_iff]
        intro readable
        exact room ⟨readable.1.1, by omega⟩

theorem field_inside {widths : List Nat} {field width : Nat} (here : widths[field]? = some width) :
    (widths.take field).sum + width ≤ widths.sum := by
  obtain ⟨bound, rfl⟩ := List.getElem?_eq_some_iff.mp here
  have parts := List.take_append_drop field widths
  rw [List.drop_eq_getElem_cons bound] at parts
  have total := congrArg List.sum parts
  rw [List.sum_append, List.sum_cons] at total
  omega

theorem encode_fields_set {widths : List Nat} {values : List Operand} {bytes front : List UInt8}
    {field width : Nat} {value : Operand} (arity : values.length = widths.length)
    (encoded : encodeFields widths values = .ok bytes) (here : widths[field]? = some width)
    (written : encode value width = .ok front) :
    encodeFields widths (values.set field value) =
      .ok (bytes.take (widths.take field).sum ++ front ++
        bytes.drop ((widths.take field).sum + width)) := by
  induction widths generalizing values bytes field with
  | nil => cases here
  | cons first widths induction =>
      cases values with
      | nil => contradiction
      | cons head values =>
          obtain ⟨begin, rest, leading, others, rfl⟩ := encode_fields_cons_iff.mp encoded
          have begin_length := length_of_encode leading
          cases field with
          | zero =>
              cases here
              refine encode_fields_cons_iff.mpr ⟨front, rest, written, others, ?_⟩
              simp [← begin_length]
          | succ field =>
              have inner := induction (Nat.succ.inj arity) others here
              refine encode_fields_cons_iff.mpr ⟨begin, _, leading, inner, ?_⟩
              rw [List.take_succ_cons, List.sum_cons, Nat.add_assoc, ← begin_length,
                List.take_length_add_append, List.drop_length_add_append]
              simp only [List.append_assoc]

end Operand

end Opstream
