import Opstream.Proofs.Numerals

/-!
Writing over a buffer in place. Main statement: a write is refused for its width, then for its
value, then for lack of room, and all of that before the first byte is stored; one that is not
refused changes its own field and nothing else.
-/

namespace Opstream

/-- Why a write in place ends early: it is refused, or the machine has no answer for a step. -/
inductive Halt where
  | refused (cause : CodeError)
  | undefined
  deriving DecidableEq, Repr

/-- Steps that change a buffer as they go. What has been stored by then is not taken back. -/
abbrev InPlace := EStateM Halt (List UInt8)

namespace InPlace

section

variable {First Second : Type} {first : InPlace First} {next : First → InPlace Second}
  {buffer after : List UInt8}

theorem run_bind {value : First} (done : first.run buffer = .ok value after) :
    (first >>= next).run buffer = (next value).run after := by
  unfold EStateM.run at done ⊢
  simp only [bind, EStateM.bind, done]

end

def refuse (cause : CodeError) : InPlace Unit := throw (.refused cause)

def answer {Value : Type} : Option Value → InPlace Value
  | some value => pure value
  | none => throw .undefined

def length : InPlace Nat := return (← get).length

def store (place : Nat) (byte : UInt8) : InPlace Unit := do
  if place < (← length) then modify fun buffer => buffer.set place byte
  else throw .undefined

theorem run_refuse (cause : CodeError) (buffer : List UInt8) :
    (refuse cause).run buffer = .error (.refused cause) buffer := rfl

theorem run_answer {Value : Type} (value : Value) (buffer : List UInt8) :
    (answer (some value)).run buffer = .ok value buffer := rfl

theorem run_length (buffer : List UInt8) : length.run buffer = .ok buffer.length buffer := rfl

theorem run_store {place : Nat} {buffer : List UInt8} (inside : place < buffer.length)
    (byte : UInt8) : (store place byte).run buffer = .ok () (buffer.set place byte) := by
  rw [store, run_bind (run_length buffer), if_pos inside]
  rfl

end InPlace

namespace BigEndian

/-- The machine shifts by less than the length of a word. -/
def shiftLeft? (word : UInt64) (count : Nat) : Option UInt64 :=
  if count < 64 then some (word <<< UInt64.ofNat count) else none

def shiftRight? (word : UInt64) (count : Nat) : Option UInt64 :=
  if count < 64 then some (word >>> UInt64.ofNat count) else none

/-- The largest value of a field. That of eight bytes is the largest word, which no shift gives. -/
def limit? (width : Nat) : Option UInt64 :=
  if width = 8 then some 0xFFFFFFFFFFFFFFFF
  else (shiftLeft? 1 (8 * width)).map (· - 1)

theorem limit_of_supported {width : Nat} (supported : width ∈ supportedWidths) :
    ∃ limit, limit? width = some limit ∧ limit.toNat + 1 = 256 ^ width := by
  simp only [supportedWidths, List.mem_cons, List.not_mem_nil, or_false] at supported
  rcases supported with rfl | rfl | rfl | rfl
  · exact ⟨0xFF, by decide, rfl⟩
  · exact ⟨0xFFFF, by decide, rfl⟩
  · exact ⟨0xFFFFFFFF, by decide, rfl⟩
  · exact ⟨0xFFFFFFFFFFFFFFFF, by decide, rfl⟩

theorem shift_out_succ (width : Nat) (word : UInt64) :
    shiftOut (width + 1) word =
      ((word >>> UInt64.ofNat (8 * width)) &&& 0xFF).toUInt8 :: shiftOut width word := by
  rw [shiftOut, List.range_succ_eq_map, List.map_cons, List.map_map]
  apply congrArg (List.cons _)
  apply List.map_congr_left
  intro place _
  have next : width + 1 - 1 - (place + 1) = width - 1 - place := by omega
  rw [Function.comp_apply, Nat.succ_eq_add_one, next]

theorem length_shift_out (width : Nat) (word : UInt64) : (shiftOut width word).length = width := by
  rw [shiftOut, List.length_map, List.length_range]

end BigEndian

namespace Operand

/-- Stores the last `remaining` bytes of a value one by one, the first of them at `place`. -/
def storeBytes (value : Operand) : (place remaining : Nat) → InPlace Unit
  | _, 0 => pure ()
  | place, remaining + 1 => do
      let moved ← InPlace.answer (BigEndian.shiftRight? value (8 * remaining))
      InPlace.store place (moved &&& 0xFF).toUInt8
      storeBytes value (place + 1) remaining

/-- Writes a value to the front of the buffer by the words and shifts of the machine. -/
def writeInPlace (value : Operand) (width : Nat) : InPlace Unit :=
  if width ∉ supportedWidths then InPlace.refuse (.unsupportedWidth width)
  else do
    let limit ← InPlace.answer (BigEndian.limit? width)
    if limit < value then InPlace.refuse (.oversizedOperand value width)
    else do
      let available ← InPlace.length
      if available < width then InPlace.refuse (.shortOperand 0 width available)
      else storeBytes value 0 width

/-- What is written already stands in front of `place`, and what is not written yet is as it was. -/
theorem store_bytes_eq {value : Operand} {place remaining : Nat} {buffer : List UInt8}
    (word : remaining ≤ 8) (room : place + remaining ≤ buffer.length) :
    (storeBytes value place remaining).run buffer =
      .ok () (buffer.take place ++
        (BigEndian.shiftOut remaining value ++ buffer.drop (place + remaining))) := by
  induction remaining generalizing place buffer with
  | zero =>
      change EStateM.Result.ok () buffer = _
      simp [BigEndian.shiftOut]
  | succ remaining induction =>
      have inside : place < buffer.length := by omega
      have moved : BigEndian.shiftRight? value (8 * remaining) =
          some (value >>> UInt64.ofNat (8 * remaining)) := if_pos (by omega)
      let byte := ((value >>> UInt64.ofNat (8 * remaining)) &&& 0xFF).toUInt8
      have front : (buffer.set place byte).take (place + 1) = buffer.take place ++ [byte] := by
        rw [List.set_eq_take_append_cons_drop, if_pos inside, List.append_cons]
        exact List.take_left' (by simp; omega)
      have behind : (buffer.set place byte).drop (place + 1 + remaining) =
          buffer.drop (place + (remaining + 1)) := by
        rw [List.drop_set_of_lt (by omega), Nat.add_assoc, Nat.add_comm 1]
      rw [storeBytes, moved, InPlace.run_bind (InPlace.run_answer ..),
        InPlace.run_bind (InPlace.run_store inside byte),
        induction (by omega) (by rw [List.length_set]; omega), front, behind,
        BigEndian.shift_out_succ, List.append_assoc]
      rfl

/-- No step of a write is undefined, and no byte is stored before the last reason to refuse is
ruled out. -/
theorem write_in_place_eq (buffer : List UInt8) (value : Operand) (width : Nat) :
    (writeInPlace value width).run buffer =
      match write buffer value width with
      | .ok written => .ok () written
      | .error cause => .error (.refused cause) buffer := by
  by_cases supported : width ∈ supportedWidths
  · obtain ⟨limit, known, largest⟩ := BigEndian.limit_of_supported supported
    rw [writeInPlace, if_neg (not_not.mpr supported), known,
      InPlace.run_bind (InPlace.run_answer ..)]
    by_cases fits : value.toNat < 256 ^ width
    · have below : ¬ limit < value := by
        rw [UInt64.lt_iff_toNat_lt]
        omega
      obtain ⟨front, encoded⟩ := encode_succeeds supported fits
      rw [if_neg below, InPlace.run_bind (InPlace.run_length buffer)]
      by_cases short : buffer.length < width
      · rw [if_pos short, InPlace.run_refuse, write, encoded, ok_bind, if_pos short]
      · have wrote := write_ok_iff.mpr ⟨front, encoded, Nat.not_lt.mp short, rfl⟩
        have room : 0 + width ≤ buffer.length := by omega
        have stored : (storeBytes value 0 width).run buffer = _ :=
          store_bytes_eq (supported_width_le supported) room
        rw [Nat.zero_add, ← write_eq_shift_out wrote] at stored
        rw [if_neg short, stored, wrote]
        rfl
    · have above : limit < value := by
        rw [UInt64.lt_iff_toNat_lt]
        omega
      rw [if_pos above, InPlace.run_refuse, write, encode_oversized supported fits]
      rfl
  · rw [writeInPlace, if_pos supported, InPlace.run_refuse, write, encode, if_pos supported]
    rfl

inductive Writes (buffer : List UInt8) (value : Operand) (width : Nat) :
    Except CodeError (List UInt8) → Prop where
  | unsupported (odd : width ∉ supportedWidths) :
      Writes buffer value width (.error (.unsupportedWidth width))
  | oversized (supported : width ∈ supportedWidths) (large : 256 ^ width ≤ value.toNat) :
      Writes buffer value width (.error (.oversizedOperand value width))
  | short (supported : width ∈ supportedWidths) (fits : value.toNat < 256 ^ width)
      (lacking : buffer.length < width) :
      Writes buffer value width (.error (.shortOperand 0 width buffer.length))
  | written (supported : width ∈ supportedWidths) (fits : value.toNat < 256 ^ width)
      (room : width ≤ buffer.length) :
      Writes buffer value width (.ok (BigEndian.shiftOut width value ++ buffer.drop width))

theorem write_of_writes {buffer : List UInt8} {value : Operand} {width : Nat}
    {outcome : Except CodeError (List UInt8)} (writes : Writes buffer value width outcome) :
    write buffer value width = outcome := by
  cases writes with
  | unsupported odd =>
      rw [write, encode, if_pos odd]
      rfl
  | oversized supported large =>
      rw [write, encode_oversized supported (Nat.not_lt.mpr large)]
      rfl
  | short supported fits lacking =>
      obtain ⟨front, encoded⟩ := encode_succeeds supported fits
      rw [write, encoded, ok_bind, if_pos lacking]
  | written supported fits room =>
      obtain ⟨front, encoded⟩ := encode_succeeds supported fits
      have wrote := write_ok_iff.mpr ⟨front, encoded, room, rfl⟩
      rw [← write_eq_shift_out wrote]
      exact wrote

theorem writes_write (buffer : List UInt8) (value : Operand) (width : Nat) :
    Writes buffer value width (write buffer value width) := by
  have exactly {outcome : Except CodeError (List UInt8)}
      (writes : Writes buffer value width outcome) :
      Writes buffer value width (write buffer value width) := write_of_writes writes ▸ writes
  by_cases supported : width ∈ supportedWidths
  · by_cases fits : value.toNat < 256 ^ width
    · by_cases room : width ≤ buffer.length
      · exact exactly (.written supported fits room)
      · exact exactly (.short supported fits (Nat.not_le.mp room))
    · exact exactly (.oversized supported (Nat.not_lt.mp fits))
  · exact exactly (.unsupported supported)

end Operand

/-- Take any buffer, any value and any number as its width. Writing is refused for a width that has
no encoding, else for a value that has no room in the width, else for a buffer that is too short, in
this order; otherwise it succeeds. Then the buffer is as long as before, what is behind the field is
as before, and the field itself depends on the value alone. Done byte by byte with the shifts of a
machine, a write comes to the same: none of its steps is undefined, and one that is refused leaves
the buffer as it was. -/
theorem writes_refused_before_first_byte (buffer : List UInt8) (value : Operand) (width : Nat) :
    (∀ outcome, Operand.write buffer value width = outcome ↔
      Operand.Writes buffer value width outcome) ∧
    ((∃ written, Operand.write buffer value width = .ok written) ↔
      (width = 1 ∨ width = 2 ∨ width = 4 ∨ width = 8) ∧ value.toNat < 256 ^ width ∧
        width ≤ buffer.length) ∧
    (∀ written, Operand.write buffer value width = .ok written →
      written.length = buffer.length ∧ written.drop width = buffer.drop width ∧
        written.take width = BigEndian.shiftOut width value) ∧
    (Operand.writeInPlace value width).run buffer =
      match Operand.write buffer value width with
      | .ok written => .ok () written
      | .error cause => .error (.refused cause) buffer := by
  have answers {outcome : Except CodeError (List UInt8)} :
      Operand.write buffer value width = outcome ↔ Operand.Writes buffer value width outcome :=
    answer_iff (Operand.writes_write buffer value width) Operand.write_of_writes
  have widths : (width = 1 ∨ width = 2 ∨ width = 4 ∨ width = 8) ↔ width ∈ supportedWidths := by
    simp only [supportedWidths, List.mem_cons, List.not_mem_nil, or_false]
  have field : (BigEndian.shiftOut width value).length = width := BigEndian.length_shift_out ..
  refine ⟨fun _ => answers, ?_, ?_, Operand.write_in_place_eq buffer value width⟩
  · rw [widths]
    constructor
    · intro succeeds
      obtain ⟨written, wrote⟩ := succeeds
      cases answers.mp wrote with
      | written supported fits room => exact ⟨supported, fits, room⟩
    · intro allowed
      exact ⟨_, answers.mpr (.written allowed.1 allowed.2.1 allowed.2.2)⟩
  · intro written wrote
    cases answers.mp wrote with
    | written supported fits room =>
        refine ⟨?_, List.drop_left' field, List.take_left' field⟩
        rw [List.length_append, field, List.length_drop]
        omega

/-- Of three bytes two are overwritten; a field of four is refused, and for its value first. -/
theorem field_of_four_refused_in_three :
    let buffer : List UInt8 := [7, 8, 9]
    let written : List UInt8 := [1, 2, 9]
    Operand.write buffer 258 2 = .ok written ∧ written.drop 2 = buffer.drop 2 ∧
      (Operand.writeInPlace 258 2).run buffer = .ok () written ∧
      (Operand.writeInPlace 258 4).run buffer =
        .error (.refused (.shortOperand 0 4 3)) buffer ∧
      (Operand.writeInPlace 4294967296 4).run buffer =
        .error (.refused (.oversizedOperand 4294967296 4)) buffer := by
  intro buffer written
  obtain ⟨_, _, framed, stored⟩ := writes_refused_before_first_byte buffer 258 2
  obtain ⟨_, _, _, short⟩ := writes_refused_before_first_byte buffer 258 4
  obtain ⟨_, _, _, large⟩ := writes_refused_before_first_byte buffer 4294967296 4
  have wrote : Operand.write buffer 258 2 = .ok written := by decide
  exact ⟨wrote, (framed written wrote).2.1, stored, short, large⟩

end Opstream
