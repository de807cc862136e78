import Opstream.CommandLine
import Opstream.Proofs.Reassembly

/-!
Commands on a folder. Main statement: a command that fails changes no file and prints nothing, a
disassembly only prints, and an assembly changes nothing but its output, which then holds the code
of its input and can be listed and assembled once more.
-/

namespace Opstream

namespace Text

def utf8 (text : String) : List UInt8 := text.toList.flatMap String.utf8EncodeChar

theorem utf8_to_byte_array (text : String) : (utf8 text).toByteArray = text.toByteArray :=
  String.utf8Encode_toList

theorem from_utf8_iff {bytes : List UInt8} {text : String} :
    String.fromUTF8? bytes.toByteArray = some text ↔ bytes = utf8 text := by
  constructor
  · intro decoded
    have same : bytes.toByteArray = (utf8 text).toByteArray := by
      rw [utf8_to_byte_array]
      rw [String.fromUTF8?] at decoded
      split at decoded
      · cases decoded
        rfl
      · contradiction
    have data := congrArg ByteArray.data same
    rw [List.data_toByteArray, List.data_toByteArray] at data
    exact Array.toList_inj.mpr data
  · intro same
    rw [same, utf8_to_byte_array]
    exact dif_pos text.isValidUTF8

end Text

namespace Folder

/-- Names of what lies in the folder itself, if it is there. -/
def Plain (name : String) : Prop :=
  name ≠ "" ∧ '/' ∉ name.toList ∧ name ≠ "." ∧ name ≠ ".."

instance (name : String) : Decidable (Plain name) :=
  inferInstanceAs (Decidable (_ ∧ _ ∧ _ ∧ _))

def file? (folder : Folder) (name : String) : Option (List UInt8) :=
  if folder.holdsFolder [name] then none else folder.files.lookup [name]

/-- The file of one name holds the bytes. All else is as before. -/
structure Written (before : Folder) (name : String) (bytes : List UInt8) (after : Folder) :
    Prop where
  file : after.file? name = some bytes
  others : ∀ place ≠ [name], after.files.lookup place = before.files.lookup place
  folders : after.folders = before.folders

variable {folder after : Folder} {name : String} {bytes : List UInt8}

theorem names_plain (plain : Plain name) : names name = [name] := by
  obtain ⟨nonempty, unslashed, _, _⟩ := plain
  rw [names, List.splitOn_eq_singleton unslashed]
  simp [nonempty]

theorem unslashed_end (plain : Plain name) : endsInSlash name = false := by
  apply decide_eq_false
  intro last
  exact plain.2.1 (List.mem_of_getLast? last)

theorem resolve_plain (plain : Plain name) : folder.resolve name = .ok [name] := by
  have start : origin name = [] := if_neg fun first => plain.2.1 (List.mem_of_head? first)
  rw [resolve, if_neg plain.1, start, names_plain plain]
  obtain ⟨_, _, undotted, unparented⟩ := plain
  have held : folder.holdsFolder [] = true := rfl
  rw [walk, if_pos held, step, if_neg undotted, if_neg unparented]
  rfl

theorem read_plain_iff (plain : Plain name) :
    folder.read name = .ok bytes ↔ folder.file? name = some bytes := by
  rw [read, bind_ok_iff, resolve_plain plain, file?]
  cases held : folder.holdsFolder [name] with
  | true => simp [held, bind_ok_iff, throw, throwThe, MonadExceptOf.throw]
  | false =>
      cases found : folder.files.lookup [name] with
      | none => simp [held, found, throw, throwThe, MonadExceptOf.throw]
      | some kept => simp [held, found, unslashed_end plain, pure, Except.pure]

theorem write_plain_iff (plain : Plain name) :
    folder.write name bytes = .ok after ↔
      folder.holdsFolder [name] = false ∧ folder.set [name] bytes = after := by
  rw [write, bind_ok_iff, resolve_plain plain, unslashed_end plain]
  cases held : folder.holdsFolder [name] with
  | true => simp [held, throw, throwThe, MonadExceptOf.throw]
  | false => simp [held, pure, Except.pure]

theorem lookup_set_other {place other : List String} (apart : other ≠ place) :
    (folder.set place bytes).files.lookup other = folder.files.lookup other := by
  have missed : (other == place) = false := beq_eq_false_iff_ne.mpr apart
  rw [set, List.lookup_cons, missed]
  induction folder.files with
  | nil => rfl
  | cons file files induction =>
      obtain ⟨found, held⟩ := file
      by_cases same : found = place
      · have passed : (other == found) = false := same ▸ missed
        rw [List.filter_cons_of_neg (by simp [same]), List.lookup_cons, passed]
        exact induction
      · rw [List.filter_cons_of_pos (by simp [same]), List.lookup_cons, List.lookup_cons]
        cases other == found
        · exact induction
        · rfl

theorem written_set (free : folder.holdsFolder [name] = false) (bytes : List UInt8) :
    folder.Written name bytes (folder.set [name] bytes) where
  file := by
    have still : (folder.set [name] bytes).holdsFolder [name] = false := free
    rw [file?, still]
    exact List.lookup_cons_self
  others _ apart := lookup_set_other apart
  folders := rfl

theorem Written.other_file {before : Folder} {other : String}
    (written : before.Written name bytes after) (apart : other ≠ name) :
    after.file? other = before.file? other := by
  have places : [other] ≠ [name] := by simpa using apart
  rw [file?, file?, written.others [other] places, holdsFolder, holdsFolder, written.folders]

end Folder

theorem Report.success_ne_one (printed : String) : (Report.success printed).exitCode ≠ 1 := by
  change (0 : UInt32) ≠ 1
  decide

theorem Report.failure_ne_zero (failure : Failure) : (Report.failure failure).exitCode ≠ 0 := by
  change (1 : UInt32) ≠ 0
  decide

namespace Command

def args : Command → List String
  | .assemble input output => ["assemble", input, output]
  | .disassemble true input => ["disassemble", "--table", input]
  | .disassemble false input => ["disassemble", input]

theorem of_args_iff {args : List String} {command : Command} :
    ofArgs? args = some command ↔ args = command.args := by
  constructor
  · intro known
    rw [ofArgs?.eq_def] at known
    split at known <;> cases known <;> rfl
  · rintro rfl
    fun_cases Command.args command <;> simp [ofArgs?]

theorem compile_ok_iff {path : String} {bytes code : List UInt8} :
    compile path bytes = .ok code ↔
      ∃ text, bytes = Text.utf8 text ∧ Table.standard.assemble text = .ok code := by
  have decoded (text : String) : listing? path bytes = .ok text ↔ bytes = Text.utf8 text := by
    rw [← Text.from_utf8_iff, listing?]
    cases String.fromUTF8? bytes.toByteArray <;> simp
  simp only [compile, bind_ok_iff, map_error_ok_iff, decoded]

inductive Done (folder : Folder) : Command → String → Folder → Prop where
  | assembled {input output : String} {bytes code : List UInt8} {after : Folder}
      (read : folder.read input = .ok bytes) (compiled : compile input bytes = .ok code)
      (written : folder.write output code = .ok after) :
      Done folder (.assemble input output) "" after
  | disassembled {input : String} {code : List UInt8} (ruled : Bool)
      (read : folder.read input = .ok code) :
      Done folder (.disassemble ruled input) (view ruled code) folder

end Command

namespace Folder

def run (folder : Folder) (args : List String) : Report × Folder :=
  StateT.run (runArgs args : StateM Folder Report) folder

variable {folder after : Folder} {printed : String}

theorem run_args (folder : Folder) (command : Command) :
    folder.run command.args = StateT.run (command.run : StateM Folder Report) folder := by
  rw [run, runArgs, Command.of_args_iff.mpr rfl]

theorem run_read (folder : Folder) (path : String) :
    StateT.run (Files.readFile path : StateM Folder _) folder = (folder.read path, folder) := rfl

theorem run_write (folder : Folder) (path : String) (bytes : List UInt8) :
    StateT.run (Files.writeFile path bytes : StateM Folder _) folder =
      match folder.write path bytes with
      | .ok after => (.ok (), after)
      | .error error => (.error error, folder) := by
  cases written : folder.write path bytes <;> simp [Files.writeFile, written] <;> rfl

theorem run_after {First Second : Type} (first : StateM Folder First)
    (next : First → StateM Folder Second) (folder : Folder) :
    StateT.run (first >>= next) folder =
      StateT.run (next (StateT.run first folder).1) (StateT.run first folder).2 := rfl

theorem run_disassemble (folder : Folder) (ruled : Bool) (input : String) :
    folder.run (Command.disassemble ruled input).args =
      match folder.read input with
      | .error error => (.failure (.unreadableCode input error), folder)
      | .ok code => (.success (Command.view ruled code), folder) := by
  rw [run_args, Command.run, run_after, run_read]
  cases folder.read input <;> rfl

theorem run_assemble (folder : Folder) (input output : String) :
    folder.run (Command.assemble input output).args =
      match folder.read input with
      | .error error => (.failure (.unreadableListing input error), folder)
      | .ok bytes =>
          match Command.compile input bytes with
          | .error failure => (.failure failure, folder)
          | .ok code =>
              match folder.write output code with
              | .error error => (.failure (.unwritable output error), folder)
              | .ok after => (.success "", after) := by
  rw [run_args, Command.run, run_after, run_read]
  cases folder.read input with
  | error error => rfl
  | ok bytes =>
      dsimp only
      cases Command.compile input bytes with
      | error failure => rfl
      | ok code =>
          dsimp only
          rw [run_after, run_write]
          cases folder.write output code <;> rfl

theorem run_of_done {command : Command} (done : command.Done folder printed after) :
    folder.run command.args = (.success printed, after) := by
  cases done with
  | assembled read compiled written => simp only [run_assemble, read, compiled, written]
  | disassembled ruled read => simp only [run_disassemble, read]

theorem done_or_failed (folder : Folder) (command : Command) :
    (∃ printed after, command.Done folder printed after) ∨
      ∃ failure, folder.run command.args = (.failure failure, folder) := by
  cases command with
  | disassemble ruled input =>
      rw [run_disassemble]
      cases read : folder.read input with
      | error error => exact .inr ⟨_, rfl⟩
      | ok code => exact .inl ⟨_, _, .disassembled ruled read⟩
  | assemble input output =>
      rw [run_assemble]
      cases read : folder.read input with
      | error error => exact .inr ⟨_, rfl⟩
      | ok bytes =>
          cases compiled : Command.compile input bytes with
          | error failure => exact .inr ⟨failure, by simp only [compiled]⟩
          | ok code =>
              cases written : folder.write output code with
              | error error =>
                  exact .inr ⟨.unwritable output error, by simp only [compiled, written]⟩
              | ok after => exact .inl ⟨_, _, .assembled read compiled written⟩

theorem run_cases (folder : Folder) (args : List String) :
    (∃ command : Command, args = command.args ∧
      ∃ printed after, command.Done folder printed after) ∨
      ∃ failure, folder.run args = (.failure failure, folder) := by
  cases known : Command.ofArgs? args with
  | none =>
      right
      rw [run, runArgs, known]
      exact ⟨.usage, rfl⟩
  | some command =>
      cases Command.of_args_iff.mp known
      rcases folder.done_or_failed command with done | failed
      · exact .inl ⟨command, rfl, done⟩
      · exact .inr failed

theorem exit_zero_iff {command : Command} :
    (folder.run command.args).1.exitCode = 0 ↔
      ∃ printed after, command.Done folder printed after := by
  constructor
  · intro succeeded
    rcases folder.done_or_failed command with done | ⟨failure, refused⟩
    · exact done
    · rw [refused] at succeeded
      exact absurd succeeded (Report.failure_ne_zero failure)
  · rintro ⟨printed, after, done⟩
    rw [run_of_done done]
    rfl

theorem run_settled (folder : Folder) (args : List String) :
    let (report, after) := folder.run args
    (report.exitCode = 0 ∨ report.exitCode = 1) ∧
      (report.exitCode = 0 → ∃ command : Command, args = command.args) ∧
      (report.exitCode = 1 → report.output = "" ∧ after = folder) := by
  rcases folder.run_cases args with ⟨command, rfl, printed, after, done⟩ | ⟨failure, refused⟩
  · rw [run_of_done done]
    exact ⟨.inl rfl, fun _ => ⟨command, rfl⟩,
      fun failed => absurd failed (Report.success_ne_one printed)⟩
  · rw [refused]
    exact ⟨.inr rfl, fun succeeded => absurd succeeded (Report.failure_ne_zero failure),
      fun _ => ⟨rfl, rfl⟩⟩

def Lists (folder : Folder) (name : String) (code : List UInt8) : Prop :=
  ∃ text, folder.file? name = some (Text.utf8 text) ∧ Table.standard.assemble text = .ok code

variable {input output : String} {code : List UInt8}

theorem disassemble_held (ruled : Bool) (reading : Plain input)
    (held : folder.file? input = some code) :
    folder.run (Command.disassemble ruled input).args =
      (.success (Command.view ruled code), folder) :=
  run_of_done (.disassembled ruled ((read_plain_iff reading).mpr held))

theorem disassemble_keeps (folder : Folder) (ruled : Bool) (input : String) :
    (folder.run (Command.disassemble ruled input).args).2 = folder := by
  rw [run_disassemble]
  cases folder.read input <;> rfl

theorem disassemble_zero_iff (ruled : Bool) (reading : Plain input) :
    (folder.run (Command.disassemble ruled input).args).1.exitCode = 0 ↔
      ∃ code, folder.file? input = some code := by
  rw [exit_zero_iff]
  constructor
  · rintro ⟨_, _, done⟩
    cases done with
    | disassembled ruled read => exact ⟨_, (read_plain_iff reading).mp read⟩
  · rintro ⟨code, held⟩
    exact ⟨_, _, .disassembled ruled ((read_plain_iff reading).mpr held)⟩

theorem assemble_done_iff (reading : Plain input) (writing : Plain output) :
    (Command.assemble input output).Done folder printed after ↔
      ∃ code, folder.Lists input code ∧ folder.holdsFolder [output] = false ∧ printed = "" ∧
        after = folder.set [output] code := by
  constructor
  · intro done
    obtain ⟨read, compiled, written⟩ := done
    obtain ⟨text, rfl, assembled⟩ := Command.compile_ok_iff.mp compiled
    obtain ⟨free, rfl⟩ := (write_plain_iff writing).mp written
    exact ⟨_, ⟨text, (read_plain_iff reading).mp read, assembled⟩, free, rfl, rfl⟩
  · intro done
    obtain ⟨code, ⟨text, held, assembled⟩, free, rfl, rfl⟩ := done
    exact .assembled ((read_plain_iff reading).mpr held)
      (Command.compile_ok_iff.mpr ⟨text, rfl, assembled⟩)
      ((write_plain_iff writing).mpr ⟨free, rfl⟩)

theorem assemble_listed (reading : Plain input) (writing : Plain output)
    (listed : folder.Lists input code) (free : folder.holdsFolder [output] = false) :
    folder.run (Command.assemble input output).args = (.success "", folder.set [output] code) :=
  run_of_done ((assemble_done_iff reading writing).mpr ⟨code, listed, free, rfl, rfl⟩)

theorem assemble_zero_iff (reading : Plain input) (writing : Plain output) :
    (folder.run (Command.assemble input output).args).1.exitCode = 0 ↔
      (∃ code, folder.Lists input code) ∧ folder.holdsFolder [output] = false := by
  rw [exit_zero_iff]
  simp only [assemble_done_iff reading writing]
  constructor
  · rintro ⟨_, _, code, listed, free, _⟩
    exact ⟨⟨code, listed⟩, free⟩
  · rintro ⟨⟨code, listed⟩, free⟩
    exact ⟨"", _, code, listed, free, rfl, rfl⟩

theorem Lists.relisted {other : Folder} {listing : String} (listed : folder.Lists input code)
    (free : other.holdsFolder [listing] = false) :
    (other.set [listing] (Text.utf8 (Table.standard.disassemble code))).Lists listing code := by
  obtain ⟨_, _, assembled⟩ := listed
  exact ⟨_, (written_set free _).file,
    Table.reassemble_of_listable (Table.listable_of_assemble assembled)⟩

end Folder

/-- A command line that exits with 1 changes no file and prints nothing, and there is no other code
for failure. A disassembly changes no file either; if its input is a file it prints all there is to
print. An assembly succeeds exactly if its input is a listing of some code and its output no folder;
then its output holds the code, also in place of the input, and all else is as before. What is
printed for that output, kept in any file, assembles to the same code again. -/
theorem commands_change_only_their_output (folder : Folder) :
    (∀ args : List String,
      let (report, after) := folder.run args
      (report.exitCode = 0 ∨ report.exitCode = 1) ∧
      (report.exitCode = 0 → ∃ command : Command, args = command.args) ∧
      (report.exitCode = 1 → report.output = "" ∧ after = folder)) ∧
    (∀ (ruled : Bool) (input : String),
      (folder.run (Command.disassemble ruled input).args).2 = folder ∧
      (Folder.Plain input →
        ((folder.run (Command.disassemble ruled input).args).1.exitCode = 0 ↔
          ∃ code, folder.file? input = some code) ∧
        ∀ code, folder.file? input = some code →
          folder.run (Command.disassemble ruled input).args =
            (.success (if ruled then (Table.standard.ruledView code).render
              else Table.standard.disassemble code), folder))) ∧
    ∀ input output : String, Folder.Plain input → Folder.Plain output →
      ((folder.run ["assemble", input, output]).1.exitCode = 0 ↔
        (∃ code, folder.Lists input code) ∧ folder.holdsFolder [output] = false) ∧
      ∀ code, folder.Lists input code → folder.holdsFolder [output] = false →
        ∃ after, folder.run ["assemble", input, output] = (.success "", after) ∧
          folder.Written output code after ∧
          ∃ text, after.run ["disassemble", output] = (.success text, after) ∧
            ∀ listing copy, Folder.Plain listing → Folder.Plain copy →
              folder.holdsFolder [listing] = false → folder.holdsFolder [copy] = false →
                ∃ saved final, after.write listing (Text.utf8 text) = .ok saved ∧
                  saved.run ["assemble", listing, copy] = (.success "", final) ∧
                  saved.Written copy code final := by
  refine ⟨folder.run_settled, ?_, ?_⟩
  · intro ruled input
    refine ⟨folder.disassemble_keeps ruled input, ?_⟩
    intro reading
    exact ⟨Folder.disassemble_zero_iff ruled reading,
      fun code held => Folder.disassemble_held ruled reading held⟩
  intro input output reading writing
  refine ⟨Folder.assemble_zero_iff reading writing, ?_⟩
  intro code listed free
  let after := folder.set [output] code
  have written : folder.Written output code after := Folder.written_set free code
  have printed := Folder.disassemble_held false writing written.file
  refine ⟨after, Folder.assemble_listed reading writing listed free, written, _, printed, ?_⟩
  intro listing copy keeping copying listing_free copy_free
  let saved := after.set [listing] (Text.utf8 (Table.standard.disassemble code))
  have kept : after.write listing (Text.utf8 (Table.standard.disassemble code)) = .ok saved :=
    (Folder.write_plain_iff keeping).mpr ⟨listing_free, rfl⟩
  -- Files come and go, but no run makes a folder or takes one away.
  have still_free : after.holdsFolder [listing] = false := listing_free
  have copy_still_free : saved.holdsFolder [copy] = false := copy_free
  have again := Folder.assemble_listed keeping copying (listed.relisted still_free) copy_still_free
  exact ⟨saved, _, kept, again, Folder.written_set copy_still_free code⟩

/-- A listing may be replaced by its own code. -/
theorem listing_replaced_by_code :
    let folder : Folder := ⟨[(["a"], Text.utf8 "OpPop\nOpConstant 7"), (["b"], [255])], [["d"]]⟩
    Folder.Plain "a" ∧ folder.Lists "a" [2, 0, 0, 7] ∧ folder.holdsFolder ["a"] = false ∧
      (folder.run ["assemble", "b", "a"]).1.exitCode = 1 ∧
      (folder.run ["assemble", "b", "a"]).2 = folder ∧
      ∃ after, folder.run ["assemble", "a", "a"] = (.success "", after) ∧
        after.file? "a" = some [2, 0, 0, 7] ∧ after.file? "b" = some [255] := by
  intro folder
  have plain : Folder.Plain "a" := by decide
  have listed : folder.Lists "a" [2, 0, 0, 7] := ⟨"OpPop\nOpConstant 7", rfl, by decide⟩
  have free : folder.holdsFolder ["a"] = false := by decide
  obtain ⟨settled, _, assembles⟩ := commands_change_only_their_output folder
  have failed : (folder.run ["assemble", "b", "a"]).1.exitCode = 1 := by decide
  have kept := ((settled ["assemble", "b", "a"]).2.2 failed).2
  obtain ⟨after, done, written, _⟩ :=
    (assembles "a" "a" plain plain).2 [2, 0, 0, 7] listed free
  refine ⟨plain, listed, free, failed, kept, after, done, written.file, ?_⟩
  exact written.other_file (by decide)

end Opstream
