import Opstream.Files
import Opstream.Listing
import Opstream.Table.Standard

/-!
The two commands. Everything that can fail does so before a file is written, and a failed
command prints nothing but the reason.
-/

namespace Opstream

inductive Command where
  | assemble (input output : String)
  | disassemble (ruled : Bool) (input : String)
  deriving DecidableEq, Repr

def Command.ofArgs? : List String → Option Command
  | ["assemble", input, output] => some (.assemble input output)
  | ["disassemble", "--table", input] => some (.disassemble true input)
  | ["disassemble", input] => some (.disassemble false input)
  | _ => none

inductive Failure where
  | usage
  | unreadableListing (path : String) (error : FileError)
  | notUnicode (path : String)
  | unassembled (path : String) (error : ListingError)
  | unwritable (path : String) (error : FileError)
  | unreadableCode (path : String) (error : FileError)
  deriving DecidableEq, Repr

namespace Failure

def usageText : String :=
  "usage:\n" ++
  "  stackcode assemble <input.asm> <output.bin>\n" ++
  "  stackcode disassemble [--table] <input.bin>"

/-- What was tried, then its causes from the outermost in. An encoding error is a cause that
its listing error has already told. -/
def chain : Failure → List String
  | .usage => [usageText]
  | .unreadableListing path error => [s!"cannot read assembly from {path}", error.message]
  | .notUnicode path =>
      [s!"cannot read assembly from {path}", "stream did not contain valid UTF-8"]
  | .unassembled path error =>
      [s!"cannot assemble {path}", error.message] ++
        match error.cause with
        | .encoding cause => [cause.message]
        | _ => []
  | .unwritable path error => [s!"cannot write bytecode to {path}", error.message]
  | .unreadableCode path error => [s!"cannot read bytecode from {path}", error.message]

def message (failure : Failure) : String := ": ".intercalate failure.chain

end Failure

structure Report where
  exitCode : UInt32
  output : String
  complaint : String
  deriving DecidableEq, Repr

namespace Report

def success (output : String) : Report := ⟨0, output, ""⟩

def failure (failure : Failure) : Report := ⟨1, "", failure.message ++ "\n"⟩

end Report

namespace Command

def listing? (path : String) (bytes : List UInt8) : Except Failure String :=
  match String.fromUTF8? bytes.toByteArray with
  | some text => .ok text
  | none => .error (.notUnicode path)

def compile (path : String) (bytes : List UInt8) : Except Failure (List UInt8) := do
  let text ← listing? path bytes
  (Table.standard.assemble text).mapError (.unassembled path)

def view (ruled : Bool) (code : List UInt8) : String :=
  if ruled then (Table.standard.ruledView code).render else Table.standard.disassemble code

def run {m : Type → Type} [Monad m] [Files m] : Command → m Report
  | .assemble input output => do
      match ← Files.readFile input with
      | .error error => return .failure (.unreadableListing input error)
      | .ok bytes =>
          match compile input bytes with
          | .error failure => return .failure failure
          | .ok code =>
              match ← Files.writeFile output code with
              | .error error => return .failure (.unwritable output error)
              | .ok () => return .success ""
  | .disassemble ruled input => do
      match ← Files.readFile input with
      | .error error => return .failure (.unreadableCode input error)
      | .ok code => return .success (view ruled code)

end Command

def runArgs {m : Type → Type} [Monad m] [Files m] (args : List String) : m Report :=
  match Command.ofArgs? args with
  | some command => command.run
  | none => return .failure .usage

end Opstream
