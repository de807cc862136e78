import Opstream.CommandLine

/-!
The program: its commands on the files of the system.
-/

namespace Opstream

def FileError.ofSystem : IO.Error → FileError
  | .alreadyExists _ number description
  | .otherError number description
  | .resourceBusy number description
  | .resourceVanished number description
  | .unsupportedOperation number description
  | .hardwareFault number description
  | .unsatisfiedConstraints number description
  | .illegalOperation number description
  | .protocolError number description
  | .timeExpired number description
  | .interrupted _ number description
  | .noFileOrDirectory _ number description
  | .invalidArgument _ number description
  | .permissionDenied _ number description
  | .resourceExhausted _ number description
  | .inappropriateType _ number description
  | .noSuchThing _ number description => ⟨description, number.toNat⟩
  | .unexpectedEof => ⟨"unexpected end of file", 0⟩
  | .userError description => ⟨description, 0⟩

instance : Files IO where
  readFile path := do
    try
      let handle ← IO.FS.Handle.mk path .read
      return .ok (← handle.readBinToEnd).data.toList
    catch error => return .error (.ofSystem error)
  writeFile path bytes := do
    try
      IO.FS.writeBinFile path bytes.toByteArray
      return .ok ()
    catch error => return .error (.ofSystem error)

end Opstream

def main (args : List String) : IO UInt32 := do
  let report ← Opstream.runArgs args
  IO.print report.output
  IO.eprint report.complaint
  return report.exitCode
