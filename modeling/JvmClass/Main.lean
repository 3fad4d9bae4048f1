/-
  JvmClass.Main — the program: it reads the file and prints the report.
-/

import JvmClass.CommandLine

namespace JvmClass.CommandLine

def readBytes (path : String) : IO (Except FileFault (List UInt8)) := do
  try return .ok (← IO.FS.readBinFile path).toList
  catch
    | .permissionDenied .. => return .error .denied
    | .inappropriateType .. => return .error .isDirectory
    | _ => return .error .missing

end JvmClass.CommandLine

open JvmClass.CommandLine in
def main (arguments : List String) : IO UInt32 := do
  match Request.ofArguments? arguments with
  | none =>
    IO.eprint usage
    return 2
  | some request =>
    let report := request.report (← readBytes request.path)
    IO.print report.stdout
    IO.eprint report.stderr
    return report.exit.toUInt32
