import ScopedLisp.CommandLine.Report

set_option autoImplicit false

namespace ScopedLisp

def fileFault : IO.Error → FileFault
  | .noFileOrDirectory _ _ _ => .missing
  | .inappropriateType _ code _ => if code = 21 then .directory else .notDirectory
  | .permissionDenied _ _ _ => .other "Permission denied"
  | .invalidArgument _ code details => if code = 36 then .nameTooLong else .other details
  | e => .other e.toString

def readFile (path : String) : IO (Except FileFault (List UInt8)) := do
  try
    return .ok (← IO.FS.readBinFile path).toList
  catch e =>
    return .error (fileFault e)

end ScopedLisp

open ScopedLisp

def main (arguments : List String) : IO UInt32 := do
  let level ← IO.getEnv Settings.levelVariable
  let limit ← IO.getEnv Settings.limitVariable
  let environment (name : String) : Option String :=
    if name = Settings.levelVariable then level
    else if name = Settings.limitVariable then limit
    else none
  let contents ←
    match CommandLine.request arguments with
    | .run file _ => readFile (Path.normalize file)
    | _ => pure (.error .missing)
  match CommandLine.run .usual environment (fun _ => contents) arguments with
  | .ok report =>
    IO.print report.output
    IO.eprint report.errors
    return report.code.toUInt32
  | .error crash =>
    IO.eprintln crash.text
    return 1
