import ScopedLisp.CommandLine.Arguments
import ScopedLisp.Session
import ScopedLisp.Settings

set_option autoImplicit false

namespace ScopedLisp.CommandLine

structure Report where
  code : Nat
  output : String
  errors : String
  deriving DecidableEq, Repr

def usage : String :=
  "usage: eta [-h] [-v] file\n"

def helpText : String :=
  usage ++
    "\nRun an Eta program\n" ++
    "\npositional arguments:\n" ++
    "  file           Eta source file to run\n" ++
    "\noptions:\n" ++
    "  -h, --help     show this help message and exit\n" ++
    "  -v, --verbose  log evaluation at debug level\n"

def lines (texts : List String) : String :=
  String.join (texts.map (· ++ "\n"))

/-- The values of the variables around a run, by their names. -/
abbrev Variables := String → Option String

def session (host : Host) (environment : Variables) : Except LimitFault Session :=
  (Session.seeded host).raiseLimit
    ((Settings.limit (environment Settings.limitVariable)).map Int.ofNat)

def showsLog (environment : Variables) (verbose : Bool) : Bool :=
  verbose || Settings.level (environment Settings.levelVariable) ≤ Settings.debugLevel

/-- What ends a run without a report. -/
inductive Crash where
  | limit (fault : LimitFault)
  | failure (failure : Failure)

def Crash.text : Crash → String
  | limit fault =>
    "a limit may be " ++ toString Session.highestLimit ++ ", not " ++ toString fault.limit
  | failure (.numeralTooLong digits) =>
    "a whole numeral may have " ++ toString WholeNumeral.digitLimit ++ " digits, not " ++
      toString digits
  | failure (.unavailable fault) => fault.text
  | failure .tooDeep => "a value that is nested too deep to be shown"
  | failure _ => "a value that no program text gives rise to"

/-- What is said about a file that gave no value, and what is added to the journal for it. A numeral
that is too long, a path that cannot be asked for and a misuse are not reported: they end the
run. -/
def complaint (file : String) (limit : Nat) : Failure → Except Crash (String × List Event)
  | .error e => .ok (e.text, [])
  | .tooDeep => .ok ("maximum recursion depth exceeded", [.limitExceeded limit])
  | .undecodable fault =>
    .ok ("cannot read " ++ file ++ ": not valid UTF-8 (" ++ fault.reason.text ++ ")", [])
  | .unavailable .zeroInPath => .error (.failure (.unavailable .zeroInPath))
  | .unavailable fault => .ok ("cannot read " ++ file ++ ": " ++ fault.text, [])
  | .numeralTooLong digits => .error (.failure (.numeralTooLong digits))
  | .misuse m => .error (.failure (.misuse m))

/-- What is shown of a value. A text that goes too deep is not reported. -/
def shown (s : Session) : Value → Except Crash String
  | .void _ => .ok ""
  | v =>
    if v.textLevels s.host.text ≤ s.textLevels then .ok (v.text ++ "\n")
    else .error (.failure .tooDeep)

def runFile (start : Session) (showsLog : Bool) (file : String)
    (contents : Except FileFault (List UInt8)) : Except Crash Report :=
  let (result, after) := start.evalFile file contents
  let log (events : List Event) : String :=
    if showsLog then lines (after.log ++ events.map Event.line) else ""
  match result with
  | .ok v => (shown after v).map fun output => ⟨0, output, log []⟩
  | .error failure =>
    (complaint file after.limit failure).map fun (said, events) =>
      ⟨1, "", log events ++ "error: " ++ said ++ "\n"⟩

/-- Runs a command line, where `read` gives the contents of files. -/
def run (host : Host) (environment : Variables) (read : String → Except FileFault (List UInt8))
    (arguments : List String) : Except Crash Report :=
  match request arguments with
  | .help => .ok ⟨0, helpText, ""⟩
  | .refuse refusal => .ok ⟨2, "", usage ++ "eta: error: " ++ refusal.message ++ "\n"⟩
  | .run file verbose =>
    match session host environment with
    | .error fault => .error (.limit fault)
    | .ok start => runFile start (showsLog environment verbose) file (read file)

end ScopedLisp.CommandLine
