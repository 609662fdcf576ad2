import ScopedLisp.Text.Characters
import ScopedLisp.Text.Quoted

set_option autoImplicit false

namespace ScopedLisp.CommandLine

inductive Switch where
  | help
  | verbose
  deriving DecidableEq, Repr

namespace Switch

def all : List Switch := [help, verbose]

def short : Switch → Char
  | help => 'h'
  | verbose => 'v'

def long : Switch → String
  | help => "--help"
  | verbose => "--verbose"

def title (s : Switch) : String :=
  "-" ++ s.short.toString ++ "/" ++ s.long

def ofShort? (c : Char) : Option Switch :=
  all.find? fun s => s.short = c

end Switch

inductive Refusal where
  | ambiguous (argument : String) (candidates : List Switch)
  | valueIgnored (s : Switch) (value : String)
  | fileMissing
  | unrecognized (arguments : List String)
  deriving DecidableEq, Repr

def Refusal.message : Refusal → String
  | ambiguous argument candidates =>
    "ambiguous option: " ++ argument ++ " could match " ++
      ", ".intercalate (candidates.map Switch.long)
  | valueIgnored s value =>
    "argument " ++ s.title ++ ": ignored explicit argument " ++ Text.quoted value
  | fileMissing => "the following arguments are required: file"
  | unrecognized arguments => "unrecognized arguments: " ++ " ".intercalate arguments

/-- What an argument is on its own. A switch may come with a value, which none of them wants. -/
inductive Meaning where
  | plain
  | unknown
  | long (s : Switch) (value : Option String)
  | short (s : Switch) (value : Option String)
  deriving DecidableEq, Repr

/-- A minus sign and digits, perhaps with a point before the last of them. A line feed at the end
does not matter. -/
def looksNegative (argument : List Char) : Bool :=
  let digits (text : List Char) : Bool := (Text.digits? text).isSome
  let number (text : List Char) : Bool :=
    digits text ||
      let whole := text.takeWhile (· ≠ '.')
      (whole.isEmpty || digits whole) && digits ((text.dropWhile (· ≠ '.')).drop 1)
  match argument with
  | '-' :: text => number text || (text.getLast? = some '\n' && number text.dropLast)
  | _ => false

/-- The part of an argument before the first equals sign, and the part after it. -/
def splitValue (argument : List Char) : List Char × Option String :=
  match argument.dropWhile (· ≠ '=') with
  | [] => (argument, none)
  | _ :: value => (argument.takeWhile (· ≠ '='), some (String.ofList value))

/-- An argument that begins with a dash and is no switch. -/
def otherwise (argument : List Char) : Meaning :=
  if looksNegative argument || argument.contains ' ' then .plain else .unknown

def meaning (argument : String) : Except Refusal Meaning :=
  match argument.toList with
  | '-' :: '-' :: rest =>
    let (name, value) := splitValue ('-' :: '-' :: rest)
    match Switch.all.filter fun s => name.isPrefixOf s.long.toList with
    | [] => .ok (otherwise argument.toList)
    | [s] => .ok (.long s value)
    | candidates => .error (.ambiguous argument candidates)
  | '-' :: c :: rest =>
    match Switch.ofShort? c, rest with
    | none, _ => .ok (otherwise argument.toList)
    | some s, [] => .ok (.short s none)
    | some s, '=' :: value => .ok (.short s (some (String.ofList value)))
    | some s, value => .ok (.short s (some (String.ofList value)))
  | _ => .ok .plain

/-- The switches that are joined behind a single dash. -/
def joined (s : Switch) : List Char → Except Refusal (List Switch)
  | [] => .ok [s]
  | c :: rest =>
    match Switch.ofShort? c with
    | some next => (joined next rest).map (s :: ·)
    | none => .error (.valueIgnored s (String.ofList (c :: rest)))

def Meaning.switches : Meaning → Except Refusal (List Switch)
  | plain => .ok []
  | unknown => .ok []
  | long s none => .ok [s]
  | long s (some value) => .error (.valueIgnored s value)
  | short s none => .ok [s]
  | short s (some value) =>
    if value.isEmpty then .error (.valueIgnored s value) else joined s value.toList

inductive Request where
  | help
  | refuse (refusal : Refusal)
  | run (file : String) (verbose : Bool)
  deriving DecidableEq, Repr

structure Progress where
  file : Option String
  /-- Whether the last argument was taken as the file. -/
  atFile : Bool
  verbose : Bool
  extras : List String

namespace Progress

def takePlain (p : Progress) (argument : String) : Progress :=
  match p.file with
  | none => { p with file := some argument, atFile := true }
  | some _ => { p with extras := p.extras ++ [argument], atFile := false }

def leaveOver (p : Progress) (arguments : List String) : Progress :=
  { p with extras := p.extras ++ arguments, atFile := false }

def take (p : Progress) (argument : String) (m : Meaning) : Except Request Progress :=
  match m with
  | .plain => .ok (p.takePlain argument)
  | .unknown => .ok (p.leaveOver [argument])
  | _ =>
    match m.switches with
    | .error refusal => .error (.refuse refusal)
    | .ok switches =>
      if switches.contains .help then .error .help
      else .ok { p with verbose := true, atFile := false }

/-- Takes a double dash and the plain arguments after it. The dash itself is left over, unless the
file stands right beside it. -/
def takeRest (p : Progress) (arguments : List String) : Progress :=
  match p.file, arguments with
  | none, file :: more => { p with file := some file, extras := p.extras ++ more }
  | none, [] => p.leaveOver ["--"]
  | some _, _ => p.leaveOver (if p.atFile then arguments else "--" :: arguments)

def finish (p : Progress) : Request :=
  match p.file, p.extras with
  | none, _ => .refuse .fileMissing
  | some file, [] => .run file p.verbose
  | some _, extras => .refuse (.unrecognized extras)

end Progress

/-- The meanings of all arguments before a double dash. -/
def meanings : List String → Except Refusal (List (String × Meaning))
  | [] => .ok []
  | argument :: rest =>
    match meaning argument with
    | .error refusal => .error refusal
    | .ok m => (meanings rest).map ((argument, m) :: ·)

def takeAll (p : Progress) : List (String × Meaning) → Except Request Progress
  | [] => .ok p
  | (argument, m) :: rest =>
    match p.take argument m with
    | .error request => .error request
    | .ok p => takeAll p rest

def request (arguments : List String) : Request :=
  match meanings (arguments.takeWhile (· ≠ "--")) with
  | .error refusal => .refuse refusal
  | .ok understood =>
    match takeAll ⟨none, false, false, []⟩ understood with
    | .error asked => asked
    | .ok p =>
      match arguments.dropWhile (· ≠ "--") with
      | [] => p.finish
      | _ :: rest => (p.takeRest rest).finish

end ScopedLisp.CommandLine
