import FileShell.Text.Case
import FileShell.Text.Digit

/-!
# Options of the command line

The arguments of the program are read in two passes.  The first one tells for each argument, by its
text alone, whether it is a switch or a plain argument; the second one gives the switches their
values and carries them out from left to right.  The name of a long switch may be cut short as long
as only one switch is meant; a value stands in the next argument, after an equals sign, or, for a
switch of one letter, directly behind it.

* `Options.read`: the options that arguments give, or the request for help, or a refusal.
-/

namespace FileShell

/-- What a switch is about. -/
inductive Switch where
  | help
  | line
  | directory
  | noHistory
  | logLevel
deriving DecidableEq, Repr

namespace Switch

/-- Does the switch take a value? -/
def takesValue : Switch → Bool
  | help => false
  | line => true
  | directory => true
  | noHistory => false
  | logLevel => true

/-- The names of the switches. -/
def names : List (Text × Switch) :=
  [("-h", help), ("--help", help), ("-c", line), ("--cwd", directory), ("--no-history", noHistory),
    ("--log-level", logLevel)]

/-- The switch with a name. -/
def named? (name : Text) : Option Switch := names.lookup name

/-- The switch with a name of one letter. -/
def lettered? (letter : Symbol) : Option Switch := named? [.scalar '-', letter]

/-- The switches with a name that starts with a text. -/
def startingWith (start : Text) : List Switch :=
  (names.filter fun n => start.isPrefixOf n.1).map Prod.snd

end Switch

/-- What is written in the same argument behind the name of a switch. -/
inductive Attachment where
  | nothing
  | equals (value : Text)
  | glued (rest : Text)
deriving DecidableEq, Repr

/-- What an argument is by its text alone. -/
inductive Argument where
  | plain (value : Text)
  | divider
  | switch (s : Switch) (attached : Attachment)
  | unknown
deriving DecidableEq, Repr

namespace Argument

/-- Does the text look like a negative number: a hyphen, digits, and perhaps a point with digits
behind it?  A line feed at the end does not matter. -/
def isNegativeNumber (t : Text) : Bool :=
  match t with
  | .scalar '-' :: rest =>
    let body := if rest.getLast? = some (.scalar '\n') then rest.dropLast else rest
    let behind := body.dropWhile Symbol.isDigit
    match behind with
    | [] => !body.isEmpty
    | .scalar '.' :: digits => !digits.isEmpty && digits.all Symbol.isDigit
    | _ => false
  | _ => false

/-- The part of a text before the first equals sign, and what stands behind it if there is one. -/
def splitAtEquals (t : Text) : Text × Attachment :=
  let name := t.takeWhile (· ≠ .scalar '=')
  match t.drop name.length with
  | _ :: value => (name, .equals value)
  | [] => (name, .nothing)

/-- The switches that an argument with a hyphen may mean. -/
def candidates (t : Text) : List (Switch × Attachment) :=
  match t with
  | .scalar '-' :: .scalar '-' :: _ =>
    let (name, attached) := splitAtEquals t
    (Switch.startingWith name).map fun s => (s, attached)
  | _ :: letter :: rest => ((Switch.lettered? letter).map fun s => (s, .glued rest)).toList
  | _ => []

/-- What a text with a hyphen in front is, if it is not the name of a switch in full; nothing is
answered when it may mean several switches. -/
def ofHyphened? (t : Text) : Option Argument :=
  match candidates t with
  | [(s, attached)] => some (.switch s attached)
  | _ :: _ :: _ => none
  | [] => some (if isNegativeNumber t || t.contains (.scalar ' ') then .plain t else .unknown)

/-- What a text is that stands before any divider; nothing is answered when it may mean several
switches. -/
def ofText? (t : Text) : Option Argument :=
  if t.head? ≠ some (.scalar '-') then some (.plain t)
  else match Switch.named? t with
    | some s => some (.switch s .nothing)
    | none =>
      if t.length = 1 then some (.plain t)
      else
        let (name, attached) := splitAtEquals t
        match Switch.named? name, attached with
        | some s, .equals value =>
          some (.switch s (if name.length = 2 then .glued value else .equals value))
        | _, _ => ofHyphened? t

end Argument

/-- What a switch with its attachment asks for: some switches with their values, and perhaps one
more that still wants its value. -/
structure Packed where
  settled : List (Switch × Text)
  waiting : Option Switch
deriving DecidableEq, Repr

namespace Packed

/-- What is written behind a letter of a cluster of switches. -/
def attachmentOf : Text → Attachment
  | [] => .nothing
  | rest => .glued rest

/-- The switches that are packed in one argument: letters behind a switch without a value are
switches in turn. -/
def ofSwitch? (s : Switch) : (letters : Nat) → Attachment → Option Packed
  | _, .nothing => some (if s.takesValue then ⟨[], some s⟩ else ⟨[(s, [])], none⟩)
  | _, .equals value => if s.takesValue then some ⟨[(s, value)], none⟩ else none
  | letters, .glued rest =>
    if s.takesValue then some ⟨[(s, rest)], none⟩
    else match letters, rest with
      | letters + 1, letter :: more =>
        match Switch.lettered? letter with
        | some next =>
          (ofSwitch? next letters (attachmentOf more)).map fun p =>
            { p with settled := (s, []) :: p.settled }
        | none => none
      | _, _ => none

/-- How many letters an attachment may hold. -/
def lettersOf : Attachment → Nat
  | .glued rest => rest.length
  | _ => 0

end Packed

/-- What the user asked for on the command line.  A line that is asked for may itself be missing. -/
structure Options where
  line : Option (Option Text)
  directory : Option Text
  noHistory : Bool
  logLevel : Option Text
deriving DecidableEq, Repr

namespace Options

/-- Nothing is asked for. -/
def none : Options := ⟨.none, .none, false, .none⟩

/-- The log levels that may be asked for. -/
def logLevels : List Text := ["DEBUG", "INFO", "WARNING", "ERROR"]

/-- What comes of reading the arguments. -/
inductive Reading where
  | accepted (options : Options)
  | helpWanted
  | refused
deriving DecidableEq, Repr

/-- The value that is written as a text; a bare double hyphen stands for none. -/
def valueOf? (t : Text) : Option Text :=
  if t = [.scalar '-', .scalar '-'] then .none else some t

/-- Carries out switches from left to right. -/
def carryOut (options : Options) : List (Switch × Text) → Reading
  | [] => .accepted options
  | (.help, _) :: _ => .helpWanted
  | (.line, t) :: rest => carryOut { options with line := some (valueOf? t) } rest
  | (.directory, t) :: rest => carryOut { options with directory := valueOf? t } rest
  | (.noHistory, _) :: rest => carryOut { options with noHistory := true } rest
  | (.logLevel, t) :: rest =>
    let level := (valueOf? t).map Text.upper
    if level.all logLevels.contains then carryOut { options with logLevel := level } rest
    else .refused

/-- What the arguments are: behind a divider all are plain.  Nothing is answered when one of them
may mean several switches. -/
def sort? : List Text → Option (List Argument)
  | [] => some []
  | t :: rest =>
    if t = [.scalar '-', .scalar '-'] then some (.divider :: rest.map .plain)
    else
      match Argument.ofText? t, sort? rest with
      | some a, some more => some (a :: more)
      | _, _ => .none

/-- Gives switches their values and carries them out; `leftOver` tells whether an argument has been
passed over that belongs to no switch. -/
def readSorted : (leftOver : Bool) → Options → List Argument → Reading
  | leftOver, options, [] => if leftOver then .refused else .accepted options
  | leftOver, options, .switch s attached :: rest =>
    match Packed.ofSwitch? s (Packed.lettersOf attached) attached with
    | .none => .refused
    | some ⟨settled, .none⟩ =>
      match carryOut options settled with
      | .accepted chosen => readSorted leftOver chosen rest
      | other => other
    | some ⟨settled, some waiting⟩ =>
      match rest with
      | .plain value :: more =>
        match carryOut options (settled ++ [(waiting, value)]) with
        | .accepted chosen => readSorted leftOver chosen more
        | other => other
      | _ => .refused
  | _, options, _ :: rest => readSorted true options rest

/-- Reads the arguments of the program. -/
def read (arguments : List Text) : Reading :=
  match sort? arguments with
  | some sorted => readSorted false none sorted
  | .none => .refused

/-- The text that explains the options. -/
def helpText : Text := Text.joined "\n"
  ["usage: plutosh [-h] [-c LINE] [--cwd CWD] [--no-history]",
    "               [--log-level \x7bDEBUG,INFO,WARNING,ERROR\x7d]",
    "",
    "PlutoShell: a small shell for cd, ls, mkdir, touch, rm, rmdir, mv and cat",
    "",
    "options:",
    "  -h, --help            show this help message and exit",
    "  -c LINE               Interpret LINE and exit",
    "  --cwd CWD             Starting directory (default: current directory)",
    "  --no-history          Do not persist command history",
    "  --log-level \x7bDEBUG,INFO,WARNING,ERROR\x7d",
    "                        Log level for diagnostics on stderr",
    ""]

end Options

end FileShell
