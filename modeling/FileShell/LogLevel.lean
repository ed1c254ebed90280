import FileShell.Failure
import FileShell.Text.Case

/-!
# Log levels

A logger lets messages of at least its level pass.  Levels are set by name, without regard to case;
a name that is not known means `LogLevel.warning`.  Two names belong to something else, and setting
them as a level fails.

* `Logger.setUp`: the logger as the program uses it, with one handler and nothing passed on.
-/

namespace FileShell

namespace LogLevel

/-- The level of warnings, which stands in for unknown ones. -/
def warning : Nat := 30

/-- The names of the levels. -/
def names : List (Text × Nat) :=
  [("CRITICAL", 50), ("FATAL", 50), ("ERROR", 40), ("WARNING", warning), ("WARN", warning),
    ("INFO", 20), ("DEBUG", 10), ("NOTSET", 0)]

/-- The layout of messages. -/
def layout : Text := "%(levelname)s:%(name)s:%(message)s"

/-- The table of the ways to write layouts, as it is shown. -/
def layoutStyles : Text :=
  "\x7b'%': (<class 'logging.PercentStyle'>, '%(levelname)s:%(name)s:%(message)s'), " ++
    "'\x7b': (<class 'logging.StrFormatStyle'>, '\x7blevelname\x7d:\x7bname\x7d:\x7bmessage\x7d'), " ++
    "'$': (<class 'logging.StringTemplateStyle'>, " ++
    "'$\x7blevelname\x7d:$\x7bname\x7d:$\x7bmessage\x7d')\x7d"

/-- The names that stand for something else than a level, with what they stand for. -/
def otherNames : List (Text × WrongLevel) :=
  [("BASIC_FORMAT", .name layout), ("_STYLES", .value layoutStyles)]

/-- The level with a name. -/
def ofName (name : Text) : Except Failure Nat :=
  match otherNames.lookup name.upper with
  | some wrong => .error (.unknownLevel wrong)
  | none => .ok ((names.lookup name.upper).getD warning)

end LogLevel

/-- A logger: its level, how many handlers write its messages, and whether messages are passed on to
the loggers above it. -/
structure Logger where
  level : Nat
  handlers : Nat
  passesOn : Bool
deriving DecidableEq, Repr

namespace Logger

/-- A logger nobody has touched. -/
def fresh : Logger := ⟨0, 0, true⟩

/-- The logger with a level set by name, and with the handler of the program if it had none. -/
def setUp (logger : Logger) (name : Text) : Except Failure Logger := do
  let level ← LogLevel.ofName name
  return if logger.handlers = 0 then ⟨level, 1, false⟩ else { logger with level := level }

end Logger

end FileShell
