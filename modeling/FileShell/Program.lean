import FileShell.LogLevel
import FileShell.Options
import FileShell.Repl
import FileShell.Settings

/-!
# The program

`Program.run` takes what the program is started with to what it leaves behind: the text on the
screen, the exit code or the failure that ended it, and the file system.  The arguments are read
first, then the settings; after that a shell starts in its directory and interprets one line, or
runs with the terminal.

* `Program.run`: a start of the program from beginning to end.
* `Program.startDirectory`: where the shell starts.
-/

namespace FileShell

/-- What the program reads: a text to its end, or keys that somebody types at a terminal. -/
inductive Input where
  | text (t : Text)
  | keys (t : Text)
deriving DecidableEq, Repr

/-- What the program leaves behind. -/
structure Outcome where
  screen : Text
  ending : Except Failure Nat
  files : FileSystem

namespace Program

variable (console : Console)

/-- What is shown when the shell starts at a terminal. -/
def banner : Text := Text.joined "\n"
  ["╭───────────────── plutosh ──────────────────╮",
    "│ PlutoShell                                 │",
    "│ Type help for commands, exit to quit.      │",
    "│ Arrow keys for history, Tab for completion │",
    "╰────────────────────────────────────────────╯",
    ""]

/-- The exit code for a start that makes no sense. -/
def misuse : Nat := 2

/-- The settings of a run: what the command line says goes before the file and the environment. -/
def settingsFor (options : Options) (settings : Settings) : Settings :=
  { settings with
    historyEnabled := settings.historyEnabled && !options.noHistory
    logLevel := options.logLevel.getD settings.logLevel }

/-- The directory in which the shell starts. -/
def startDirectory (env : Environment) (options : Options) : Text :=
  match options.directory with
  | some d =>
    if d = [] then env.directory else Path.absolute env.directory (env.expandTilde d)
  | none => env.directory

/-- Interprets one line; the exit code tells whether it was carried out. -/
def runLine (line : Text) (shell : Shell) : Outcome :=
  match Repl.answer console line shell with
  | .ok (isOk, t) later => ⟨t, .ok (if isOk then 0 else 1), later.files⟩
  | .error e later => ⟨[], .error e, later.files⟩

/-- Runs a shell at a terminal where somebody types.  The prompts are not part of what is kept of the
screen. -/
def runTyped (env : Environment) (settings : Settings) (stamp keys : Text) (shell : Shell) :
    Outcome :=
  match Terminal.ofKeys env settings.historyEnabled stamp keys shell.files with
  | .error e files => ⟨[], .error e, files⟩
  | .ok terminal files =>
    match Prompt.unknownStyle? (Prompt.fragments settings shell.session.cwd) with
    | some color => ⟨banner, .error (.unknownColor color), files⟩
    | none =>
      let r := Repl.run console terminal { shell with files := files }
      ⟨banner ++ r.printed, r.ending.map fun _ => 0, r.shell.files⟩

/-- Runs a shell that reads a text. -/
def runText (t : Text) (shell : Shell) : Outcome :=
  let r := Repl.run console (Terminal.ofText t) shell
  ⟨r.screen, r.ending.map fun _ => 0, r.shell.files⟩

/-- Runs the program once its options, its settings and the home directory are known. -/
def runWith (env : Environment) (options : Options) (settings : Settings) (home stamp : Text)
    (input : Input) (files : FileSystem) : Outcome :=
  let directory := startDirectory env options
  if files.isDirectory directory then
    let shell : Shell := ⟨Session.start env.directory directory home, files⟩
    match options.line, input with
    | some (some line), _ => runLine console line shell
    | some none, _ => ⟨[], .error .noLineValue, files⟩
    | none, .keys keys => runTyped console env settings stamp keys shell
    | none, .text t => runText console t shell
  else
    match Display.ofMessage ("[red]Not a directory:[/red] " ++ directory) with
    | .ok t => ⟨t, .ok misuse, files⟩
    | .error e => ⟨[], .error e, files⟩

/-- The settings of a start and the home directory, if they can be had and the settings name no
layout for a level. -/
def prepare (env : Environment) (options : Options) (files : FileSystem) :
    Except Failure (Settings × Text) := do
  let settings := settingsFor options (← Settings.load env files none)
  let _ ← Logger.fresh.setUp settings.logLevel
  return (settings, (← env.home).toText)

/-- A start of the program at a console; `stamp` is the text of the time at which typed lines are
recorded. -/
def run (env : Environment) (arguments : List Text) (stamp : Text) (input : Input)
    (files : FileSystem) : Outcome :=
  match Options.read arguments with
  | .refused => ⟨[], .ok misuse, files⟩
  | .helpWanted => ⟨Options.helpText, .ok 0, files⟩
  | .accepted options =>
    match prepare env options files with
    | .error e => ⟨[], .error e, files⟩
    | .ok (settings, home) => runWith console env options settings home stamp input files

end Program

end FileShell
