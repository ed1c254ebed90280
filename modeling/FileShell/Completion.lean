import FileShell.Environment
import FileShell.FileSystem.Disk
import FileShell.Text.Blank
import FileShell.Session
import FileShell.Verb

/-!
# Completing words

While a line is typed its last word can be completed: the first word of a line to a verb, any other
word to the path of an entry.  A completion is the text to put in and where, counted from the
cursor, with the text that is offered to the user.

* `Completion.ofVerbs`, `Completion.ofPath`: the completions of a first word and of other words.
* `Completion.ofLine`: the completions of a line at its end.
-/

namespace FileShell

/-- Does a text come before another one, or is it the same, by code points? -/
def Text.precedes : Text → Text → Bool
  | [], _ => true
  | _ :: _, [] => false
  | a :: as, b :: bs => a.codePoint < b.codePoint || (a = b && precedes as bs)

/-- Texts in the order of their code points. -/
def Text.sorted (ts : List Text) : List Text := ts.mergeSort Text.precedes

/-- A text that can be put in at some distance from the cursor, and how it is offered. -/
structure Completion where
  inserted : Text
  start : Int
  offered : Text
deriving DecidableEq, Repr

namespace Completion

/-- The word that ends at the end of a line; empty if the line ends in a blank. -/
def lastWord (line : Text) : Text := (line.reverse.takeWhile fun s => !s.isBlank).reverse

/-- The completions of a first word: the verbs that start with it, letter case apart. -/
def ofVerbs (verbs : List Text) (word : Text) : List Completion :=
  ((Text.sorted verbs).filter fun v => word.lower.isPrefixOf v).map fun v => ⟨v, -word.length, v⟩

/-- The directory in which the entries that complete a path are looked for. -/
def directoryOf (cwd path : Text) : Text :=
  if Path.directory path = [] then cwd else Path.directory (Path.join cwd path)

/-- The names in the directory at a path; none if it is no directory. -/
def namesAt (files : FileSystem) (directory : Text) : List Text :=
  match files.found? .target directory with
  | some (_, node) => node.entries.map fun e => Text.decode e.1.bytes
  | none => []

/-- How a name in a directory is offered: a slash marks a directory. -/
def offer (files : FileSystem) (directory name : Text) : Text :=
  if files.isDirectory (Path.join directory name) then name ++ [.scalar '/'] else name

/-- The completions of a word that is a path, with a tilde expanded. -/
def ofPath (files : FileSystem) (cwd path : Text) : List Completion :=
  let directory := directoryOf cwd path
  let start := Path.base path
  ((Text.sorted (namesAt files directory)).filter (start.isPrefixOf ·)).map fun name =>
    ⟨name.drop start.length, 0, offer files directory name⟩

/-- Is the last word of a line its first one? -/
def isFirstWord (line : Text) : Bool :=
  line.trim = [] || line.trimStart = lastWord line

/-- The completions of a line at its end. -/
def ofLine (env : Environment) (verbs : List Text) (shell : Shell) (line : Text) :
    List Completion :=
  if isFirstWord line then ofVerbs verbs (lastWord line)
  else ofPath shell.files shell.session.cwd (env.expandTilde (lastWord line))

end Completion

end FileShell
