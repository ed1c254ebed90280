import FileShell.Environment
import FileShell.FileSystem.Disk

/-!
# The history of typed lines

Lines that a user types are kept in a file, the last one at the end: an empty line, a line with the
time, and the typed line after a plus sign.  A line that is empty, or the same as the one before it,
is not kept.

* `History.entries`: the lines that the bytes of a history file hold.
* `History.record`: the history with one more line.
-/

namespace FileShell

/-- The history that a terminal keeps: its file, the line typed last, and the text that stands for
the time of new entries. -/
structure History where
  file : Text
  last : Option Text
  stamp : Text
deriving DecidableEq, Repr

namespace History

/-- The byte of a line feed. -/
def lineFeed : UInt8 := 10

/-- The lines of a file, each with the line feed that ends it. -/
def fullLines : List Bytes → List Text
  | [] => []
  | [rest] => if rest = [] then [] else [Text.display rest]
  | line :: more => (Text.display line ++ [.scalar '\n']) :: fullLines more

/-- An entry put together from its lines, without the line feed at its end. -/
def entryOf : Option Text → List Text
  | none => []
  | some lines => [lines.dropLast]

/-- The entries of some lines; `current` holds the lines of the entry at hand. -/
def entriesFrom : (current : Option Text) → List Text → List Text
  | current, [] => entryOf current
  | current, line :: rest =>
    match line with
    | .scalar '+' :: more => entriesFrom (some (current.getD [] ++ more)) rest
    | _ => entryOf current ++ entriesFrom none rest

/-- The entries of a history file, the oldest one first. -/
def entries (bytes : Bytes) : List Text := entriesFrom none (fullLines (cutAt lineFeed bytes))

/-- The text of an entry. -/
def written (stamp line : Text) : Text :=
  let marked (l : Text) : Text := .scalar '+' :: (l ++ [.scalar '\n'])
  "\n# " ++ stamp ++ "\n" ++ (Text.lines line).flatMap marked

/-- The history in a file, after the directory of the file has been made if need be. -/
def start (env : Environment) (stamp : Text) : Disk History := do
  match env.historyPath with
  | .error e => throw e
  | .ok file =>
    Disk.ensureDirectory (env.place file.parent)
    let place := env.place file
    let last := match (← get).found? .target place with
      | some (_, .file bytes) => (entries bytes).getLast?
      | _ => none
    return ⟨place, last, stamp⟩

/-- The history with a line that was typed. -/
def record (h : History) (line : Text) : Disk History := do
  if line = [] ∨ h.last = some line then return h
  else
    let place ← Disk.openForWriting h.file false
    match (written h.stamp line).encode with
    | .ok bytes => Disk.append place bytes
    | .error e => throw (.unencodable e)
    return { h with last := some line }

end History

end FileShell
