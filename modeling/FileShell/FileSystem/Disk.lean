import FileShell.FileSystem.Walk
import FileShell.Path.Spelling

/-!
# Requests to the file system

A `Disk` action reads and changes a file system and ends with a value or a failure; in both cases
the changes made up to then stay.  Each request of this module looks its paths up with
`FileSystem.locate` and is either granted, as one change of one or two places, or turned down
without any change; only what does several things in a row can stop halfway.

* `makeDirectory`, `removeDirectory`, `unlink`, `rename`, `makeLink`: requests on entries; a link at
  the end of the path is not followed.
* `readFile`, `listDirectory`, `openForWriting`, `append`, `renewTime`, `setTime`: requests on what
  the path leads to.
* `makeDirectories`, `ensureDirectory`: several requests in a row.
* `removeTree`: a directory is emptied from within, and then removed under its path.
-/

namespace FileShell

/-- An action on a file system: what it changed before a failure stays changed. -/
abbrev Disk := EStateM Failure FileSystem

namespace Disk

/-- Ends with a fault about some paths. -/
def fail {α : Type} (f : Fault) (paths : List Text) : Disk α := throw (.fault f paths)

/-- The answer to a question about the file system. -/
def ask {α : Type} (question : FileSystem → α) : Disk α := return question (← get)

/-- The spot that a path leads to. -/
def locate (aim : Aim) (path : Text) : Disk Spot := do
  match (← get).locate aim path with
  | .ok spot => pure spot
  | .error e => throw e

/-- The spot that one of the paths of a request leads to; a fault is about all of them. -/
def locateAmong (paths : List Text) (path : Text) : Disk Spot := do
  match (← get).locate .entry path with
  | .ok spot => pure spot
  | .error (.fault f _) => fail f paths
  | .error e => throw e

/-- Makes an empty directory. -/
def makeDirectory (path : Text) : Disk Unit := do
  match ← locate .entry path with
  | .taken _ _ => fail .alreadyThere [path]
  | .vacant place _ => modify (·.create place (.directory []) Node.tidy_empty)

/-- Makes a link with a target. -/
def makeLink (target : Bytes) (path : Text) : Disk Unit := do
  let paths := [Text.decode target, path]
  match ← locateAmong paths path with
  | .taken _ _ => fail .alreadyThere paths
  | .vacant place slash =>
    if slash then fail .noEntry paths
    else modify (·.create place (.link target) (.link target))

/-- The target of a link. -/
def readLink (path : Text) : Disk Bytes := do
  match ← locate .entry path with
  | .taken _ (.link target) => pure target
  | .taken _ _ => fail .invalid [path]
  | .vacant _ _ => fail .noEntry [path]

/-- The entries of a directory, as they are enumerated. -/
def listDirectory (path : Text) : Disk Entries := do
  match ← locate .target path with
  | .taken place (.directory es) => return (← get).host.arranged place es
  | .taken _ _ => fail .notADirectory [path]
  | .vacant _ _ => fail .noEntry [path]

/-- The bytes of a file. -/
def readFile (path : Text) : Disk Bytes := do
  match ← locate .target path with
  | .taken _ (.file bytes) => pure bytes
  | .taken _ _ => fail .isADirectory [path]
  | .vacant _ _ => fail .noEntry [path]

/-- Makes sure that there is a file to write to, empties it if so told, and returns its place.  A
link that leads to a vacant spot lets the file be made there. -/
def openForWriting (path : Text) (emptied : Bool) : Disk Location := do
  match ← locate .creation path with
  | .taken place (.file _) =>
    if emptied then modify (·.write place [])
    pure place
  | .taken _ _ => fail .isADirectory [path]
  | .vacant place _ =>
    modify (·.create place (.file []) (.file []))
    pure place

/-- Puts bytes at the end of the file at a place. -/
def append (place : Location) (bytes : Bytes) : Disk Unit := do
  if bytes ≠ [] then
    match (← get).node? place with
    | some (.file old) => modify (·.write place (old ++ bytes))
    | _ => pure ()

/-- Renews the time of what a path leads to. -/
def renewTime (path : Text) : Disk Unit := do
  match ← locate .target path with
  | .taken place _ => modify (·.renew place)
  | .vacant _ _ => fail .noEntry [path]

/-- Sets the time of what a path leads to. -/
def setTime (path : Text) (seconds : Nat) : Disk Unit := do
  match ← locate .target path with
  | .taken place _ => modify (·.setTime place seconds)
  | .vacant _ _ => fail .noEntry [path]

/-- Removes a file or a link. -/
def unlink (path : Text) : Disk Unit := do
  match ← locate .entry path with
  | .taken _ (.directory _) => fail .isADirectory [path]
  | .taken place _ => modify (·.discard place)
  | .vacant _ _ => fail .noEntry [path]

/-- Removes an empty directory; the root cannot be removed. -/
def removeDirectory (path : Text) : Disk Unit := do
  match ← locate .entry path with
  | .taken [] _ => fail .busy [path]
  | .taken place (.directory es) =>
    if es = [] then modify (·.discard place) else fail .notEmpty [path]
  | .taken _ _ => fail .notADirectory [path]
  | .vacant _ _ => fail .noEntry [path]

/-- Takes what is at one path to another.  A file or link replaces a file or link there, a directory
replaces an empty directory, and nothing goes into itself or replaces a directory around it. -/
def rename (source target : Text) : Disk Unit := do
  let paths := [source, target]
  let a ← locateAmong paths source
  let b ← locateAmong paths target
  match a, b with
  | .taken [] _, _ => fail .busy paths
  | _, .taken [] _ => fail .busy paths
  | .vacant _ _, _ => fail .noEntry paths
  | .taken p t, .vacant q slash =>
    if slash = true ∧ t.isDirectory = false then fail .notADirectory paths
    else if p.isPrefixOf q then fail .invalid paths
    else modify (·.relocate p q)
  | .taken p t, .taken q u =>
    if p = q then pure ()
    else if p.isPrefixOf q then fail .invalid paths
    else if q.isPrefixOf p then fail .notEmpty paths
    else if t.isDirectory then
      if u.isDirectory = false then fail .notADirectory paths
      else if u.entries = [] then modify (·.relocate p q)
      else fail .notEmpty paths
    else if u.isDirectory then fail .isADirectory paths
    else modify (·.relocate p q)

/-! ## Several requests in a row -/

/-- Removes what is in a directory, in the order of the enumeration; a directory in it is emptied
first.  This goes by places: no path is looked up on the way, and only a tree that is too deep makes
it fail. -/
def emptyDirectory : (levels : Nat) → Location → Disk Unit
  | 0, _ => throw (.tooNested [])
  | levels + 1, place => do
    (← ask (·.enumerated place)).forM fun e => do
      if e.2.isDirectory then emptyDirectory levels (place ++ [e.1])
      modify (·.discard (place ++ [e.1]))

/-- Removes a directory and everything below it.  The directory itself is removed under its path,
which may lead nowhere by then. -/
def removeTree (path : Text) : Disk Unit := do
  match ← locate .entry path with
  | .taken place (.directory _) =>
    emptyDirectory ((← get).host.nesting .removal) place
    removeDirectory path
  | .taken _ _ => fail .notADirectory [path]
  | .vacant _ _ => fail .noEntry [path]

/-- Makes the directory with the given parts (the last part first) and the directories above it
that are not there.  A directory above that turns out to be an entry already is left to the request
for the directory below it to deal with. -/
def makeDirectoriesUp (anchor : Anchor) : List Text → Disk Unit
  | [] => makeDirectory (Spelling.toText ⟨anchor, []⟩)
  | part :: above => do
    if !(← ask (·.isPresent (Spelling.toText ⟨anchor, above.reverse⟩))) then
      tryCatch (makeDirectoriesUp anchor above) fun
        | .fault .alreadyThere _ => pure ()
        | e => throw e
    makeDirectory (Spelling.toText ⟨anchor, (part :: above).reverse⟩)

/-- Makes a directory and the missing directories above it. -/
def makeDirectories (path : Text) : Disk Unit :=
  let s := Spelling.ofText path
  makeDirectoriesUp s.anchor s.parts.reverse

/-- Does nothing about a fault when the path leads to a directory all the same. -/
def unlessDirectory (path : Text) (action : Disk Unit) : Disk Unit :=
  tryCatch action fun
    | .fault f paths => do
      if ← ask (·.isDirectory path) then pure () else fail f paths
    | e => throw e

/-- Makes sure that the directory with the given parts (the last part first) exists, if need be by
making it after the directories above it. -/
def ensureDirectoryUp (anchor : Anchor) : List Text → Disk Unit
  | [] => unlessDirectory (Spelling.toText ⟨anchor, []⟩) (makeDirectory (Spelling.toText ⟨anchor, []⟩))
  | part :: above => do
    let path := Spelling.toText ⟨anchor, (part :: above).reverse⟩
    tryCatch (makeDirectory path) fun
      | .fault .noEntry _ => do
        ensureDirectoryUp anchor above
        unlessDirectory path (makeDirectory path)
      | .fault f paths => do
        if ← ask (·.isDirectory path) then pure () else fail f paths
      | e => throw e

/-- Makes sure that a directory exists. -/
def ensureDirectory (path : Text) : Disk Unit :=
  let s := Spelling.ofText path
  ensureDirectoryUp s.anchor s.parts.reverse

end Disk

end FileShell
