import FileShell.FileSystem.Disk

/-!
# Moving files and directories

`Disk.move` takes what is at one path to another.  Into an existing directory it goes under its own
name.  It is renamed if the file system allows that; if not, a link is made anew, a directory is
copied with everything below it and then removed, and so is a file.  Whether a directory would go
into itself is judged by the texts of the two paths.

* `Disk.copyTree`: copies what the source holds when its turn comes, and goes on after a part that
  could not be copied; in the end the parts that failed are reported together.
-/

namespace FileShell

namespace Disk

/-- Gives the second place the time of the first. -/
def copyTime (source target : Location) : Disk Unit :=
  modify fun fs => match fs.time? source with
    | some seconds => fs.setTime target seconds
    | none => fs.renew target

/-- Gives what the second path leads to the time of what the first leads to. -/
def copyTimeOf (source target : Text) : Disk Unit := do
  match ← locate .target source, ← locate .target target with
  | .taken p _, .taken q _ => copyTime p q
  | .taken _ _, .vacant _ _ => fail .noEntry [target]
  | .vacant _ _, _ => fail .noEntry [source]

/-- Copies the bytes and the time of a file; into a directory the file goes under its own name. -/
def copyFile (source target : Text) : Disk Unit := do
  let target := if ← ask (·.isDirectory target) then Path.join target (Path.base source) else target
  let bytes ← readFile source
  let place ← openForWriting target true
  append place bytes
  copyTimeOf source target

/-- Runs an action and tells what of it could not be copied; other failures stay failures. -/
def collect (source target : Text) (action : Disk Unit) : Disk (List Uncopied) :=
  tryCatch (do action; pure []) fun
    | .move (.incomplete parts) => pure parts
    | .fault f paths => pure [⟨source, target, f.report paths⟩]
    | e => throw e

/-- Copies a directory with everything below it, down to a greatest depth, to a path where nothing
is yet. -/
def copyTree : (depth : Nat) → (source target : Text) → Disk Unit
  | 0, _, _ => throw (.tooNested [])
  | depth + 1, source, target => do
    let es ← listDirectory source
    makeDirectories target
    let copyEntry := fun (e : Name × Node) => do
      let original := Path.join source e.1.toText
      let copy := Path.join target e.1.toText
      collect original copy <| match e.2 with
        | .link _ => do makeLink (← readLink original) copy
        | .directory _ => copyTree depth original copy
        | .file _ => copyFile original copy
    let failed ← es.mapM copyEntry
    let last ← collect source target (copyTimeOf source target)
    let parts := failed.flatten ++ last
    if parts ≠ [] then throw (.move (.incomplete parts))

/-- What a move falls back on when renaming is turned down; `aimed` is the path that the move was
asked for, `target` the one that it goes to. -/
def moveByCopy (source aimed target : Text) : Disk Unit := do
  if ← ask (·.isLink source) then
    makeLink (← readLink source) target
    unlink source
  else if ← ask (·.isDirectory source) then
    if Path.isInside source aimed then throw (.move (.intoItself source aimed))
    copyTree ((← get).host.nesting .copying) source target
    removeTree source
  else
    copyFile source target
    unlink source

/-- Renames, and copies instead if that ends in a fault. -/
def renameOrCopy (source aimed target : Text) : Disk Unit :=
  tryCatch (rename source target) fun
    | .fault _ _ => moveByCopy source aimed target
    | e => throw e

/-- Is the source renamed to the directory that the target is, as it leads to the same place?  A
link is so on some hosts only. -/
def renamesInPlace (source target : Text) (fs : FileSystem) : Bool :=
  fs.isSamePlace source target && (!fs.isLink source || fs.host.renamesLinks)

/-- Takes what is at one path to another. -/
def move (source target : Text) : Disk Unit := do
  if ← ask (·.isDirectory target) then
    if ← ask (renamesInPlace source target) then rename source target
    else
      let inside := Path.join target (Path.base (Path.withoutTrailingSlashes source))
      if ← ask (·.isPresent inside) then throw (.move (.targetTaken inside))
      renameOrCopy source target inside
  else renameOrCopy source target target

end Disk

end FileShell
