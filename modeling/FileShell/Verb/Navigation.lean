import FileShell.Verb

/-!
# Moving around and looking around

`cd`, `pwd` and `ls`.  None of them changes the file system, and only `cd` changes the session.

* `Listing.below`: the listing of a directory in depth-first order, each directory before its
  entries, the entries as they are enumerated; links are listed and not entered.
* `Listing.Request.read`: what the arguments of `ls` ask for.
-/

namespace FileShell

namespace Verb

/-- Goes to the parent directory for `..`, else to the directory that the first argument names;
without arguments it stays. -/
def runCd (arguments : List Text) : Action Result := do
  match arguments with
  | [] => return .success []
  | target :: _ =>
    if target = Path.up then
      match Path.parent? (← Action.session).cwd with
      | some parent =>
        let _ ← Action.changeDirectory parent
        return .success []
      | none => return .success []
    else
      let path ← Action.resolve target
      if ← Action.changeDirectory path then return .success []
      else if ← Action.ask (·.isPresent path) then
        return .failure .notADirectory ("cd: not a directory: " ++ target)
      else return .failure .notFound ("cd: no such directory: " ++ target)

/-- Shows the working directory. -/
def runPwd : Action Result := return .success (← Action.session).cwd

end Verb

/-- How a directory is listed: from which path, with the hidden names or without, and with the
directories below or without. -/
structure Listing where
  root : Text
  hidden : Bool
  recursive : Bool
deriving DecidableEq, Repr

namespace Listing

/-- The path of an entry seen from the directory that is listed. -/
def extend (above : Text) (n : Name) : Text :=
  if above = [] then n.toText else Path.join above n.toText

/-- The path of a directory below, from what it is seen from the directory that is listed. -/
def pathOf (l : Listing) (above : Text) : Text :=
  if above = [] then l.root else Path.join l.root above

/-- What a listing shows below a directory, down to a greatest number of levels; `above` is the path
of the directory seen from the one that is listed.  At every entry the path is put together anew,
and what it leads to decides whether the listing goes on below. -/
def below (l : Listing) : (levels : Nat) → (above : Text) → Disk (List Text)
  | 0, _ => throw (.tooNested [])
  | levels + 1, above => do
    let shown ← (← Disk.listDirectory (l.pathOf above)).mapM fun e => do
      if !l.hidden && e.1.isHidden then return []
      else
        let entry := extend above e.1
        let path := Path.join l.root entry
        if l.recursive && (← Disk.ask (·.isDirectory path)) && !(← Disk.ask (·.isLink path)) then
          return entry :: (← below l levels entry)
        else return [entry]
    return shown.flatten

/-- Everything that a listing shows. -/
def all (l : Listing) : Disk (List Text) := do l.below ((← get).host.nesting .listing) []

/-- What the arguments of `ls` ask for: hidden names, the directories below, and what to list. -/
structure Request where
  hidden : Bool
  recursive : Bool
  targets : List Text
deriving DecidableEq, Repr

namespace Request

/-- What a request and some arguments after it ask for; nothing if there is an unknown flag. -/
def read : Request → List Text → Option Request
  | r, [] => some r
  | r, a :: rest =>
    if a = Text.ofString "-a" then read { r with hidden := true } rest
    else if a = Text.ofString "-r" then read { r with recursive := true } rest
    else if a.head? = some (.scalar '-') then none
    else read { r with targets := r.targets ++ [a] } rest

end Request

end Listing

namespace Verb

/-- What is said about a flag that `ls` does not know. -/
def lsUnsupported : Text := "Error: This i argument isn't supported\n"

/-- Lists the directory that is asked for, or names the file. -/
def listOrName (request : Listing.Request) : Action Result := do
  if request.targets.length > 1 then
    return .failure .invalidArgument "Error: ls accepts at most one directory.\n"
  else
    let name := request.targets.head?.getD Path.here
    let path ← match request.targets.head? with
      | some target => Action.resolve target
      | none => Session.cwd <$> Action.session
    if !(← Action.ask (·.isPresent path)) then
      return .failure .notFound ("Error: " ++ name ++ " does not exist.\n")
    else if !(← Action.ask (·.isDirectory path)) then return .success (name ++ "\n")
    else
      let entries ← Action.onDisk (Listing.all ⟨path, request.hidden, request.recursive⟩)
      return .success (entries.flatMap (· ++ [.scalar '\n']))

/-- Lists a directory, or names a file; `-a` shows hidden names, `-r` also what is below. -/
def runLs (arguments : List Text) : Action Result :=
  match Listing.Request.read ⟨false, false, []⟩ arguments with
  | none => return .failure .unsupportedFlag lsUnsupported
  | some request => listOrName request

end Verb

end FileShell
