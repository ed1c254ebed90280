import FileShell.Proofs.FileSystem.Requests
import FileShell.Verb.Run

/-!
# What `cat` shows

Each operand of `cat` has something of its own shown: a file its whole content, read as a text, and
a directory or an operand that leads nowhere a line in its place.  That depends on what its path
leads to and on nothing else.  So `cat` with more operands shows what it shows of the first ones and
then what it shows of the others; it always ends with a result, and changes nothing.

* `Shell.contribution`: what is shown of one operand, by what its path leads to.
* `Verb.runCat_eq`: what is shown of all.
* `Verb.run_cat_append`: operands after other operands.
-/

namespace FileShell

open Effect FileSystem

/-- What is shown of an operand: of a file its content, of a directory or where there is nothing a
line that says so, which is an error. -/
def Shell.contribution (shell : Shell) (name : Text) : Result :=
  match shell.files.found? .target (shell.session.resolve name) with
  | some (_, .file bytes) => .success (Text.decode bytes)
  | some (_, .directory _) => .failure .isADirectory ("cat: " ++ name ++ ": Is a directory\n")
  | _ => .failure .notFound ("cat: " ++ name ++ ": No such file or directory\n")

/-- What is shown of operands: what is shown of each, in order, and the error of the first that has
one. -/
def Shell.contents (shell : Shell) (names : List Text) : Result where
  output := names.flatMap fun name => (shell.contribution name).output
  error := names.findSome? fun name => (shell.contribution name).error

namespace Verb

/-- **An operand is shown for what its path leads to**, and nothing changes. -/
theorem catOne_eq (name : Text) (shell : Shell) :
    catOne name shell = .ok (shell.contribution name) shell := by
  rw [catOne, bind_of_ok (Action.resolve_eq name shell), bind_of_ok (Action.ask_eq _ shell),
    Shell.contribution]
  cases hfound : shell.files.found? .target (shell.session.resolve name) with
  | none =>
    have hdir : shell.files.isDirectory (shell.session.resolve name) = false := by
      rw [isDirectory, hfound]
    have hpresent : shell.files.isPresent (shell.session.resolve name) = false := by
      rw [isPresent, hfound]
      rfl
    rw [hdir, if_neg Bool.false_ne_true, bind_of_ok (Action.ask_eq _ shell), hpresent]
    rfl
  | some found =>
    obtain ⟨q, node⟩ := found
    have hlocate := found?_eq_some_iff.1 hfound
    cases node with
    | directory es =>
      have hdir : shell.files.isDirectory (shell.session.resolve name) = true := by
        rw [isDirectory, hfound]
        rfl
      rw [hdir]
      rfl
    | file bytes =>
      have hdir : shell.files.isDirectory (shell.session.resolve name) = false := by
        rw [isDirectory, hfound]
        rfl
      have hpresent : shell.files.isPresent (shell.session.resolve name) = true :=
        isPresent_iff.2 ⟨_, _, hlocate⟩
      have hread : Disk.readFile (shell.session.resolve name) shell.files =
          .ok bytes shell.files := Disk.readFile_eq_ok.2 ⟨⟨q, hlocate⟩, rfl⟩
      rw [hdir, if_neg Bool.false_ne_true, bind_of_ok (Action.ask_eq _ shell), hpresent]
      exact bind_of_ok (Action.onDisk_eq_ok.2 ⟨shell.files, hread, rfl⟩)
    | link target =>
      -- the path is followed to its end
      have hlink := isLink_of_locate (by decide) hlocate
      cases hlink

/-- **What `cat` shows of its operands**; it ends with a result and changes nothing. -/
theorem runCat_eq {names : List Text} (h : names ≠ []) (shell : Shell) :
    runCat names shell = .ok (shell.contents names) shell := by
  have hshown : names.mapM catOne shell = .ok (names.map shell.contribution) shell :=
    mapM_of_still fun name _ => catOne_eq name shell
  rw [runCat, if_neg h, bind_of_ok hshown, List.flatMap_map, List.findSome?_map]
  rfl

/-- What is shown of operands after other operands. -/
theorem contents_append (shell : Shell) (xs ys : List Text) :
    shell.contents (xs ++ ys) = ⟨(shell.contents xs).output ++ (shell.contents ys).output,
      (shell.contents xs).error.or (shell.contents ys).error⟩ := by
  simp only [Shell.contents, List.flatMap_append, List.findSome?_append]

/-- **`cat` goes through its operands one after another.**  With operands after other operands it
shows what it shows of the former and then what it shows of the latter, and its error is that of the
former if they have one.  Whatever the operands are, it ends with a result and changes nothing. -/
theorem run_cat_append (verb : Text) (shell : Shell) {xs ys : List Text} (hxs : xs ≠ [])
    (hys : ys ≠ []) :
    cat.run (verb :: xs) shell = .ok (shell.contents xs) shell ∧
      cat.run (verb :: ys) shell = .ok (shell.contents ys) shell ∧
      cat.run (verb :: (xs ++ ys)) shell =
        .ok ⟨(shell.contents xs).output ++ (shell.contents ys).output,
          (shell.contents xs).error.or (shell.contents ys).error⟩ shell := by
  have hall : xs ++ ys ≠ [] := List.append_ne_nil_of_left_ne_nil hxs ys
  refine ⟨runCat_eq hxs shell, runCat_eq hys shell, ?_⟩
  rw [← contents_append]
  exact runCat_eq hall shell

/-- A file and a directory, then a link that leads to itself, a name that no entry can have and a
file: the halves of a character are shown each for itself, and the first error stays. -/
theorem run_cat_append_amid_errors :
    let d : Name := ⟨[0x64], by decide⟩
    let f : Name := ⟨[0x66], by decide⟩
    let g : Name := ⟨[0x67], by decide⟩
    let l : Name := ⟨[0x6C], by decide⟩
    let files := (((FileSystem.empty.create [d] (.directory []) Node.tidy_empty).create [f]
      (.file [0xC3]) (.file _)).create [g] (.file [0xA9]) (.file _)).create [l] (.link [0x6C])
      (.link _)
    let shell : Shell := ⟨⟨"/", "/"⟩, files⟩
    let xs : List Text := ["f", "d"]
    let ys : List Text := ["l", "a\x00b", "g"]
    xs ≠ [] ∧ ys ≠ [] ∧
      cat.run ("cat" :: (xs ++ ys)) shell =
        .ok ⟨(shell.contents xs).output ++ (shell.contents ys).output,
          (shell.contents xs).error.or (shell.contents ys).error⟩ shell ∧
      shell.contents xs =
        ⟨Text.decode [0xC3] ++ "cat: d: Is a directory\n", some .isADirectory⟩ ∧
      shell.contents ys = ⟨"cat: l: No such file or directory\n" ++
        ("cat: a\x00b: No such file or directory\n" ++ Text.decode [0xA9]), some .notFound⟩ := by
  intro d f g l files shell xs ys
  have hxs : xs ≠ [] := List.cons_ne_nil _ _
  have hys : ys ≠ [] := List.cons_ne_nil _ _
  exact ⟨hxs, hys, (run_cat_append "cat" shell hxs hys).2.2, by decide +kernel, by decide +kernel⟩

end Verb

end FileShell
