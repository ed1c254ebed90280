import FileShell.Proofs.Contents
import FileShell.Proofs.Redirection
import FileShell.Text.Utf8Laws

/-!
# Files put together in a file

`cat` shows the bytes of its operands as one text, and a redirection writes the bytes of that text.
Nothing is lost on the way: every byte string is the encoding of the text that it is read as, and
texts put together are encoded one after the other, also where the halves of a character meet.  All
operands are read before the file is opened, so it may be one of them.

* `Text.encode_flatMap_decode`: byte strings read one by one are written as they stand together.
* `Verb.runCat_files`: what `cat` shows of files.
* `Redirect.concatenation`: the redirected `cat`.
-/

namespace FileShell

open Effect FileSystem

/-- Byte strings that are read one by one are written as they stand together. -/
theorem Text.encode_flatMap_decode (contents : List Bytes) :
    Text.encode (contents.flatMap Text.decode) = .ok contents.flatten := by
  induction contents with
  | nil => rfl
  | cons bytes rest ih =>
    rw [List.flatMap_cons, List.flatten_cons]
    exact Text.encode_append (Text.encode_decode bytes) ih

/-- The token leads to a file with the bytes, links followed. -/
def Shell.Reads (shell : Shell) (token : Text) (bytes : Bytes) : Prop :=
  ∃ q, shell.files.found? .target (shell.session.resolve token) = some (q, .file bytes)

namespace Verb

variable {shell : Shell} {files : List (Text × Bytes)}

/-- A file has its content shown. -/
theorem contribution_of_reads {token : Text} {bytes : Bytes} (h : shell.Reads token bytes) :
    shell.contribution token = .success (Text.decode bytes) := by
  obtain ⟨q, hq⟩ := h
  rw [Shell.contribution, hq]

theorem contents_files (h : ∀ f ∈ files, shell.Reads f.1 f.2) :
    shell.contents (files.map Prod.fst) =
      .success ((files.map Prod.snd).flatMap Text.decode) := by
  induction files with
  | nil => rfl
  | cons f rest ih =>
    have hrest := ih fun x hx => h x (List.mem_cons_of_mem _ hx)
    have hsplit := contents_append shell [f.1] (rest.map Prod.fst)
    rw [List.map_cons, ← List.singleton_append, hsplit, hrest, Shell.contents]
    simp only [List.flatMap_cons, List.flatMap_nil, List.findSome?_cons, List.findSome?_nil,
      contribution_of_reads (h f List.mem_cons_self), List.map_cons, List.append_nil]
    rfl

/-- `cat` shows the files as one text, and changes nothing. -/
theorem runCat_files (hne : files ≠ []) (h : ∀ f ∈ files, shell.Reads f.1 f.2) :
    runCat (files.map Prod.fst) shell =
      .ok (.success ((files.map Prod.snd).flatMap Text.decode)) shell := by
  rw [runCat_eq (by simpa using hne), contents_files h]

end Verb

namespace Redirect

/-- The arrow that follows operands which are no arrows is the first one. -/
theorem firstArrow_append {operands : List Text} {arrow : Text} (harrow : isArrow arrow = true)
    (h : ∀ t ∈ operands, isArrow t = false) (word : Text) (rest : List Text) :
    FirstArrow (word :: (operands ++ arrow :: rest)) (operands.length + 1) := by
  have hidx : (operands ++ arrow :: rest).findIdx isArrow = operands.length := by
    rw [List.findIdx_append, List.findIdx_eq_length.2 h, if_neg (Nat.lt_irrefl _),
      List.findIdx_cons, harrow]
    exact Nat.zero_add _
  refine firstArrow_cons_iff.2 ⟨?_, ?_⟩
  · rw [hidx, List.length_append, List.length_cons]
    omega
  · rw [hidx]

/-- **Files are copied byte by byte.**  A `cat` of files whose output is redirected leaves in the file
the bytes that they had before, in order, after what the file held if the mode is to append.  The
target is a file or a vacant place of a directory, and may be one of the files; nothing else is
different. -/
theorem concatenation (mode : RedirectMode) (word g : Text) {shell : Shell}
    {files : List (Text × Bytes)} {p : Location} (hword : Verb.lookup? word = some .cat)
    (hne : files ≠ []) (harrows : ∀ f ∈ files, isArrow f.1 = false)
    (hfiles : ∀ f ∈ files, shell.Reads f.1 f.2) (hp : shell.files.HoldsFile p)
    (hg : shell.files.locate .target (shell.session.resolve g) = .ok (shell.files.spotAt p)) :
    ∃ later, run mode (word :: (files.map Prod.fst ++ [mode.arrow, g])) shell =
        .ok (report mode g) later ∧
      later.session = shell.session ∧
      later.files.found? .target (shell.session.resolve g) =
        some (p, .file (kept mode (shell.files.content p) ++ (files.map Prod.snd).flatten)) ∧
      Writes p (kept mode (shell.files.content p) ++ (files.map Prod.snd).flatten)
        shell.files later.files := by
  have hopens : shell.files.Opens (shell.session.resolve g) p := opens_iff.2 ⟨hp, hg⟩
  have hencode := Text.encode_flatMap_decode (files.map Prod.snd)
  have hshape : run mode (word :: (files.map Prod.fst ++ [mode.arrow, g])) =
      runTo mode .cat (word :: files.map Prod.fst) g := by
    have harrow : isArrow mode.arrow = true := by cases mode <;> decide
    have hfirst := firstArrow_append harrow (List.forall_mem_map.2 harrows) word [g]
    have hfile : (word :: (files.map Prod.fst ++ [mode.arrow, g]))[
        (files.map Prod.fst).length + 1 + 1]? = some g := by
      simp
    rw [run_of_shape hfirst hfile hword, List.take_succ_cons, List.take_left]
  obtain ⟨later, hwrite⟩ := exists_writeOut hopens hencode mode
  obtain ⟨q, bytes, hq, hbytes, hwrites⟩ := writeOut_eq_ok hwrite
  cases hencode.symm.trans hbytes
  cases spotAt_injective (Except.ok.inj (hopens.locate_target.symm.trans hq.locate_target))
  have hcat : Verb.cat.run (word :: files.map Prod.fst) shell =
      .ok (.success ((files.map Prod.snd).flatMap Text.decode)) shell :=
    Verb.runCat_files hne hfiles
  refine ⟨⟨shell.session, later⟩, ?_, rfl, hopens.found?_of_writes hwrites, hwrites⟩
  rw [hshape, runTo_eq, bind_of_ok hcat]
  exact bind_of_ok (Action.onDisk_eq_ok.2 ⟨later, hwrite, rfl⟩)

/-- The halves of a character meet, a line end stays as it is, and the second file is written in the
end, through a link. -/
theorem concatenation_halves :
    let a : Name := ⟨[0x61], by decide⟩
    let b : Name := ⟨[0x62], by decide⟩
    let l : Name := ⟨[0x6C], by decide⟩
    let fs := ((FileSystem.empty.create [a] (.file [0x0D, 0x0A, 0xC3]) (.file _)).create [b]
      (.file [0xA9, 0x00]) (.file _)).create [l] (.link [0x62]) (.link _)
    let shell : Shell := ⟨⟨"/", "/"⟩, fs⟩
    let files : List (Text × Bytes) := [("a", [0x0D, 0x0A, 0xC3]), ("b", [0xA9, 0x00])]
    (∀ f ∈ files, shell.Reads f.1 f.2) ∧
      ∃ later, run .truncate ["cat", "a", "b", ">", "l"] shell = .ok (report .truncate "l") later ∧
        later.files.found? .target "/l" =
          some ([b], .file [0x0D, 0x0A, 0xC3, 0xA9, 0x00]) := by
  intro a b l fs shell files
  have ha : shell.Reads "a" [0x0D, 0x0A, 0xC3] := ⟨[a], by decide +kernel⟩
  have hb : shell.Reads "b" [0xA9, 0x00] := ⟨[b], by decide +kernel⟩
  have hfiles : ∀ f ∈ files, shell.Reads f.1 f.2 := by simp [files, ha, hb]
  have hp : shell.files.HoldsFile [b] := .inr ⟨[0xA9, 0x00], by decide +kernel⟩
  have hg : shell.files.locate .target (shell.session.resolve "l") =
      .ok (shell.files.spotAt [b]) := by
    have hnode : shell.files.node? [b] = some (.file [0xA9, 0x00]) := by decide +kernel
    rw [spotAt_of_node? hnode]
    exact found?_eq_some_iff.1 (by decide +kernel)
  obtain ⟨later, hrun, -, hfound, -⟩ := concatenation .truncate "cat" "l" (by decide +kernel)
    (List.cons_ne_nil _ _) (by decide +kernel) hfiles hp hg
  exact ⟨hfiles, later, hrun, hfound⟩

end Redirect

end FileShell
