import FileShell.Proofs.FileSystem.Emptying
import FileShell.Proofs.Path.Symbols

/-!
# How requests fail

What can go wrong with a request depends on the paths of the request only in so far as a path with
the zero character cannot be handed to the file system, and a move that is refused is refused with
its paths.  So whoever knows the symbols of the paths can foresee the failures.

* `Disk.Foresees`: the failures of requests about paths made of certain symbols have a property.
* `Foresees.locate`, `Foresees.copyTree`, `Foresees.move` and so on: then so have those of each
  request.
-/

namespace FileShell

open Effect FileSystem

/-- A path that could be written is turned down because of the zero character only if it holds
one. -/
theorem FileSystem.locate_eq_zeroByte_iff {fs : FileSystem} {aim : Aim} {path : Text} :
    fs.locate aim path = .error .zeroByte ↔ path.Writable ∧ Symbol.zero ∈ path := by
  rw [Text.writable_iff, locate]
  cases hencode : path.encode with
  | error u => simp
  | ok b =>
    have hmem : (b.contains 0) = true ↔ Symbol.zero ∈ path := by
      rw [List.contains_iff_mem]
      exact Text.asciiByte_mem_iff hencode (by decide)
    by_cases hzero : Symbol.zero ∈ path
    · simp only [hmem.2 hzero, if_true, hzero, and_true]
      exact ⟨fun _ => ⟨b, rfl⟩, fun _ => trivial⟩
    · have hfree : b.contains 0 = false := by simpa using (not_congr hmem).2 hzero
      simp only [hfree, Bool.false_eq_true, if_false, hzero, and_false, iff_false]
      split <;> simp

namespace Disk

section

variable {P : Failure → Prop}

theorem failsWith_ask {α : Type} (question : FileSystem → α) : FailsWith P (ask question) :=
  failsWith_bind failsWith_get fun _ => failsWith_pure _

theorem failsWith_append (p : Location) (bytes : Bytes) : FailsWith P (append p bytes) := by
  unfold append
  split
  · refine failsWith_bind failsWith_get ?_
    intro fs
    split
    · exact failsWith_modify _
    · exact failsWith_pure _
  · exact failsWith_pure _

theorem failsWith_collect {action : Disk Unit} (haction : FailsWith P action) (source target : Text) :
    FailsWith P (collect source target action) := by
  refine failsWith_tryCatch (failsWith_bind haction fun _ => failsWith_pure _) fun e he => ?_
  split
  · exact failsWith_pure _
  · exact failsWith_pure _
  · exact failsWith_throw he

end

/-- Whatever goes wrong with paths made of some symbols has a property.  A path that can be handed
to the file system at all has to be made of these symbols. -/
structure Foresees (R : Symbol → Prop) (P : Failure → Prop) : Prop where
  fault : ∀ f paths, P (.fault f paths)
  unencodable : ∀ u, P (.unencodable u)
  zeroByte : R Symbol.zero → P .zeroByte
  targetTaken : ∀ target, target.All R → P (.move (.targetTaken target))
  intoItself : ∀ source target, source.All R → target.All R → P (.move (.intoItself source target))
  incomplete : ∀ parts, parts ≠ [] → P (.move (.incomplete parts))
  tooNested : P (.tooNested [])
  handed : ∀ path b, Path.InBytes path b → path.All R

namespace Foresees

variable {R : Symbol → Prop} {P : Failure → Prop} (h : Foresees R P)

include h

theorem slash : R (.scalar '/') :=
  h.handed [.scalar '/'] [slashByte] ⟨rfl, by decide, by decide, by decide⟩ _ List.mem_cons_self

theorem dot : R (.scalar '.') :=
  h.handed [.scalar '.'] [dotByte] ⟨rfl, by decide, by decide, by decide⟩ _ List.mem_cons_self

theorem name (n : Name) : n.toText.All R := h.handed _ _ (Path.inBytes_name n)

/-- A path that leads somewhere is made of the symbols. -/
theorem located {fs : FileSystem} {aim : Aim} {path : Text} {spot : Spot}
    (hspot : fs.locate aim path = .ok spot) : path.All R := by
  obtain ⟨b, hb, -⟩ := locate_eq_ok_iff.1 hspot
  exact h.handed path b hb

theorem of_locate_eq_error {fs : FileSystem} {aim : Aim} {path : Text} {e : Failure}
    (hpath : path.All R) (he : fs.locate aim path = .error e) : P e := by
  rcases locate_error_cases he with ⟨u, rfl⟩ | rfl | ⟨f, -, rfl⟩
  · exact h.unencodable u
  · exact h.zeroByte (hpath _ (locate_eq_zeroByte_iff.1 he).2)
  · exact h.fault f _

variable {path source target : Text}

/-! ## Single requests -/

theorem fail {α : Type} (f : Fault) (paths : List Text) :
    FailsWith P (Disk.fail f paths : Disk α) :=
  failsWith_throw (h.fault f paths)

theorem locate (hpath : path.All R) (aim : Aim) : FailsWith P (Disk.locate aim path) := by
  intro fs e later hrun
  exact h.of_locate_eq_error hpath (locate_eq_error.1 hrun).1

theorem locateAmong (hpath : path.All R) (paths : List Text) :
    FailsWith P (Disk.locateAmong paths path) := by
  refine failsWith_bind failsWith_get ?_
  intro fs
  cases hlocate : fs.locate .entry path with
  | ok spot => exact failsWith_pure spot
  | error e =>
    have he := h.of_locate_eq_error hpath hlocate
    cases e with
    | fault f ps => exact h.fail f paths
    | _ => exact failsWith_throw he

theorem makeDirectory (hpath : path.All R) : FailsWith P (Disk.makeDirectory path) := by
  refine failsWith_bind (h.locate hpath _) ?_
  intro spot
  cases spot with
  | taken p t => exact h.fail _ _
  | vacant p slash => exact failsWith_modify _

theorem makeLink (hpath : path.All R) (bytes : Bytes) :
    FailsWith P (Disk.makeLink bytes path) := by
  refine failsWith_bind (h.locateAmong hpath _) ?_
  intro spot
  cases spot with
  | taken p t => exact h.fail _ _
  | vacant p slash =>
    cases slash with
    | true => exact h.fail _ _
    | false => exact failsWith_modify _

theorem readLink (hpath : path.All R) : FailsWith P (Disk.readLink path) := by
  refine failsWith_bind (h.locate hpath _) ?_
  intro spot
  split
  · exact failsWith_pure _
  · exact h.fail _ _
  · exact h.fail _ _

theorem listDirectory (hpath : path.All R) : FailsWith P (Disk.listDirectory path) := by
  refine failsWith_bind (h.locate hpath _) ?_
  intro spot
  split
  · exact failsWith_bind failsWith_get fun _ => failsWith_pure _
  · exact h.fail _ _
  · exact h.fail _ _

theorem readFile (hpath : path.All R) : FailsWith P (Disk.readFile path) := by
  refine failsWith_bind (h.locate hpath _) ?_
  intro spot
  split
  · exact failsWith_pure _
  · exact h.fail _ _
  · exact h.fail _ _

theorem openForWriting (hpath : path.All R) (emptied : Bool) :
    FailsWith P (Disk.openForWriting path emptied) := by
  refine failsWith_bind (h.locate hpath _) ?_
  intro spot
  split
  · split
    · exact failsWith_bind (failsWith_modify _) fun _ => failsWith_pure _
    · exact failsWith_pure _
  · exact h.fail _ _
  · exact failsWith_bind (failsWith_modify _) fun _ => failsWith_pure _

theorem renewTime (hpath : path.All R) : FailsWith P (Disk.renewTime path) := by
  refine failsWith_bind (h.locate hpath _) ?_
  intro spot
  split
  · exact failsWith_modify _
  · exact h.fail _ _

theorem unlink (hpath : path.All R) : FailsWith P (Disk.unlink path) := by
  refine failsWith_bind (h.locate hpath _) ?_
  intro spot
  split
  · exact h.fail _ _
  · exact failsWith_modify _
  · exact h.fail _ _

theorem removeDirectory (hpath : path.All R) : FailsWith P (Disk.removeDirectory path) := by
  refine failsWith_bind (h.locate hpath _) ?_
  intro spot
  split
  · exact h.fail _ _
  · split
    · exact failsWith_modify _
    · exact h.fail _ _
  · exact h.fail _ _
  · exact h.fail _ _

theorem removeTree (hpath : path.All R) : FailsWith P (Disk.removeTree path) := by
  refine failsWith_bind (h.locate hpath _) ?_
  intro spot
  split
  · refine failsWith_bind failsWith_get ?_
    intro fs
    refine failsWith_bind ?_ fun _ => h.removeDirectory hpath
    intro mid e later hrun
    rw [failsWith_emptyDirectory _ _ mid e later hrun]
    exact h.tooNested
  · exact h.fail _ _
  · exact h.fail _ _

theorem copyTimeOf (hsource : source.All R) (htarget : target.All R) :
    FailsWith P (Disk.copyTimeOf source target) := by
  refine failsWith_bind (h.locate hsource _) ?_
  intro a
  refine failsWith_bind (h.locate htarget _) ?_
  intro b
  split
  · exact failsWith_modify _
  · exact h.fail _ _
  · exact h.fail _ _

theorem rename (hsource : source.All R) (htarget : target.All R) :
    FailsWith P (Disk.rename source target) := by
  refine failsWith_bind (h.locateAmong hsource _) ?_
  intro a
  refine failsWith_bind (h.locateAmong htarget _) ?_
  intro b
  split
  · exact h.fail _ _
  · exact h.fail _ _
  · exact h.fail _ _
  · split
    · exact h.fail _ _
    split
    · exact h.fail _ _
    · exact failsWith_modify _
  · split
    · exact failsWith_pure _
    split
    · exact h.fail _ _
    split
    · exact h.fail _ _
    split
    · split
      · exact h.fail _ _
      split
      · exact failsWith_modify _
      · exact h.fail _ _
    · split
      · exact h.fail _ _
      · exact failsWith_modify _

/-! ## Several requests in a row -/

theorem makeDirectories (hpath : path.All R) : FailsWith P (Disk.makeDirectories path) := by
  have hparts := Spelling.all_parts hpath
  rw [Disk.makeDirectories]
  generalize (Spelling.ofText path).anchor = anchor
  have hreverse : ∀ t ∈ (Spelling.ofText path).parts.reverse, Text.All R t :=
    fun t ht => hparts t (List.mem_reverse.1 ht)
  generalize (Spelling.ofText path).parts.reverse = parts at hreverse
  have hmake : ∀ ts : List Text, (∀ t ∈ ts, Text.All R t) →
      FailsWith P (Disk.makeDirectory (Spelling.toText ⟨anchor, ts.reverse⟩)) := by
    intro ts hts
    refine h.makeDirectory (Spelling.all_toText h.slash h.dot ?_)
    intro t ht
    exact hts t (List.mem_reverse.1 ht)
  induction parts with
  | nil => exact hmake [] fun _ h => absurd h List.not_mem_nil
  | cons part above ih =>
    have habove := ih fun t ht => hreverse t (List.mem_cons_of_mem _ ht)
    refine failsWith_bind (failsWith_ask _) ?_
    intro present
    cases present with
    | true => exact hmake (part :: above) hreverse
    | false =>
      refine failsWith_bind (failsWith_tryCatch habove fun e he => ?_) fun _ =>
        hmake (part :: above) hreverse
      split
      · exact failsWith_pure _
      · exact failsWith_throw he

theorem copyFile (hsource : source.All R) (htarget : target.All R) :
    FailsWith P (Disk.copyFile source target) := by
  refine failsWith_bind (failsWith_ask _) ?_
  intro inside
  have haimed : Text.All R (if inside = true then Path.join target (Path.base source) else target) := by
    split
    · exact Path.all_join h.slash htarget (Path.all_base hsource)
    · exact htarget
  refine failsWith_bind (h.readFile hsource) ?_
  intro bytes
  refine failsWith_bind (h.openForWriting haimed true) ?_
  intro p
  exact failsWith_bind (failsWith_append _ _) fun _ => h.copyTimeOf hsource haimed

end Foresees

/-- What a copy of a directory does about one of its entries. -/
def copyEntry (depth : Nat) (source target : Text) (e : Name × Node) : Disk (List Uncopied) :=
  let original := Path.join source e.1.toText
  let copy := Path.join target e.1.toText
  collect original copy <| match e.2 with
    | .link _ => do makeLink (← readLink original) copy
    | .directory _ => copyTree depth original copy
    | .file _ => copyFile original copy

theorem copyTree_succ (depth : Nat) (source target : Text) :
    copyTree (depth + 1) source target = (do
      let es ← listDirectory source
      makeDirectories target
      let failed ← es.mapM (copyEntry depth source target)
      let last ← collect source target (copyTimeOf source target)
      let parts := failed.flatten ++ last
      if parts ≠ [] then throw (.move (.incomplete parts))) := rfl

namespace Foresees

variable {R : Symbol → Prop} {P : Failure → Prop} (h : Foresees R P) {source target aimed : Text}

include h

theorem copyTree (hsource : source.All R) (htarget : target.All R) (depth : Nat) :
    FailsWith P (Disk.copyTree depth source target) := by
  induction depth generalizing source target with
  | zero => exact failsWith_throw h.tooNested
  | succ depth ih =>
    rw [copyTree_succ]
    refine failsWith_bind (h.listDirectory hsource) ?_
    intro es
    refine failsWith_bind (h.makeDirectories htarget) ?_
    intro _
    refine failsWith_bind (failsWith_mapM es fun e => failsWith_collect ?_ _ _) fun failed => ?_
    · have horiginal := Path.all_join h.slash hsource (h.name e.1)
      have hcopy := Path.all_join h.slash htarget (h.name e.1)
      split
      · exact failsWith_bind (h.readLink horiginal) fun bytes => h.makeLink hcopy bytes
      · exact ih horiginal hcopy
      · exact h.copyFile horiginal hcopy
    · refine failsWith_bind (failsWith_collect (h.copyTimeOf hsource htarget) _ _) ?_
      intro last
      simp only
      split
      · next hparts => exact failsWith_throw (h.incomplete _ hparts)
      · exact failsWith_pure _

theorem moveByCopy (hsource : source.All R) (haimed : aimed.All R) (htarget : target.All R) :
    FailsWith P (Disk.moveByCopy source aimed target) := by
  refine failsWith_bind (failsWith_ask _) ?_
  intro islink
  split
  · refine failsWith_bind (h.readLink hsource) ?_
    intro bytes
    exact failsWith_bind (h.makeLink htarget bytes) fun _ => h.unlink hsource
  · refine failsWith_bind (failsWith_ask _) ?_
    intro isdir
    split
    · have hrest : FailsWith P (do
          Disk.copyTree ((← get).host.nesting .copying) source target
          Disk.removeTree source) :=
        failsWith_bind failsWith_get fun _ =>
          failsWith_bind (h.copyTree hsource htarget _) fun _ => h.removeTree hsource
      split
      · exact failsWith_bind (failsWith_throw (h.intoItself _ _ hsource haimed)) fun _ => hrest
      · exact hrest
    · exact failsWith_bind (h.copyFile hsource htarget) fun _ => h.unlink hsource

theorem renameOrCopy (hsource : source.All R) (haimed : aimed.All R) (htarget : target.All R) :
    FailsWith P (Disk.renameOrCopy source aimed target) := by
  refine failsWith_tryCatch (h.rename hsource htarget) ?_
  intro e he
  split
  · exact h.moveByCopy hsource haimed htarget
  · exact failsWith_throw he

/-- **Whatever goes wrong with a move** is foreseen. -/
theorem move (hsource : source.All R) (htarget : target.All R) :
    FailsWith P (Disk.move source target) := by
  have hbase := Path.all_base (Path.all_withoutTrailingSlashes hsource)
  have hinside := Path.all_join h.slash htarget hbase
  refine failsWith_bind (failsWith_ask _) ?_
  intro isdir
  split
  · refine failsWith_bind (failsWith_ask _) ?_
    intro same
    split
    · exact h.rename hsource htarget
    · refine failsWith_bind (failsWith_ask _) ?_
      intro present
      have hrest := h.renameOrCopy hsource htarget hinside
      split
      · exact failsWith_bind (failsWith_throw (h.targetTaken _ hinside)) fun _ => hrest
      · exact hrest
  · exact h.renameOrCopy hsource htarget htarget

end Foresees

/-! ## The zero character -/

section Zero

variable {fs : FileSystem} {path source target : Text}

/-- A request that only ends in faults once its path is followed ends in the failure of a zero
character exactly if the path could be written and holds one. -/
theorem bind_locate_eq_zeroByte_iff {α : Type} {aim : Aim} {f : Spot → Disk α}
    (hf : ∀ spot, FailsWith (· ≠ .zeroByte) (f spot)) :
    (∃ later, (locate aim path >>= f) fs = .error .zeroByte later) ↔
      path.Writable ∧ Symbol.zero ∈ path := by
  have hlocate : fs.locate aim path = .error .zeroByte ↔ _ := locate_eq_zeroByte_iff
  rw [← hlocate]
  constructor
  · rintro ⟨later, h⟩
    rcases bind_eq_error.1 h with h | ⟨spot, mid, -, h⟩
    · exact (locate_eq_error.1 h).1
    · exact absurd rfl (hf spot mid _ later h)
  · intro h
    exact ⟨fs, bind_of_error (locate_eq_error.2 ⟨h, rfl⟩)⟩

theorem openForWriting_eq_zeroByte_iff (fs : FileSystem) (path : Text) (emptied : Bool) :
    (∃ later, openForWriting path emptied fs = .error .zeroByte later) ↔
      path.Writable ∧ Symbol.zero ∈ path := by
  refine bind_locate_eq_zeroByte_iff fun spot => ?_
  split
  · split
    · exact failsWith_bind (failsWith_modify _) fun _ => failsWith_pure _
    · exact failsWith_pure _
  · exact failsWith_throw Failure.noConfusion
  · exact failsWith_bind (failsWith_modify _) fun _ => failsWith_pure _

theorem makeDirectory_eq_zeroByte_iff :
    (∃ later, makeDirectory path fs = .error .zeroByte later) ↔
      path.Writable ∧ Symbol.zero ∈ path := by
  refine bind_locate_eq_zeroByte_iff fun spot => ?_
  cases spot with
  | taken p t => exact failsWith_throw Failure.noConfusion
  | vacant p slash => exact failsWith_modify _

/-- The same of a directory that needs none above it to be made. -/
theorem makeDirectories_eq_zeroByte_iff
    (habove : fs.isPresent (Spelling.ofText path).parent.toText = true) :
    (∃ later, makeDirectories path fs = .error .zeroByte later) ↔
      path.Writable ∧ Symbol.zero ∈ path := by
  have hwritable : (Spelling.ofText path).toText.Writable ↔ path.Writable :=
    Spelling.all_toText_ofText_iff ⟨_, rfl⟩ ⟨_, rfl⟩
  have hfree : (Spelling.ofText path).toText.All (· ≠ Symbol.zero) ↔
      path.All (· ≠ Symbol.zero) := Spelling.all_toText_ofText_iff (by decide) (by decide)
  have hzero : Symbol.zero ∈ (Spelling.ofText path).toText ↔ Symbol.zero ∈ path := by
    simpa [Text.All] using not_congr hfree
  rw [← hwritable, ← hzero, makeDirectories_of_isPresent habove]
  exact makeDirectory_eq_zeroByte_iff

/-- What is to be moved to a path that cannot be handed over is neither renamed nor copied. -/
theorem move_eq_error {e : Failure} (hsource : fs.hasEntry source = true)
    (htarget : ∀ aim, fs.locate aim target = .error e) (he : ∀ f paths, e ≠ .fault f paths) :
    move source target fs = .error e fs := by
  obtain ⟨p, t, hspot⟩ := hasEntry_iff.1 hsource
  have hnodir : fs.isDirectory target = false := by
    rw [isDirectory, found?, htarget]
  have hfound : locateAmong [source, target] source fs = .ok (.taken p t) fs :=
    locateAmong_eq_ok.2 ⟨hspot, rfl⟩
  have hlost : locateAmong [source, target] target fs = .error e fs := by
    rw [locateAmong, bind_of_ok (rfl : (get : Disk FileSystem) fs = .ok fs fs), htarget]
    cases e with
    | fault f paths => exact absurd rfl (he f paths)
    | _ => rfl
  have hrename : rename source target fs = .error e fs := by
    rw [rename, bind_of_ok hfound]
    exact bind_of_error hlost
  have hask : ask (·.isDirectory target) fs = .ok false fs := by rw [ask_eq, hnodir]
  rw [move, bind_of_ok hask]
  refine (tryCatch_of_error hrename).trans ?_
  cases e with
  | fault f paths => exact absurd rfl (he f paths)
  | _ => rfl

/-- A move to a path with a zero character ends in that failure exactly if the path could be
written. -/
theorem move_eq_zeroByte_iff (hsource : fs.hasEntry source = true)
    (hzero : Symbol.zero ∈ target) :
    (∃ later, move source target fs = .error .zeroByte later) ↔ target.Writable := by
  constructor
  · rintro ⟨later, h⟩
    cases hencode : target.encode with
    | ok b => exact Text.writable_iff.2 ⟨b, hencode⟩
    | error u =>
      have hlocate : ∀ aim, fs.locate aim target = .error (.unencodable u) := by
        intro aim
        rw [FileSystem.locate, hencode]
      rw [move_eq_error hsource hlocate fun _ _ => Failure.noConfusion] at h
      cases h
  · intro hwritable
    exact ⟨fs, move_eq_error hsource (fun _ => locate_eq_zeroByte_iff.2 ⟨hwritable, hzero⟩)
      fun _ _ => Failure.noConfusion⟩

end Zero

end Disk

end FileShell
