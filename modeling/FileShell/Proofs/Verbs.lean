import FileShell.Proofs.Looking

/-!
# What verbs keep

A verb looks at the shell and makes requests to the file system.  A property of shells that its
requests keep is kept by the verb, on whatever arguments and whether it ends with a result or with a
failure.

* `Verb.RequestsKeep`: the requests that a verb makes keep a property.
* `Verb.keeps_run`: then so does the verb.
* `Shell.Within`: a property of the files, in one session; only `cd` leaves the session.
-/

namespace FileShell

open Effect

/-- The session is the given one, and the files have a property. -/
def Shell.Within (σ : Session) (F : FileSystem → Prop) (shell : Shell) : Prop :=
  shell.session = σ ∧ F shell.files

theorem Action.keeps_onDisk_within {α : Type} {action : Disk α} {F : FileSystem → Prop}
    (h : Keeps F action) (σ : Session) : Keeps (Shell.Within σ F) (onDisk action) := by
  rintro shell ⟨rfl, hfiles⟩
  rw [stateAfter_onDisk]
  exact ⟨rfl, h shell.files hfiles⟩

/-- What only looks at the disk keeps everything. -/
theorem Action.keeps_onDisk_of_still {α : Type} {action : Disk α} {I : Shell → Prop}
    (h : ∀ {F : FileSystem → Prop}, Keeps F action) : Keeps I (onDisk action) := by
  refine keeps_of_still fun shell => ?_
  rw [stateAfter_onDisk, h (F := (· = shell.files)) shell.files rfl]

theorem Action.keeps_session_onDisk {α : Type} (action : Disk α) (σ : Session) :
    Keeps (fun shell : Shell => shell.session = σ) (onDisk action) := by
  rintro shell rfl
  rw [stateAfter_onDisk]

namespace Verb

variable {I : Shell → Prop}

/-! ## Moving around and looking around -/

theorem keeps_runCd (h : ∀ path, Keeps I (Action.changeDirectory path)) (arguments : List Text) :
    Keeps I (runCd arguments) := by
  cases arguments with
  | nil => exact keeps_pure _
  | cons target more =>
    rw [runCd]
    split
    · refine keeps_bind Action.keeps_session ?_
      intro σ
      split
      · exact keeps_bind (h _) fun _ => keeps_pure _
      · exact keeps_pure _
    · refine keeps_bind (Action.keeps_resolve target) ?_
      intro path
      refine keeps_bind (h path) ?_
      intro moved
      split
      · exact keeps_pure _
      · refine keeps_bind (Action.keeps_ask _) ?_
        intro present
        split <;> exact keeps_pure _

theorem keeps_runPwd : Keeps I runPwd := keeps_bind Action.keeps_session fun _ => keeps_pure _

theorem keeps_listOrName (request : Listing.Request) : Keeps I (listOrName request) := by
  rw [listOrName]
  split
  · exact keeps_pure _
  dsimp only
  -- with and without a directory named, what follows only looks
  split
  all_goals
    refine keeps_bind (keeps_of_still fun _ => rfl) fun path => ?_
    refine keeps_bind (Action.keeps_ask _) fun present => ?_
    split
    · exact keeps_pure _
    refine keeps_bind (Action.keeps_ask _) fun isdir => ?_
    split
    · exact keeps_pure _
    · exact keeps_bind (Action.keeps_onDisk_of_still (Listing.keeps_all _)) fun _ => keeps_pure _

theorem keeps_runLs (arguments : List Text) : Keeps I (runLs arguments) := by
  rw [runLs]
  split
  · exact keeps_pure _
  · exact keeps_listOrName _

/-! ## Making directories and files -/

theorem keeps_runMkdir (h : ∀ path, Keeps I (Action.onDisk (Disk.makeDirectories path)))
    (arguments : List Text) : Keeps I (runMkdir arguments) := by
  cases arguments with
  | nil => exact keeps_pure _
  | cons name more =>
    rw [runMkdir]
    split
    · exact keeps_pure _
    · refine keeps_bind Action.keeps_session ?_
      intro σ
      refine keeps_bind (Action.keeps_ask _) ?_
      intro present
      split
      · exact keeps_pure _
      · exact keeps_bind (h _) fun _ => keeps_pure _

section Touch

variable (hrenew : ∀ path, Keeps I (Action.onDisk (Disk.renewTime path)))
  (hopen : ∀ path, Keeps I (Action.onDisk (Disk.openForWriting path false)))

include hrenew hopen

theorem keeps_touchOne (name : Text) : Keeps I (touchOne name) := by
  refine keeps_bind (Action.keeps_resolve name) ?_
  intro path
  refine keeps_bind (Action.keeps_ask _) ?_
  intro present
  split
  · exact keeps_bind (hrenew path) fun _ => keeps_pure _
  · exact keeps_bind (hopen path) fun _ => keeps_pure _

theorem keeps_runTouch (arguments : List Text) : Keeps I (runTouch arguments) := by
  rw [runTouch]
  split
  · exact keeps_pure _
  · exact keeps_bind (keeps_mapM fun name _ => keeps_touchOne hrenew hopen name) fun _ =>
      keeps_pure _

end Touch

/-! ## Removing -/

section Rm

variable (hunlink : ∀ path, Keeps I (Action.onDisk (Disk.unlink path)))

include hunlink

theorem keeps_rmOne (recursive : Bool)
    (htree : recursive = true → ∀ path, Keeps I (Action.onDisk (Disk.removeTree path)))
    (name : Text) : Keeps I (rmOne recursive name) := by
  refine keeps_bind (Action.keeps_resolve name) ?_
  intro path
  refine keeps_bind (keeps_of_still fun _ => rfl) ?_
  intro shell
  dsimp only
  split
  · exact keeps_pure _
  split
  · split
    · next hrecursive => exact keeps_bind (htree hrecursive path) fun _ => keeps_pure _
    · exact keeps_pure _
  · exact keeps_bind (hunlink path) fun _ => keeps_pure _

/-- Directories are removed only if there is a flag, and that can only be `-r`. -/
theorem keeps_runRm {arguments : List Text}
    (htree : Text.ofString "-r" ∈ arguments →
      ∀ path, Keeps I (Action.onDisk (Disk.removeTree path))) : Keeps I (runRm arguments) := by
  unfold runRm
  dsimp only
  split
  · exact keeps_pure _
  next hflags =>
  split
  · exact keeps_pure _
  refine keeps_bind Action.keeps_session ?_
  intro σ
  split
  · exact keeps_pure _
  refine keeps_bind (keeps_mapM fun name _ => keeps_rmOne hunlink _ ?_ name) fun _ => keeps_pure _
  intro hrecursive
  obtain ⟨flag, hflag⟩ := List.exists_mem_of_ne_nil _ (of_decide_eq_true hrecursive)
  have hr : flag = Text.ofString "-r" := by simpa using List.find?_eq_none.1 hflags flag hflag
  exact htree (hr ▸ (List.mem_filter.1 hflag).1)

end Rm

theorem keeps_runRmdir (h : ∀ path, Keeps I (Action.onDisk (Disk.removeDirectory path)))
    (arguments : List Text) : Keeps I (runRmdir arguments) := by
  cases arguments with
  | nil => exact keeps_pure _
  | cons name more =>
    refine keeps_bind Action.keeps_session ?_
    intro σ
    refine keeps_bind (Action.keeps_ask _) ?_
    intro found
    split
    · exact keeps_pure _
    split
    · exact keeps_pure _
    split
    · exact keeps_pure _
    split
    · exact keeps_pure _
    · exact keeps_bind (h _) fun _ => keeps_pure _

/-! ## Moving entries and showing contents -/

theorem keeps_runMv (h : ∀ source target, Keeps I (Action.onDisk (Disk.move source target)))
    (arguments : List Text) : Keeps I (runMv arguments) := by
  match arguments with
  | [] => exact keeps_pure _
  | [_] => exact keeps_pure _
  | sourceName :: targetName :: more =>
    refine keeps_bind Action.keeps_session ?_
    intro σ
    refine keeps_bind (keeps_of_still fun _ => rfl) ?_
    intro shell
    dsimp only
    split
    · exact keeps_pure _
    split
    · exact keeps_pure _
    · exact keeps_bind (h _ _) fun _ => keeps_pure _

section Cat

variable (h : ∀ path, Keeps I (Action.onDisk (Disk.readFile path)))

include h

theorem keeps_catOne (name : Text) : Keeps I (catOne name) := by
  refine keeps_bind (Action.keeps_resolve name) ?_
  intro path
  refine keeps_bind (Action.keeps_ask _) ?_
  intro isdir
  split
  · exact keeps_pure _
  · refine keeps_bind (Action.keeps_ask _) ?_
    intro present
    split
    · exact keeps_pure _
    · exact keeps_bind (h path) fun _ => keeps_pure _

theorem keeps_runCat (arguments : List Text) : Keeps I (runCat arguments) := by
  rw [runCat]
  split
  · exact keeps_pure _
  · exact keeps_bind (keeps_mapM fun name _ => keeps_catOne h name) fun _ => keeps_pure _

end Cat

/-! ## All verbs -/

/-- The requests that a verb makes keep a property of shells. -/
def RequestsKeep (I : Shell → Prop) : Verb → Prop
  | cd => ∀ path, Keeps I (Action.changeDirectory path)
  | mkdir => ∀ path, Keeps I (Action.onDisk (Disk.makeDirectories path))
  | touch => (∀ path, Keeps I (Action.onDisk (Disk.renewTime path))) ∧
      ∀ path, Keeps I (Action.onDisk (Disk.openForWriting path false))
  | rm => (∀ path, Keeps I (Action.onDisk (Disk.removeTree path))) ∧
      ∀ path, Keeps I (Action.onDisk (Disk.unlink path))
  | rmdir => ∀ path, Keeps I (Action.onDisk (Disk.removeDirectory path))
  | mv => ∀ source target, Keeps I (Action.onDisk (Disk.move source target))
  | cat => ∀ path, Keeps I (Action.onDisk (Disk.readFile path))
  | pwd | ls | help => True

/-- **A verb keeps what its requests keep.** -/
theorem keeps_run {v : Verb} (h : v.RequestsKeep I) (tokens : List Text) :
    Keeps I (v.run tokens) := by
  cases v with
  | cd => exact keeps_runCd h _
  | pwd => exact keeps_runPwd
  | ls => exact keeps_runLs _
  | mkdir => exact keeps_runMkdir h _
  | touch => exact keeps_runTouch h.1 h.2 _
  | rm => exact keeps_runRm h.2 fun _ => h.1
  | rmdir => exact keeps_runRmdir h _
  | mv => exact keeps_runMv h _
  | cat => exact keeps_runCat h _
  | help => exact keeps_pure _

/-- No verb but `cd` leaves the session. -/
theorem keeps_session_run {v : Verb} (hv : v ≠ cd) (σ : Session) (tokens : List Text) :
    Keeps (fun shell => shell.session = σ) (v.run tokens) := by
  have honDisk := fun {α : Type} (action : Disk α) => Action.keeps_session_onDisk action σ
  refine keeps_run ?_ tokens
  cases v with
  | cd => exact absurd rfl hv
  | touch | rm => exact ⟨fun _ => honDisk _, fun _ => honDisk _⟩
  | mkdir | rmdir | cat => exact fun _ => honDisk _
  | mv => exact fun _ _ => honDisk _
  | pwd | ls | help => trivial

end Verb

end FileShell
