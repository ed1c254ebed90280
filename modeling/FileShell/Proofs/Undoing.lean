import FileShell.Proofs.FileSystem.Missing
import FileShell.Proofs.Making
import FileShell.Proofs.Removal

/-!
# Taking back what was made

`mkdir` and `touch` look at what is there in one way and `rmdir` and `rm` in another: the ones ask
whether the path leads to something, the others whether it names an entry, of which kind that is,
and whether its text shows it above the working directory.  For what was made a moment ago they all
agree.  The new entry stands under its own name in a directory that was there, so the path that named
a vacant place names it now; and it is not above the working directory, because whatever the guard
refuses was there already.

* `FileSystem.NamesVacant`: a path that names a place at which nothing stands yet.
* `FileSystem.Restored`, `restored_discard_create`: what is made and taken away leaves no trace.
* `Shell.Stands.standsIn_of_absent`: what was not there is not refused.
* `Verb.undone`: `rmdir` undoes `mkdir`, and `rm` undoes `touch`.
-/

namespace FileShell

open Effect FileSystem

namespace FileSystem

variable {fs later : FileSystem} {s u : Spelling} {p d : Location} {t : Node} {path : Text}

/-! ## A vacant place -/

/-- The path names a place at which nothing stands, in the directory to which the path without its
last part leads. -/
structure NamesVacant (fs : FileSystem) (path : Text) (p : Location) : Prop where
  names : fs.Names path p
  vacant : fs.bare? p = none
  ne_nil : p ≠ []
  above : fs.Leads (Path.directory path) p.dropLast

theorem Names.namesVacant (hs : s.IsClean) (h : fs.Names s.toText p) (hvacant : fs.bare? p = none) :
    fs.NamesVacant s.toText p := by
  have hp : p ≠ [] := by
    rintro rfl
    exact isDirectoryAt_root.ne_none hvacant
  have hparts : s.parts ≠ [] := fun hnil => hp ((h.eq_nil_iff hs).2 hnil)
  refine ⟨h, hvacant, hp, ?_⟩
  rw [Spelling.directory_toText_parent hs hparts]
  exact h.leads_parent hs hp

theorem NamesVacant.isDirectoryAt (h : fs.NamesVacant path p) : fs.IsDirectoryAt p.dropLast :=
  h.above.isDirectoryAt

/-- What is put at the vacant place is what the path names then. -/
theorem NamesVacant.names_create (hs : s.IsClean) (h : fs.NamesVacant s.toText p) (ht : t.Tidy) :
    (fs.create p t ht).Names s.toText p :=
  h.names.mono hs (grown_create ht h.ne_nil h.isDirectoryAt h.vacant).kept

/-! ## Nothing is left -/

/-- Every entry is as it was, and so are the times of what was there, but for one directory. -/
structure Restored (fs later : FileSystem) (d : Location) : Prop where
  entries : later.entries = fs.entries
  times : ∀ r, fs.bare? r ≠ none → r ≠ d → later.time? r = fs.time? r

theorem entries_eq_of_bare (h : ∀ r, later.bare? r = fs.bare? r) : later.entries = fs.entries := by
  have hroot : later.node? [] = fs.node? [] := node?_eq_of_bare fun x => h ([] ++ x)
  exact Node.directory.inj (Option.some.inj hroot)

/-- **What is made and taken away leaves no trace**, but for the time of its directory. -/
theorem restored_discard_create (ht : t.Tidy) (hp : p ≠ []) (hdir : fs.IsDirectoryAt p.dropLast)
    (hvacant : fs.bare? p = none) : Restored fs ((fs.create p t ht).discard p) p.dropLast where
  entries := by
    have hdir' := (grown_create ht hp hdir hvacant).kept _ _ hdir
    refine entries_eq_of_bare fun r => ?_
    rw [bare?_discard hp hdir', bare?_create ht hp hdir]
    split
    · next hpre => rw [bare?_eq_none_of_isPrefix hpre hvacant]
    · rfl
  times r hr hne := by
    have hpre : ¬ p <+: r := fun hpre => hr (bare?_eq_none_of_isPrefix hpre hvacant)
    calc ((fs.create p t ht).discard p).time? r
        = (fs.create p t ht).time? r :=
          (Times.lookup_forget hne).trans (Times.lookup_forgetBelow hpre)
      _ = fs.time? r := (Times.lookup_forget hne).trans (Times.lookup_forgetBelow hpre)

/-! ## Directories above a directory -/

/-- Above a directory there are directories; the shorter path may start with one slash instead of
two. -/
theorem Leads.exists_above (hs : s.IsClean) (hroot : s.anchor = .root) (hu : u.IsClean)
    (hpre : s.parts <+: u.parts) (h : fs.Leads u.toText d) : ∃ e, fs.Leads s.toText e := by
  obtain ⟨b, hb, hwalk⟩ := locate_eq_ok_iff.1 (found?_eq_some_iff.1 h)
  obtain ⟨bs, hbs, rfl⟩ := hu.encode_toText.1 hb.encode
  obtain ⟨c, hc⟩ := hs.inBytes_of_isPrefix hroot hu hb (hpre.map Text.encode)
  obtain ⟨cs, hcs, rfl⟩ := hs.encode_toText.1 hc.encode
  obtain ⟨more, rfl⟩ : cs <+: bs := by
    have hmap := hpre.map Text.encode
    rw [hcs, hbs, List.prefix_map_iff] at hmap
    obtain ⟨ds, hds, heq⟩ := hmap
    rw [List.map_inj_right fun _ _ => Except.ok.inj] at heq
    exact heq ▸ hds
  rw [hu.steps_ofBytes hbs] at hwalk
  obtain ⟨left, e, henters⟩ := exists_enters_of_walk_append hwalk
  refine ⟨e, found?_eq_some_iff.2 (locate_eq_ok_iff.2 ⟨_, hc, ?_⟩)⟩
  rw [hs.steps_ofBytes hcs]
  exact henters.walk_target _

end FileSystem

variable {shell mid : Shell}

/-- **What was not there is not refused**: a path that shows a directory above the working directory
leads there. -/
theorem Shell.Stands.standsIn_of_absent (h : shell.Stands) {token : Text}
    (habsent : shell.files.isPresent (shell.session.resolve token) = false) :
    shell.session.standsIn (shell.session.resolve token) = false := by
  rw [← Bool.not_eq_true, Session.standsIn_iff h.absoluteCwd h.absoluteHome]
  rintro ⟨hroot, hpre⟩
  obtain ⟨s, hs, hpath⟩ := Path.exists_clean_resolve token h.absoluteCwd h.absoluteHome
  change shell.session.resolve token = s.toText at hpath
  obtain ⟨u, hu, hcwd⟩ := h.exists_clean
  have hdir := h.isDirectory
  rw [hpath, Spelling.ofText_toText hs] at hroot
  rw [hpath, hcwd, Spelling.ofText_toText hs, Spelling.ofText_toText hu] at hpre
  rw [hcwd] at hdir
  rw [hpath] at habsent
  obtain ⟨d, hleads⟩ := isDirectory_iff.1 hdir
  obtain ⟨e, habove⟩ := hleads.exists_above hs hroot hu hpre
  cases habove.isPresent.symm.trans habsent

namespace Verb

variable {s : Spelling} {p : Location} {name : Text}

/-! ## Directories -/

/-- An existing directory above, and `mkdir` has made one directory in it. -/
theorem exists_create_of_runMkdir (hs : s.IsClean) (hpath : shell.session.resolve name = s.toText)
    (habove : shell.files.isPresent (Path.directory s.toText) = true)
    (h : Action.Takes (runMkdir [name]) shell mid) :
    shell.files.isPresent s.toText = false ∧ ∃ p, shell.files.NamesVacant s.toText p ∧
      mid = ⟨shell.session, shell.files.create p (.directory []) Node.tidy_empty⟩ := by
  obtain ⟨path, hcreated, habsent, ⟨files, hmake, rfl⟩, -⟩ := made_of_takes h
  obtain rfl : shell.session.resolve name = path := List.head_eq_of_cons_eq hcreated
  rw [hpath] at habsent hmake
  refine ⟨habsent, ?_⟩
  have hparts : s.parts ≠ [] := by
    intro hnil
    have hroot : shell.files.Leads s.toText [] :=
      (names_root hs hnil).leads hs isDirectoryAt_root
    cases hroot.isPresent.symm.trans habsent
  rw [Spelling.directory_toText_parent hs hparts] at habove
  have hone := @Disk.makeDirectories_of_isPresent s.toText shell.files
  rw [Spelling.ofText_toText hs] at hone
  rw [hone habove] at hmake
  obtain ⟨p, slash, hlocate, rfl⟩ := Disk.makeDirectory_eq_ok.1 hmake
  exact ⟨p, (names_of_vacant hs hlocate).namesVacant hs (shows_of_locate hlocate).2.2, rfl⟩

/-- An empty directory goes, if the guard lets it pass. -/
theorem runRmdir_of_empty (hs : s.IsClean) (hpath : shell.session.resolve name = s.toText)
    (hnames : shell.files.Names s.toText p) (hp : p ≠ [])
    (hempty : shell.files.node? p = some (.directory []))
    (hpass : shell.session.standsIn s.toText = false) :
    runRmdir [name] shell =
      .ok (.success ("Directory '" ++ name ++ "' deleted."))
        ⟨shell.session, shell.files.discard p⟩ := by
  have hlocate : ∀ aim, shell.files.locate aim s.toText = .ok (.taken p (.directory [])) := by
    intro aim
    rw [← spotAt_of_node? hempty]
    exact locate_of_names hs hnames (bare?_ne_link hempty rfl) aim
  have hremove : Disk.removeDirectory s.toText shell.files = .ok () (shell.files.discard p) := by
    rw [Disk.removeDirectory, bind_of_ok (Disk.locate_eq_ok.2 ⟨hlocate .entry, rfl⟩)]
    cases p with
    | nil => exact absurd rfl hp
    | cons n p => rfl
  rw [runRmdir, bind_of_ok (Action.session_eq shell), hpath, bind_of_ok (Action.ask_eq _ shell),
    found?_eq_some_iff.2 (hlocate .target)]
  simp only [Node.isDirectory, Node.entries, hpass, Bool.not_true, Bool.false_eq_true, if_false,
    ne_eq, not_true_eq_false]
  rw [bind_of_ok (Action.onDisk_eq_ok.2 ⟨_, hremove, rfl⟩)]
  rfl

/-! ## Files -/

/-- Where no entry stood, `touch` has made a file. -/
theorem exists_create_of_touchOne (hs : s.IsClean) (hpath : shell.session.resolve name = s.toText)
    (hfree : shell.files.hasEntry s.toText = false)
    (h : Action.Takes (touchOne name) shell mid) :
    shell.files.isPresent s.toText = false ∧ ∃ p, shell.files.NamesVacant s.toText p ∧
      mid = ⟨shell.session, shell.files.create p (.file []) (.file [])⟩ := by
  have habsent : shell.files.isPresent s.toText = false := by
    rw [← Bool.not_eq_true]
    intro hpresent
    cases (hasEntry_of_isPresent hs hpresent).symm.trans hfree
  refine ⟨habsent, ?_⟩
  obtain ⟨result, hrun, -⟩ := h
  rw [touchOne, bind_of_ok (Action.resolve_eq name shell), bind_of_ok (Action.ask_eq _ shell),
    hpath] at hrun
  simp only [habsent, Bool.false_eq_true, if_false] at hrun
  obtain ⟨place, later, hdisk, hend⟩ := bind_eq_ok.1 hrun
  cases hend
  obtain ⟨files, hopen, rfl⟩ := Action.onDisk_eq_ok.1 hdisk
  rcases Disk.openForWriting_eq_ok.1 hopen with ⟨old, hlocate, -⟩ | ⟨slash, hlocate, rfl⟩
  · -- a file to which the path leads would be present
    have htarget := Opens.locate_target ⟨_, hlocate, rfl⟩
    rw [spotAt_of_node? (shows_of_locate hlocate)] at htarget
    cases (isPresent_iff.2 ⟨_, _, htarget⟩).symm.trans habsent
  · obtain ⟨q, hnames⟩ := exists_names_of_locate hs hlocate
    have hvacant : shell.files.bare? q = none := by
      cases hq : shell.files.node? q with
      | none => exact bare?_eq_none_iff.2 hq
      | some t =>
        rw [Names, spotAt_of_node? hq] at hnames
        cases (hasEntry_iff.2 ⟨q, t, hnames⟩).symm.trans hfree
    -- no link stands there, so the file is made under the name itself
    have hsame := locate_of_names hs hnames (by simp [hvacant]) .creation
    rw [spotAt_of_vacant (bare?_eq_none_iff.1 hvacant), hlocate] at hsame
    cases hsame
    exact ⟨place, hnames.namesVacant hs hvacant, rfl⟩

/-- A file goes, if its name is no flag and the guard lets it pass. -/
theorem runRm_of_file (hs : s.IsClean) (hpath : shell.session.resolve name = s.toText)
    (hflag : isFlag name = false) (hnames : shell.files.Names s.toText p) {bytes : Bytes}
    (hfile : shell.files.node? p = some (.file bytes))
    (hpass : shell.session.standsIn s.toText = false) :
    runRm [name] shell =
      .ok (.success ("File '" ++ name ++ "' deleted."))
        ⟨shell.session, shell.files.discard p⟩ := by
  rw [Names, spotAt_of_node? hfile] at hnames
  rw [← hpath] at hpass
  rw [runRm_of_operand (by simp [hflag]) (by simp [hflag]) hpass]
  exact rmOne_of_file hs hpath hnames rfl

/-! ## Both -/

/-- **Removal undoes creation.**  A directory that `mkdir` has made in one that existed is removed by
`rmdir` with the same token, and a file that `touch` has made where no entry stood is removed by `rm`
with the same token, unless that is a flag.  Afterwards the session and the entries are what they
were before, and no time has changed but that of the directory around. -/
theorem undone (h : shell.Stands) (verb verb' token : Text) :
    (∀ mid, Action.Takes (mkdir.run [verb, token]) shell mid →
      shell.files.isPresent (Path.directory (shell.session.resolve token)) = true →
      ∃ files d, Action.Takes (rmdir.run [verb', token]) mid ⟨shell.session, files⟩ ∧
        shell.files.Leads (Path.directory (shell.session.resolve token)) d ∧
        Restored shell.files files d) ∧
    ∀ mid, Action.Takes (touch.run [verb, token]) shell mid →
      shell.files.hasEntry (shell.session.resolve token) = false → isFlag token = false →
      ∃ files d, Action.Takes (rm.run [verb', token]) mid ⟨shell.session, files⟩ ∧
        shell.files.Leads (Path.directory (shell.session.resolve token)) d ∧
        Restored shell.files files d := by
  obtain ⟨s, hs, hpath⟩ := Path.exists_clean_resolve token h.absoluteCwd h.absoluteHome
  change shell.session.resolve token = s.toText at hpath
  have hguard := @Shell.Stands.standsIn_of_absent shell h token
  rw [hpath] at hguard ⊢
  constructor
  · intro mid hmkdir habove
    obtain ⟨habsent, p, hplace, rfl⟩ := exists_create_of_runMkdir hs hpath habove hmkdir
    have hnames := hplace.names_create hs Node.tidy_empty
    have hempty := node?_create Node.tidy_empty hplace.ne_nil hplace.isDirectoryAt
    have hrun := @runRmdir_of_empty
      ⟨shell.session, shell.files.create p (.directory []) Node.tidy_empty⟩ s p token
      hs hpath hnames hplace.ne_nil hempty (hguard habsent)
    exact ⟨_, _, ⟨_, hrun, rfl⟩, hplace.above,
      restored_discard_create Node.tidy_empty hplace.ne_nil hplace.isDirectoryAt hplace.vacant⟩
  · intro mid htouch hfree hflag
    have hone : Action.Takes (touchOne token) shell mid := by
      rw [← runTouch_singleton]
      exact htouch
    obtain ⟨habsent, p, hplace, rfl⟩ := exists_create_of_touchOne hs hpath hfree hone
    have hnames := hplace.names_create hs (.file [])
    have hfile := node?_create (.file []) hplace.ne_nil hplace.isDirectoryAt
    have hrun := @runRm_of_file ⟨shell.session, shell.files.create p (.file []) (.file [])⟩
      s p token hs hpath hflag hnames [] hfile (hguard habsent)
    exact ⟨_, _, ⟨_, hrun, rfl⟩, hplace.above,
      restored_discard_create (.file []) hplace.ne_nil hplace.isDirectoryAt hplace.vacant⟩

/-- The shell stands behind the link `l`, and what is made and removed stands in the directory `d` to
which the link leads. -/
theorem undone_behind_link :
    let d : Name := ⟨[0x64], by decide⟩
    let l : Name := ⟨[0x6C], by decide⟩
    let files := (FileSystem.empty.create [d] (.directory []) Node.tidy_empty).create [l]
      (.link [0x64]) (.link _)
    let shell : Shell := ⟨⟨"/l", "/"⟩, files⟩
    shell.Stands ∧
      (∃ mid later, Action.Takes (mkdir.run ["mkdir", "x"]) shell mid ∧
        mid.files.entries ≠ files.entries ∧
        Action.Takes (rmdir.run ["rmdir", "x"]) mid ⟨shell.session, later⟩ ∧
        Restored files later [d]) ∧
      ∃ mid later, Action.Takes (touch.run ["touch", "../l/x"]) shell mid ∧
        mid.files.entries ≠ files.entries ∧
        Action.Takes (rm.run ["rm", "../l/x"]) mid ⟨shell.session, later⟩ ∧
        Restored files later [d] := by
  intro d l files shell
  have h : shell.Stands :=
    ⟨by decide +kernel, by decide +kernel, by decide +kernel, by decide +kernel⟩
  have hleads : files.Leads "/l" [d] := by
    rw [Leads]
    decide +kernel
  have hmkdir : value? (mkdir.run ["mkdir", "x"]) shell =
      some (.success "Directory 'x' created at /l/x") := by decide +kernel
  have htouch : value? (touch.run ["touch", "../l/x"]) shell =
      some (.success "File '../l/x' created successfully.") := by decide +kernel
  obtain ⟨mid, hmade⟩ := value?_eq_some_iff.1 hmkdir
  obtain ⟨mid', hmade'⟩ := value?_eq_some_iff.1 htouch
  obtain rfl := stateAfter_of_ok hmade
  obtain rfl := stateAfter_of_ok hmade'
  have hpath : Path.directory (shell.session.resolve "x") = "/l" := by decide +kernel
  have hpath' : Path.directory (shell.session.resolve "../l/x") = "/l" := by decide +kernel
  obtain ⟨later, e, hremoved, he, hrestored⟩ :=
    (undone h "mkdir" "rmdir" "x").1 _ ⟨_, hmade, rfl⟩ (by decide +kernel)
  obtain ⟨later', e', hremoved', he', hrestored'⟩ :=
    (undone h "touch" "rm" "../l/x").2 _ ⟨_, hmade', rfl⟩ (by decide +kernel) (by decide +kernel)
  rw [hpath] at he
  rw [hpath'] at he'
  obtain rfl := he.unique hleads
  obtain rfl := he'.unique hleads
  exact ⟨h, ⟨_, later, ⟨_, hmade, rfl⟩, by decide +kernel, hremoved, hrestored⟩,
    _, later', ⟨_, hmade', rfl⟩, by decide +kernel, hremoved', hrestored'⟩

end Verb

end FileShell
