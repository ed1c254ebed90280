import FileShell.Proofs.Moving

/-!
# Where a move into a directory ends

`mv` puts what is to go into a directory under its own name there.  If that name leads to another
directory, the move goes on into that one, and what was moved stands one directory further down; for
a link that may be the directory it leads to.  So it arrives under its own name in the directory
that was asked for unless a directory is in the way, or it is itself a directory around that place.

* `FileSystem.Moved.node?_passed_iff`: what a move leaves in its way, a directory or a link.
* `Disk.arrived_of_move`: where a move into a directory ends.
* `Verb.arrived_of_mv`: so does `mv`, if it succeeds.
-/

namespace FileShell

open FileSystem Effect

namespace FileSystem

variable {fs later : FileSystem} {p q r d e : Location} {t : Node} {n : Name}

/-- What a path leads to is what it names, or a link is there. -/
theorem Leads.eq_or_link {s : Spelling} (hs : s.IsClean) (hr : fs.Names s.toText r)
    (h : fs.Leads s.toText e) : r = e ∨ ∃ target, fs.node? r = some (.link target) := by
  by_cases hlink : ∃ target, fs.bare? r = some (.link target)
  · obtain ⟨target, htarget⟩ := hlink
    exact .inr ⟨target, bare?_eq_link_iff.1 htarget⟩
  · have hspot := locate_of_names hs hr (fun target htarget => hlink ⟨target, htarget⟩) .target
    have htaken := found?_eq_some_iff.1 h
    rw [← spotAt_of_node? (isDirectoryAt_iff.1 h.isDirectoryAt), hspot] at htaken
    exact .inl (spotAt_injective (Except.ok.inj htaken))

/-- A path that leads from a directory to another one names a place in the first. -/
theorem Leads.names_append {u : Spelling} (hu : u.IsClean) {part : Text}
    (hpart : Path.IsPart part) (hn : part.encode = .ok n.bytes) (hd : fs.Leads u.toText d)
    (he : fs.Leads (u.append [part]).toText e) : fs.Names (u.append [part]).toText (d ++ [n]) := by
  obtain ⟨r, hr⟩ := exists_names_of_locate (hu.append_singleton hpart) (found?_eq_some_iff.1 he)
  obtain ⟨d', m, rfl, hd', hm⟩ := FileSystem.names_append hu hpart hr
  rw [hn] at hm
  rwa [hd.unique hd', Name.ext_bytes (Except.ok.inj hm)]

/-- What arrives in a directory is not that directory. -/
theorem Moved.node?_above_ne (h : Moved fs later p (e ++ [n]) t) : later.node? e ≠ some t := by
  intro he
  have hnot : later.node? (e ++ [n]) ≠ some t := by
    intro hq
    rw [node?_append, he] at hq
    exact Nat.lt_irrefl _ (Node.sizeOf_lt_of_at? (List.cons_ne_nil n []) hq)
  -- the source is above the directory then, and nothing is left of it
  have hpq : p ≠ e ++ [n] := fun heq => hnot (h.arrives.2 (.inl heq))
  have hpre : p <+: e ++ [n] := Classical.byContradiction fun hpre => hnot (h.arrives.2 (.inr hpre))
  have hpe : p <+: e := (List.prefix_concat_iff.1 hpre).resolve_left hpq
  have hgone := bare?_eq_none_of_isPrefix hpe (bare?_eq_none_iff.2 (h.leaves hpq))
  rw [bare?_of_node? he] at hgone
  cases hgone

/-- A link in the way is left as it is, or it is what was moved. -/
theorem Moved.node?_link_iff {target : Bytes} (h : Moved fs later p q t)
    (hstays : p = q → later = fs) (ht : fs.node? p = some t)
    (hr : fs.node? r = some (.link target)) (hrq : r ≠ q) :
    later.node? r = some t ↔ t.isLink = true ∧ p ≠ r ∧ fs.node? r = some t := by
  by_cases hpr : p = r
  · have hgone := h.leaves (hpr ▸ hrq)
    simp [← hpr, hgone]
  by_cases hpre : p <+: r
  · -- what is above the link is a directory, and it takes the link with it or nothing happens
    have hr0 : r ≠ [] := by
      rintro rfl
      cases hr
    have hdir := isDirectoryAt_of_properPrefix hpre hpr
      (isDirectoryAt_dropLast hr0 (bare?_ne_none_of_node? hr))
    rw [isDirectoryAt_iff, ht, Option.some.injEq] at hdir
    refine ⟨fun hlater => ?_, fun hlink => ?_⟩
    · by_cases hpq : p = q
      · rw [hstays hpq, hr, hdir] at hlater
        cases hlater
      · have hgone := bare?_eq_none_of_isPrefix hpre (bare?_eq_none_iff.2 (h.leaves hpq))
        rw [bare?_of_node? hlater] at hgone
        cases hgone
    · rw [hdir] at hlink
      cases hlink.1
  · rw [h.others r _ hr rfl hpre hrq, hr]
    refine ⟨fun heq => ?_, fun hlink => hlink.2.2⟩
    rw [← Option.some.inj heq]
    exact ⟨rfl, hpr, rfl⟩

/-- **What stands in the way of a move that goes on into a directory**: that directory or a link to
it, and it is not what was moved unless it was like it before. -/
theorem Moved.node?_passed_iff (h : Moved fs later p (e ++ [n]) t) (hstays : p = e ++ [n] → later = fs)
    (ht : fs.node? p = some t) (he : fs.IsDirectoryAt e)
    (hr : r = e ∨ ∃ target, fs.node? r = some (.link target)) (hne : r ≠ e ++ [n]) :
    later.node? r = some t ↔ t.isLink = true ∧ p ≠ r ∧ fs.node? r = some t := by
  rcases hr with rfl | ⟨target, hr⟩
  · refine ⟨fun hlater => absurd hlater h.node?_above_ne, ?_⟩
    rintro ⟨hlink, -, hbefore⟩
    rw [isDirectoryAt_iff.1 he, Option.some.injEq] at hbefore
    rw [← hbefore] at hlink
    cases hlink
  · exact h.node?_link_iff hstays ht hr hne

/-- A move from a place to itself changes nothing. -/
theorem Carried.eq_of_eq {source aimed : Text} (h : Carried fs later source aimed p q t)
    (ht : fs.node? p = some t) (hpq : p = q) : later = fs := by
  cases h with
  | stayed _ hlater => exact hlater
  | renamed _ _ htakes _ => exact absurd (hpq ▸ List.prefix_refl p) htakes.1
  | copied mid _ _ hcopied _ =>
    have hvacant := hcopied.vacant
    rw [← hpq, bare?_of_node? ht] at hvacant
    cases hvacant

end FileSystem

namespace Disk

variable {fs later : FileSystem} {p d : Location} {t : Node} {s u : Spelling}

/-- **Where a move into a directory ends**: under its own name there, if that name leads to no
directory or to one that the source is renamed to.  If it leads to any other, the move ends in that
one, and where it was to go there is nothing like it but a link that was there before. -/
theorem arrived_of_move (hs : s.IsClean) (hu : u.IsClean) (hp : fs.Names s.toText p)
    (ht : fs.node? p = some t) (hroot : s.parts ≠ []) (hd : fs.Leads u.toText d)
    (h : move s.toText (Path.join u.toText (Path.base s.toText)) fs = .ok () later) :
    let inside := Path.join u.toText (Path.base s.toText)
    ∃ n : Name, (Path.base s.toText).encode = .ok n.bytes ∧
      (fs.isDirectory inside = false ∨ renamesInPlace s.toText inside fs = true →
        Moved fs later p (d ++ [n]) t) ∧
      ∀ e, fs.Leads inside e → renamesInPlace s.toText inside fs = false →
        Moved fs later p (e ++ [n]) t ∧
          (e ≠ d → (later.node? (d ++ [n]) = some t ↔
            t.isLink = true ∧ p ≠ d ++ [n] ∧ fs.node? (d ++ [n]) = some t)) := by
  intro inside
  have hpart := hs.isPart _ (List.getLast_mem hroot)
  have hbase : Path.base s.toText = s.parts.getLast hroot := Spelling.base_toText_getLast hs hroot
  have hv := hu.append_singleton hpart
  have hinside : inside = (u.append [s.parts.getLast hroot]).toText := by
    show Path.join _ _ = _
    rw [hbase, Spelling.join_toText hu hpart]
  change move s.toText inside fs = .ok () later at h
  have hp' := hp
  rw [Spelling.eq_append_parent hroot] at hp'
  obtain ⟨above, n, -, -, hn⟩ := names_append hs.parent hpart hp'
  rw [hinside] at h
  obtain ⟨q, hlanding, hcarried⟩ := carried_of_move hs hv hp ht hroot h
  have hmoved := hcarried.moved hp (fun h0 => hroot ((hp.eq_nil_iff hs).1 h0)) ht
  rw [← hinside] at hlanding
  refine ⟨n, hbase ▸ hn, ?_, ?_⟩
  · intro hends
    rw [goal_eq_target hends, hinside, landing?_of_leads hu hpart hn hd,
      Option.some.injEq] at hlanding
    rwa [hlanding]
  · intro e he hsame
    rw [goal_eq_join (isDirectory_iff.2 ⟨e, he⟩) hsame,
      Spelling.withoutTrailingSlashes_toText hs hroot, hbase, hinside,
      Spelling.join_toText hv hpart, landing?_of_leads hv hpart hn (hinside ▸ he),
      Option.some.injEq] at hlanding
    subst hlanding
    refine ⟨hmoved, ?_⟩
    intro hed
    have hnames := hd.names_append hu hpart hn (hinside ▸ he)
    exact hmoved.node?_passed_iff (hcarried.eq_of_eq ht) ht he.isDirectoryAt
      (Leads.eq_or_link hv hnames (hinside ▸ he)) (by simp [Ne.symm hed])

end Disk

namespace Verb

variable {shell later : Shell} {result : Result}

/-- **What `mv` takes into a directory arrives there under its own name**, if that name leads to no
directory or to the source itself.  If it leads to another directory, or the source is a link that
the host does not rename to the directory it leads to, it goes on into that directory, and where it
was to go there is nothing like it but a link that was there before.  In both cases it arrives
unless the place lies inside the source. -/
theorem arrived_of_mv {verb sourceName targetName : Text} {more : List Text} {d : Location}
    (hcwd : Path.isAbsolute shell.session.cwd = true)
    (hhome : Path.isAbsolute shell.session.home = true)
    (hd : shell.files.Leads (shell.session.resolve targetName) d)
    (h : mv.run (verb :: sourceName :: targetName :: more) shell = .ok result later)
    (hok : result.isOk = true) :
    let source := shell.session.resolve sourceName
    let inside := Path.join (shell.session.resolve targetName) (Path.base source)
    ∃ p t, ∃ n : Name, shell.files.found? .entry source = some (p, t) ∧
      (Path.base source).encode = .ok n.bytes ∧
      (shell.files.isDirectory inside = false ∨
          Disk.renamesInPlace source inside shell.files = true →
        Moved shell.files later.files p (d ++ [n]) t) ∧
      ∀ e, shell.files.Leads inside e → Disk.renamesInPlace source inside shell.files = false →
        Moved shell.files later.files p (e ++ [n]) t ∧
          (e ≠ d → (later.files.node? (d ++ [n]) = some t ↔
            t.isLink = true ∧ p ≠ d ++ [n] ∧ shell.files.node? (d ++ [n]) = some t)) := by
  have hrun : runMv (sourceName :: targetName :: more) shell = .ok result later := h
  obtain ⟨s, u, hs, hu, hroot, hsource, htarget, p, t, files, htaken, hmove, rfl⟩ :=
    exists_spellings_of_runMv hcwd hhome hrun hok
  rw [htarget] at hd ⊢
  rw [hsource]
  rw [if_pos (isDirectory_iff.2 ⟨d, hd⟩)] at hmove
  obtain ⟨n, hn, harrived⟩ := Disk.arrived_of_move hs hu (names_of_taken htaken)
    (shows_of_locate htaken) hroot hd hmove
  exact ⟨p, t, n, found?_eq_some_iff.2 htaken, hn, harrived⟩

/-- In the directory `d` there is already an empty directory `a`: the directory `a` goes into that
one instead of taking its place. -/
theorem mv_into_its_namesake :
    let a : Name := ⟨[0x61], by decide⟩
    let d : Name := ⟨[0x64], by decide⟩
    let x : Name := ⟨[0x78], by decide⟩
    let files := (((FileSystem.empty.create [a] (.directory []) Node.tidy_empty).create [a, x]
      (.file [0x31]) (.file _)).create [d] (.directory []) Node.tidy_empty).create [d, a]
      (.directory []) Node.tidy_empty
    let shell : Shell := ⟨⟨"/", "/"⟩, files⟩
    files.found? .target (shell.session.resolve "d") = some ([d], .directory [(a, .directory [])]) ∧
      files.found? .entry (shell.session.resolve "a") =
        some ([a], .directory [(x, .file [0x31])]) ∧
      (match mv.run ["mv", "a", "d"] shell with
        | .ok result later =>
          some (result.isOk, later.files.node? [d, a], later.files.node? [d, a, a])
        | .error _ _ => none) =
          some (true, some (.directory [(a, .directory [(x, .file [0x31])])]),
            some (.directory [(x, .file [0x31])])) := by
  decide +kernel

/-- The link `l` is moved to where it stands.  It leads to a directory, and goes into that one. -/
theorem arrived_of_mv_link :
    let d : Name := ⟨[0x64], by decide⟩
    let l : Name := ⟨[0x6C], by decide⟩
    let files := (FileSystem.empty.create [d] (.directory []) Node.tidy_empty).create [l]
      (.link [0x64]) (.link _)
    let shell : Shell := ⟨⟨"/", "/"⟩, files⟩
    ∃ result later, mv.run ["mv", "l", "."] shell = .ok result later ∧ result.isOk = true ∧
      ∃ p t n, files.found? .entry (shell.session.resolve "l") = some (p, t) ∧
        Moved files later.files p ([d] ++ [n]) t ∧ later.files.node? [n] ≠ some t := by
  intro d l files shell
  have hrun : (value? (mv.run ["mv", "l", "."]) shell).map Result.isOk = some true := by
    decide +kernel
  obtain ⟨result, hvalue, hok⟩ := Option.map_eq_some_iff.1 hrun
  obtain ⟨later, h⟩ := value?_eq_some_iff.1 hvalue
  have hd : files.Leads (shell.session.resolve ".") [] := by
    show files.found? .target _ = _
    decide +kernel
  have hinside : files.Leads (Path.join (shell.session.resolve ".")
      (Path.base (shell.session.resolve "l"))) [d] := by
    show files.found? .target _ = _
    decide +kernel
  have hsource : files.found? .entry (shell.session.resolve "l") = some ([l], .link [0x64]) := by
    decide +kernel
  obtain ⟨p, t, n, hfound, hn, -, hgoesOn⟩ :=
    arrived_of_mv (by decide +kernel) (by decide +kernel) hd h hok
  obtain ⟨hmoved, hleft⟩ := hgoesOn [d] hinside (by decide +kernel)
  have hname : n = l := by
    have hbase : (Path.base (shell.session.resolve "l")).encode = .ok l.bytes := by decide +kernel
    exact Name.ext_bytes (Except.ok.inj (hn.symm.trans hbase))
  refine ⟨result, later, h, hok, p, t, n, hfound, hmoved, fun hstays => ?_⟩
  cases hsource.symm.trans hfound
  exact ((hleft (by simp)).1 hstays).2.1 (by rw [hname]; rfl)

end Verb

end FileShell
