import FileShell.Completion
import FileShell.Proofs.FileSystem.Relative
import FileShell.Proofs.FileSystem.Respelled
import FileShell.Proofs.Navigation
import FileShell.Proofs.Path.Stem

/-!
# Completed words

A completion is looked for in the directory to which the file system leads the word, up to its last
slash and with a tilde expanded; a command takes the completed word for a path, in which it cancels
the steps up before it asks the file system.  The two mean the same directory unless the word steps
up behind a link, and the same tilde unless an account or a second slash follows it.

* `Environment.SharesTilde`: a completion and a command expand the tilde of a word alike.
* `Completion.mem_ofPath_iff`: a path is completed to the names in the directory to which it leads.
* `Completion.leads_stem`: without steps up, the word up to its last slash leads a command to the
  directory in which completions are looked for.
* `Completion.found_of_completion`: **what a completed word names is there**, if it is not too long.
* `Completion.found_of_completion_up_behind_link`: a name offered behind a link that is not there.
-/

namespace FileShell

open FileSystem

/-! ## Tildes -/

namespace Environment

variable {env : Environment} {home word rest : Text}

/-- The tilde of a word means the same to completions and to commands: there is none to expand, or a
slash and a relative path follow it. -/
def SharesTilde (env : Environment) (word : Text) : Prop :=
  env.expandTilde word = word ∨
    (Path.tilde ++ [.scalar '/'] <+: word ∧ ¬ Path.tilde ++ [.scalar '/', .scalar '/'] <+: word)

instance (env : Environment) (word : Text) : Decidable (env.SharesTilde word) :=
  inferInstanceAs (Decidable (_ ∨ _))

/-- The tilde stands for the home directory without slashes at its end. -/
theorem expandTilde_slash (henv : env.homeOf? [] = some home) (rest : Text) :
    env.expandTilde (Path.tilde ++ .scalar '/' :: rest) =
      Path.withoutTrailingSlashes home ++ .scalar '/' :: rest := by
  have hname : (Symbol.scalar '/' :: rest).takeWhile (· ≠ .scalar '/') = [] := by simp
  show expandTilde env (.scalar '~' :: .scalar '/' :: rest) = _
  unfold expandTilde
  simp only [hname, henv, List.length_nil, List.drop_zero]
  exact if_neg (by simp)

/-- The tilde alone is the home directory without slashes at its end, or the root. -/
theorem expandTilde_tilde (henv : env.homeOf? [] = some home) :
    env.expandTilde Path.tilde = [.scalar '/'] ∨
      env.expandTilde Path.tilde = Path.withoutTrailingSlashes home := by
  show expandTilde env [.scalar '~'] = _ ∨ expandTilde env [.scalar '~'] = _
  unfold expandTilde
  simp only [List.takeWhile_nil, henv, List.length_nil, List.drop_nil, List.append_nil]
  split
  · exact .inl rfl
  · exact .inr rfl

theorem isAbsolute_withoutTrailingSlashes (hhome : Path.isAbsolute home = true)
    (hne : Path.withoutTrailingSlashes home ≠ []) :
    Path.isAbsolute (Path.withoutTrailingSlashes home) = true := by
  obtain ⟨k, hk⟩ := Path.exists_slashes_end home
  cases hcut : Path.withoutTrailingSlashes home with
  | nil => exact absurd hcut hne
  | cons a more =>
    rw [hk, hcut] at hhome
    exact hhome

theorem isAbsolute_home_append (hhome : Path.isAbsolute home = true) (rest : Text) :
    Path.isAbsolute (Path.withoutTrailingSlashes home ++ .scalar '/' :: rest) = true := by
  by_cases hnil : Path.withoutTrailingSlashes home = []
  · rw [hnil]
    rfl
  · have habs := isAbsolute_withoutTrailingSlashes hhome hnil
    cases hcut : Path.withoutTrailingSlashes home with
    | nil => exact absurd hcut hnil
    | cons a more =>
      rw [hcut] at habs
      exact habs

theorem not_prefix_of_expandTilde (henv : env.homeOf? [] = some home)
    (hhome : Path.isAbsolute home = true) (h : env.expandTilde word = word) :
    ¬ Path.tilde ++ [.scalar '/'] <+: word := by
  rintro ⟨rest, rfl⟩
  have habs := isAbsolute_home_append hhome rest
  rw [List.append_assoc, List.singleton_append, expandTilde_slash henv] at h
  rw [h] at habs
  cases habs

end Environment

namespace Completion

variable {files : FileSystem} {env : Environment} {cwd home path word : Text} {c : Completion}

/-! ## Where completions are looked for -/

/-- The directory to which the path leads holds the name. -/
def Holds (files : FileSystem) (path : Text) (n : Name) : Prop :=
  ∃ d, files.Leads path d ∧ files.node? (d ++ [n]) ≠ none

theorem mem_namesAt_iff {directory name : Text} :
    name ∈ namesAt files directory ↔ ∃ n, Holds files directory n ∧ name = n.toText := by
  unfold namesAt
  constructor
  · intro hmem
    split at hmem
    · next d node hfound =>
      obtain ⟨e, he, rfl⟩ := List.mem_map.1 hmem
      -- only a directory has entries
      cases node with
      | file bytes => exact absurd he List.not_mem_nil
      | link target => exact absurd he List.not_mem_nil
      | directory es =>
        have hnode := node?_of_found? hfound
        have hentry := Entries.find?_of_mem (pairwise_of_node? hnode) he
        refine ⟨e.1, ⟨d, leads_iff_exists.2 ⟨es, hfound⟩, ?_⟩, rfl⟩
        rw [node?_concat hnode, hentry]
        exact Option.some_ne_none _
    · exact absurd hmem List.not_mem_nil
  · rintro ⟨n, ⟨d, hleads, hnode⟩, rfl⟩
    obtain ⟨es, hfound⟩ := leads_iff_exists.1 hleads
    rw [node?_concat (node?_of_found? hfound)] at hnode
    obtain ⟨t, ht⟩ := Option.ne_none_iff_exists'.1 hnode
    rw [hfound]
    exact List.mem_map.2 ⟨(n, t), Entries.mem_of_find? ht, rfl⟩

/-- **The completions of a path are the rests of the names** that start with its base, in the
directory to which the path leads. -/
theorem mem_ofPath_iff :
    c ∈ ofPath files cwd path ↔
      ∃ n, Holds files (directoryOf cwd path) n ∧ n.toText = Path.base path ++ c.inserted ∧
        c.start = 0 ∧ c.offered = offer files (directoryOf cwd path) n.toText := by
  unfold ofPath
  constructor
  · intro hmem
    obtain ⟨name, hname, rfl⟩ := List.mem_map.1 hmem
    obtain ⟨hsorted, hstart⟩ := List.mem_filter.1 hname
    obtain ⟨n, hn, rfl⟩ := mem_namesAt_iff.1 (List.mem_mergeSort.1 hsorted)
    obtain ⟨rest, hrest⟩ := List.isPrefixOf_iff_prefix.1 hstart
    refine ⟨n, hn, ?_, rfl, rfl⟩
    rw [← hrest, List.drop_left]
  · rintro ⟨n, hn, hname, hstart, hoffered⟩
    have hsorted : n.toText ∈ Text.sorted (namesAt files (directoryOf cwd path)) :=
      List.mem_mergeSort.2 (mem_namesAt_iff.2 ⟨n, hn, rfl⟩)
    have hbase : (Path.base path).isPrefixOf n.toText = true := by
      rw [List.isPrefixOf_iff_prefix, hname]
      exact List.prefix_append _ _
    refine List.mem_map.2 ⟨n.toText, List.mem_filter.2 ⟨hsorted, hbase⟩, ?_⟩
    obtain ⟨inserted, start, offered⟩ := c
    dsimp only at hname hstart hoffered
    rw [hstart, hoffered, hname, List.drop_left]

/-- The directory has the parts of the path up to its last slash. -/
theorem parts_directoryOf (hcwd : cwd ≠ []) (path : Text) :
    (Spelling.ofText (directoryOf cwd path)).parts =
      (Spelling.ofText (Path.join cwd (Path.stem path))).parts := by
  unfold directoryOf
  split
  · next hnil =>
    rw [Path.directory_eq_nil_iff.1 hnil, Spelling.parts_join_relative hcwd rfl]
    exact (List.append_nil _).symm
  · have hbase := Path.isAbsolute_of_not_mem (Path.not_mem_base path)
    have hjoin : Path.join cwd path = Path.join cwd (Path.stem path) ++ Path.base path := by
      rw [← Path.join_append _ _ hbase, Path.stem_append_base]
    have hstem := ((Path.isStem_stem path).join hcwd)
    rw [Path.parts_directory, hjoin, (Path.stem_append hstem (Path.not_mem_base path)).1]

/-- Expanding a tilde does not change the base of a word. -/
theorem base_expandTilde (henv : env.homeOf? [] = some home) (h : env.SharesTilde word) :
    Path.base (env.expandTilde word) = Path.base word := by
  rcases h with hsame | ⟨⟨rest, rfl⟩, -⟩
  · rw [hsame]
  · rw [List.append_assoc, List.singleton_append, Environment.expandTilde_slash henv,
      (Path.stem_append_slash _ rest).2, (Path.stem_append_slash _ rest).2]

/-! ## Completed words as paths -/

variable {shell : Shell}

/-- **The directory has the parts of what the word stands for** to a command, up to its last slash,
if no step up is in it. -/
theorem parts_directoryOf_expandTilde (h : shell.Stands) (henv : env.homeOf? [] = some home)
    (hhome : Path.normalize home = shell.session.home) (htilde : env.SharesTilde word)
    (hup : Path.up ∉ (Spelling.ofText (Path.stem (env.expandTilde word))).parts) :
    (Spelling.ofText (directoryOf shell.session.cwd (env.expandTilde word))).parts =
      (Spelling.ofText
        (Path.fromDirectory shell.session.cwd shell.session.home (Path.stem word))).parts := by
  have habs : Path.isAbsolute home = true := by
    rw [← Path.isAbsolute_normalize, hhome, h.absoluteHome]
  rw [parts_directoryOf (Path.ne_nil_of_isAbsolute h.absoluteCwd), Path.fromDirectory]
  rcases htilde with hsame | ⟨⟨rest, rfl⟩, hrelative⟩
  · have hword := Environment.not_prefix_of_expandTilde henv habs hsame
    have hstem : ¬ Path.tilde ++ [.scalar '/'] <+: Path.stem word := by
      intro hstart
      exact hword (hstart.trans ⟨Path.base word, Path.stem_append_base word⟩)
    rw [hsame, Path.fromHome_of_no_tilde hstem]
  · have hrest : Path.isAbsolute rest = false := by
      rw [Path.isAbsolute, decide_eq_false_iff_not, List.head?_eq_some_iff]
      rintro ⟨more, rfl⟩
      exact hrelative ⟨more, rfl⟩
    rw [List.append_assoc, List.singleton_append, Environment.expandTilde_slash henv,
      (Path.stem_append_slash _ rest).1] at hup ⊢
    rw [(Path.stem_append_slash _ rest).1]
    rw [Spelling.parts_append_slash, Path.parts_withoutTrailingSlashes] at hup
    have hnoup : Path.up ∉ (Spelling.ofText home).parts := fun hmem =>
      hup (List.mem_append_left _ hmem)
    have hstands : Path.isAbsolute
        (Path.withoutTrailingSlashes home ++ .scalar '/' :: Path.stem rest) = true :=
      Environment.isAbsolute_home_append habs (Path.stem rest)
    have hjoined : Path.fromHome shell.session.home (Path.tilde ++ .scalar '/' :: Path.stem rest) =
      Path.join shell.session.home (Path.stem rest) := rfl
    rw [hjoined, Path.join, if_pos hstands, Path.join, if_pos (Path.isAbsolute_join h.absoluteHome),
      Spelling.parts_append_slash, Path.parts_withoutTrailingSlashes,
      Spelling.parts_join_relative (Path.ne_nil_of_isAbsolute h.absoluteHome)
        (Path.isAbsolute_stem hrest),
      ← hhome, Path.parts_normalize habs hnoup]

/-- **Without steps up, the word up to its last slash leads a command to the directory in which
completions are looked for**, if it is not too long. -/
theorem leads_stem (h : shell.Stands) (henv : env.homeOf? [] = some home)
    (hhome : Path.normalize home = shell.session.home) (htilde : env.SharesTilde word)
    (hup : Path.up ∉ (Spelling.ofText (Path.stem (env.expandTilde word))).parts) {d : Location}
    (hleads : shell.files.Leads (directoryOf shell.session.cwd (env.expandTilde word)) d)
    (hshort : Path.IsShort (shell.session.resolve (Path.stem word))) :
    shell.files.Leads (shell.session.resolve (Path.stem word)) d := by
  have hcwd := h.absoluteCwd
  have hparts := parts_directoryOf_expandTilde h henv hhome htilde hup
  have hnoup : Path.up ∉
      (Spelling.ofText (directoryOf shell.session.cwd (env.expandTilde word))).parts := by
    rw [parts_directoryOf (Path.ne_nil_of_isAbsolute hcwd)]
    intro hmem
    rcases Path.mem_parts_join (Path.ne_nil_of_isAbsolute hcwd) hmem with hmem | hmem
    · exact Path.up_not_mem_parts hcwd h.normalCwd hmem
    · exact hup hmem
  have habs : Path.isAbsolute
      (Path.fromDirectory shell.session.cwd shell.session.home (Path.stem word)) = true :=
    Path.isAbsolute_join hcwd
  rw [Session.resolve, Path.resolve_of_ne_tilde (Path.isStem_stem word).ne_tilde, Path.normalize]
    at hshort ⊢
  have hreduce := Spelling.reduce_eq_self (Spelling.anchor_ne_relative habs)
    fun t ht hmem => hnoup (hparts ▸ hmem ▸ ht)
  exact hleads.respelled (Spelling.reduce_isClean habs) (by rw [hreduce, hparts]) hshort

/-- **An entry is found under a directory's path and its name** exactly if the directory holds the
name and the whole path is not too long. -/
theorem hasEntry_join_iff {s : Spelling} (hs : s.IsClean) (n : Name) :
    files.hasEntry (Path.join s.toText n.toText) = true ↔
      Holds files s.toText n ∧ Path.IsShort (Path.join s.toText n.toText) := by
  constructor
  · intro hentry
    obtain ⟨p, t, hlocate⟩ := hasEntry_iff.1 hentry
    refine ⟨?_, ?_⟩
    · have hnames := names_of_taken hlocate
      rw [Spelling.join_toText hs n.isPart_toText] at hnames
      obtain ⟨d, m, rfl, hleads, hm⟩ := names_append hs n.isPart_toText hnames
      obtain rfl : m = n := Name.ext_bytes (Except.ok.inj (hm.symm.trans n.encode_toText))
      have hnode : files.node? (d ++ [m]) = some t := shows_of_locate hlocate
      exact ⟨d, hleads, by rw [hnode]; exact Option.some_ne_none t⟩
    · intro b hb
      obtain ⟨b', hb', -⟩ := locate_eq_ok_iff.1 hlocate
      cases hb.symm.trans hb'.encode
      exact hb'.length_le
  · rintro ⟨⟨d, hleads, hnode⟩, hlength⟩
    have hlocate := locate_join hleads (List.cons_ne_nil n []) hnode hlength (.inl rfl)
    obtain ⟨t, ht⟩ := Option.ne_none_iff_exists'.1 hnode
    rw [spotAt_of_node? ht] at hlocate
    exact hasEntry_iff.2 ⟨_, _, hlocate⟩

/-- The directory in which the tilde alone is completed is above the home directory. -/
theorem parts_directoryOf_home {n : Name} (habs : Path.isAbsolute home = true)
    (hn : n.toText = Path.base (Path.withoutTrailingSlashes home)) (cwd : Text) :
    (Spelling.ofText (directoryOf cwd (Path.withoutTrailingSlashes home))).parts =
        (Spelling.ofText (Path.stem (Path.withoutTrailingSlashes home))).parts ∧
      (Spelling.ofText home).parts =
        (Spelling.ofText (Path.stem (Path.withoutTrailingSlashes home))).parts ++ [n.toText] := by
  rw [← Path.parts_withoutTrailingSlashes home]
  have hslash : Path.isAbsolute (Path.withoutTrailingSlashes home) = true := by
    refine Environment.isAbsolute_withoutTrailingSlashes habs fun hnil => ?_
    rw [hnil] at hn
    exact n.isPart_toText.1 hn
  generalize Path.withoutTrailingSlashes home = p at hn hslash ⊢
  have hname := n.isPart_toText
  have hrelative := Path.isAbsolute_of_not_mem hname.2.2.2
  have hcut := Path.stem_append_base p
  rw [← hn] at hcut
  have hstem : Path.stem p ≠ [] := by
    intro hnil
    rw [hnil, List.nil_append] at hcut
    rw [← hcut, hrelative] at hslash
    cases hslash
  constructor
  · rw [directoryOf, if_neg (mt Path.directory_eq_nil_iff.1 hstem), Path.join, if_pos hslash,
      Path.parts_directory]
  · rw [← Spelling.parts_singleton hname.1 hname.2.1 hname.2.2.2,
      ← Spelling.parts_join_relative hstem hrelative, (Path.isStem_stem p).join_eq hrelative, hcut]

/-- **The tilde alone, completed by nothing, stands for the home directory**, as to a command. -/
theorem hasEntry_home (habs : Path.isAbsolute home = true) (henv : env.homeOf? [] = some home)
    (hup : Path.up ∉ (Spelling.ofText (Path.stem (env.expandTilde Path.tilde))).parts)
    (hc : c ∈ ofPath files cwd (env.expandTilde Path.tilde)) (hnothing : c.inserted = []) :
    files.hasEntry (Path.normalize home) = true ↔ Path.IsShort (Path.normalize home) := by
  obtain ⟨n, ⟨d, hleads, hnode⟩, hname, -, -⟩ := mem_ofPath_iff.1 hc
  rw [hnothing, List.append_nil] at hname
  have hexpanded : env.expandTilde Path.tilde = Path.withoutTrailingSlashes home := by
    refine (Environment.expandTilde_tilde henv).resolve_left fun hroot => ?_
    rw [hroot] at hname
    exact n.isPart_toText.1 hname
  rw [hexpanded] at hleads hname hup
  obtain ⟨hdirectory, hparts⟩ := parts_directoryOf_home habs hname cwd
  -- the home directory is the name in the directory above it
  have hnoup : ∀ t ∈ (Spelling.ofText home).parts, t ≠ Path.up := by
    rintro t ht rfl
    rw [hparts] at ht
    rcases List.mem_append.1 ht with ht | ht
    · exact hup ht
    · exact n.isPart_toText.2.2.1 (List.mem_singleton.1 ht).symm
  have hreduce := Spelling.reduce_eq_self (Spelling.anchor_ne_relative habs) hnoup
  have hclean := Spelling.reduce_isClean habs
  have hparent := hclean.parent
  have hsplit : (Spelling.ofText home).reduce =
      (Spelling.ofText home).reduce.parent.append [n.toText] := by
    rw [hreduce, Spelling.parent, Spelling.append, hparts, List.dropLast_concat, ← hparts]
  have hwhole : Path.normalize home =
      Path.join (Spelling.ofText home).reduce.parent.toText n.toText := by
    rw [Spelling.join_toText hparent n.isPart_toText, ← hsplit, Path.normalize]
  have hparentParts : (Spelling.ofText home).reduce.parent.parts =
      (Spelling.ofText (directoryOf cwd (Path.withoutTrailingSlashes home))).parts := by
    rw [hdirectory, hreduce, Spelling.parent, hparts, List.dropLast_concat]
  rw [hwhole, hasEntry_join_iff hparent]
  refine ⟨And.right, fun hshort => ⟨⟨d, ?_, hnode⟩, hshort⟩⟩
  exact hleads.respelled hparent hparentParts hshort.of_join

/-- A completed word other than the tilde stands for the completed name in what the word stands for
up to its last slash. -/
theorem resolve_completed (h : shell.Stands) {inserted : Text} {n : Name}
    (hname : n.toText = Path.base word ++ inserted) (hnot : word ++ inserted ≠ Path.tilde) :
    shell.session.resolve (word ++ inserted) =
      Path.join (shell.session.resolve (Path.stem word)) n.toText := by
  have hwhole : word ++ inserted = Path.stem word ++ n.toText := by
    rw [hname, ← List.append_assoc, Path.stem_append_base]
  rw [hwhole] at hnot ⊢
  exact Path.resolve_append_part h.absoluteCwd h.absoluteHome (Path.isStem_stem word)
    n.isPart_toText hnot

/-- **A completed word other than the tilde names an entry** exactly if the directory that the word
means to a command, up to its last slash, holds the completed name and the path is not too long. -/
theorem hasEntry_completed_iff (h : shell.Stands) {inserted : Text} {n : Name}
    (hname : n.toText = Path.base word ++ inserted) (hnot : word ++ inserted ≠ Path.tilde) :
    shell.files.hasEntry (shell.session.resolve (word ++ inserted)) = true ↔
      Holds shell.files (shell.session.resolve (Path.stem word)) n ∧
        Path.IsShort (shell.session.resolve (word ++ inserted)) := by
  obtain ⟨v, hv, hstem⟩ : ∃ v : Spelling, v.IsClean ∧
      shell.session.resolve (Path.stem word) = v.toText :=
    Path.exists_clean_resolve (Path.stem word) h.absoluteCwd h.absoluteHome
  rw [resolve_completed h hname hnot, hstem]
  exact hasEntry_join_iff hv n

variable {verbs : List Text} {line : Text}

/-- **What a completed word names.**  A completion stands for a name in the directory to which the
word leads.  If a command takes the tilde of the word as the completion does, and the completed word
is not the tilde itself, then it names an entry exactly if the directory that the command means
holds the name and the path is not too long; and so it does if the word has no step up, or leads
both to the same directory.  The tilde alone, completed by nothing, names the home directory. -/
theorem found_of_completion (h : shell.Stands) (henv : env.homeOf? [] = some home)
    (hhome : Path.normalize home = shell.session.home) (hword : isFirstWord line = false)
    (hc : c ∈ ofLine env verbs shell line) :
    let word := lastWord line
    let expanded := env.expandTilde word
    let directory := directoryOf shell.session.cwd expanded
    let stem := shell.session.resolve (Path.stem word)
    let path := shell.session.resolve (word ++ c.inserted)
    let GoesUp := Path.up ∈ (Spelling.ofText (Path.stem expanded)).parts
    (env.SharesTilde word → word ++ c.inserted ≠ Path.tilde →
      ∃ n : Name, n.toText = Path.base word ++ c.inserted ∧ Holds shell.files directory n ∧
        (shell.files.hasEntry path = true ↔ Holds shell.files stem n ∧ Path.IsShort path) ∧
        (¬ GoesUp ∨ (∃ d, shell.files.Leads directory d ∧ shell.files.Leads stem d) →
          (shell.files.hasEntry path = true ↔ Path.IsShort path))) ∧
    (word = Path.tilde → c.inserted = [] → ¬ GoesUp →
      (shell.files.hasEntry path = true ↔ Path.IsShort path)) := by
  intro word expanded directory stem path GoesUp
  have hmem : c ∈ ofPath shell.files shell.session.cwd expanded := by
    rw [ofLine, hword] at hc
    exact hc
  refine ⟨?shared, ?alone⟩
  case shared =>
    intro htilde hnot
    obtain ⟨n, ⟨d, hleads, hnode⟩, hname, -, -⟩ := mem_ofPath_iff.1 hmem
    rw [base_expandTilde henv htilde] at hname
    have hpath : path = Path.join stem n.toText := resolve_completed h hname hnot
    have hfound : shell.files.hasEntry path = true ↔ Holds shell.files stem n ∧ Path.IsShort path :=
      hasEntry_completed_iff h hname hnot
    refine ⟨n, hname, ⟨d, hleads, hnode⟩, hfound, ?_⟩
    intro hplace
    refine hfound.trans ⟨And.right, fun hshort => ⟨?_, hshort⟩⟩
    rcases hplace with hup | ⟨e, he, hstem⟩
    · have hstemShort : Path.IsShort stem := (hpath ▸ hshort).of_join
      exact ⟨d, leads_stem h henv hhome htilde hup hleads hstemShort, hnode⟩
    · rw [hleads.unique he] at hnode
      exact ⟨e, hstem, hnode⟩
  case alone =>
    intro halone hnothing hup
    have habs : Path.isAbsolute home = true := by
      rw [← Path.isAbsolute_normalize, hhome, h.absoluteHome]
    obtain ⟨u, hu, hnormal⟩ := Path.exists_clean_normalize habs
    have hpath : path = Path.normalize home := by
      show shell.session.resolve (word ++ c.inserted) = _
      rw [halone, hnothing, List.append_nil, hnormal]
      exact (congrArg Path.normalize (hhome.symm.trans hnormal)).trans (Path.normalize_toText hu)
    have hexpanded : expanded = env.expandTilde Path.tilde := congrArg env.expandTilde halone
    rw [hexpanded] at hmem
    rw [hpath]
    refine hasEntry_home habs henv ?_ hmem hnothing
    rw [← hexpanded]
    exact hup

/-- The link `l` leads back to the root, and `HOME` ends with a slash. -/
theorem found_of_completion_behind_link :
    let s : Name := ⟨[0x73], by decide⟩
    let l : Name := ⟨[0x6C], by decide⟩
    let files := (FileSystem.empty.create [s] (.directory []) Node.tidy_empty).create [s, l]
      (.link [0x2F]) (.link _)
    let env : Environment := ⟨[("HOME", "/s/")], "/", [], "/"⟩
    let shell : Shell := ⟨⟨"/", "/s"⟩, files⟩
    ofLine env [] shell "cat s/l/./" = [⟨"s", 0, "s/"⟩] ∧
      shell.files.hasEntry (shell.session.resolve "s/l/./s") = true ∧
      ofLine env [] shell "cat ~" = [⟨[], 0, "s/"⟩] ∧
      shell.files.hasEntry (shell.session.resolve Path.tilde) = true := by
  intro s l files env shell
  have hlink : ofLine env [] shell "cat s/l/./" = [⟨"s", 0, "s/"⟩] := by decide +kernel
  have htilde : ofLine env [] shell "cat ~" = [⟨[], 0, "s/"⟩] := by decide +kernel
  have hstands : shell.Stands :=
    ⟨by decide +kernel, by decide +kernel, by decide +kernel, by decide +kernel⟩
  have henv : env.homeOf? [] = some "/s/" := by decide +kernel
  have hhome : Path.normalize "/s/" = shell.session.home := by decide +kernel
  obtain ⟨n, -, -, -, hfound⟩ := (found_of_completion hstands henv hhome (by decide +kernel)
    (hlink ▸ List.mem_cons_self)).1 (by decide +kernel) (by decide +kernel)
  have halone := (found_of_completion hstands henv hhome (by decide +kernel)
    (htilde ▸ List.mem_cons_self)).2 (by decide +kernel) rfl (by decide +kernel)
  have hbytes : (shell.session.resolve "s/l/./s").encode =
      .ok [0x2F, 0x73, 0x2F, 0x6C, 0x2F, 0x73] := by decide +kernel
  have hhomeBytes : (shell.session.resolve Path.tilde).encode = .ok [0x2F, 0x73] := by
    decide +kernel
  refine ⟨hlink, (hfound (.inl (by decide +kernel))).2 ?_, htilde, halone.2 ?_⟩
  · intro b hb
    cases hbytes.symm.trans hb
    decide
  · intro b hb
    cases hhomeBytes.symm.trans hb
    decide

/-- **Behind a link a step up means two directories.**  The link `l` leads back to the root, so the
name `s` is offered there; but for a command the step up cancels the link. -/
theorem found_of_completion_up_behind_link :
    let s : Name := ⟨[0x73], by decide⟩
    let l : Name := ⟨[0x6C], by decide⟩
    let files := (FileSystem.empty.create [s] (.directory []) Node.tidy_empty).create [s, l]
      (.link [0x2F]) (.link _)
    let env : Environment := ⟨[("HOME", "/s")], "/", [], "/"⟩
    let shell : Shell := ⟨⟨"/", "/s"⟩, files⟩
    shell.Stands ∧ env.homeOf? [] = some shell.session.home ∧
      isFirstWord "cat s/l/../" = false ∧ lastWord "cat s/l/../" = "s/l/../" ∧
      ofLine env [] shell "cat s/l/../" = [⟨"s", 0, "s/"⟩] ∧
      shell.files.hasEntry (shell.session.resolve "s/l/../s") = false := by
  refine ⟨⟨?_, ?_, ?_, ?_⟩, ?_, ?_, ?_, ?_, ?_⟩ <;> decide +kernel

end Completion

end FileShell
