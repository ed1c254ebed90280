import FileShell.Proofs.FileSystem.Writing
import FileShell.Proofs.Json.Written
import FileShell.Proofs.Loading

/-!
# Settings that were saved are loaded again

Settings are saved as a document in visible ASCII, so that it can be written whatever their texts
hold, and read as UTF-8 without loss.  The file is the one to which the path leads afterwards,
through links and through directories that had to be made, because writing it changes nothing on the
way.

* `Settings.ofMembers_document`: the members of the document are the settings.
* `Settings.bytesAt?_of_save`: the path leads to the document once it is saved.
* `Settings.load_of_save`: **what is saved is loaded again**, with the level in capitals.
-/

namespace FileShell

/-! ## Visible documents -/

theorem Text.decodeStrict?_of_surrogateFree {t : Text} {b : Bytes} (ht : t.SurrogateFree)
    (hb : t.encode = .ok b) : decodeStrict? b = some t := by
  obtain ⟨cs, rfl⟩ := ht.exists_chars
  rw [encode_map_scalar] at hb
  cases hb
  rw [decodeStrict?, pieces_flatMap_utf8]
  induction cs with
  | nil => rfl
  | cons c rest ih =>
    have hrest := ih fun s hs => ht s (List.mem_cons_of_mem _ hs)
    rw [List.map_cons, List.mapM_cons, hrest]
    rfl

namespace Json

theorem surrogateFree_unitEscape (n : Nat) : Text.SurrogateFree (unitEscape n) := by
  intro s hs
  simp only [unitEscape, hexDigit, List.mem_cons, List.not_mem_nil, or_false] at hs
  rcases hs with rfl | rfl | rfl | rfl | rfl | rfl <;> exact ⟨_, rfl⟩

theorem surrogateFree_escaped (s : Symbol) : Text.SurrogateFree (escaped s) := by
  unfold escaped
  dsimp only
  split
  · next e _ => exact (Text.all_nil.cons ⟨e.2, rfl⟩).cons ⟨'\\', rfl⟩
  split
  · next hvisible =>
    cases s with
    | scalar c => exact Text.all_nil.cons ⟨c, rfl⟩
    | surrogate k =>
      have hmax := hvisible.2
      simp only [Symbol.codePoint] at hmax
      omega
  split
  · exact surrogateFree_unitEscape _
  · exact Text.All.append (surrogateFree_unitEscape _) (surrogateFree_unitEscape _)

/-- A text between quotes holds no surrogate, whatever the text holds. -/
theorem surrogateFree_quoted (t : Text) : Text.SurrogateFree (quoted t) := by
  refine Text.All.cons ⟨'"', rfl⟩ (Text.All.append ?_ (Text.all_nil.cons ⟨'"', rfl⟩))
  exact Text.all_flatMap fun s _ => surrogateFree_escaped s

end Json

namespace Settings

variable {s : Settings} {bytes : Bytes}

/-! ## The document -/

/-- The texts of the settings can be written: they hold characters, and symbols that keep bytes. -/
structure IsWritable (s : Settings) : Prop where
  logLevel : s.logLevel.Writable
  promptColor : s.promptColor.Writable
  pathColor : s.pathColor.Writable

/-- The members of the document of the settings, with the values that are meant. -/
def entries (s : Settings) : List Json.WrittenMember :=
  [⟨historyKey, if s.historyEnabled then "true" else "false", .bool s.historyEnabled⟩,
    ⟨logLevelKey, Json.quoted s.logLevel, .string s.logLevel⟩,
    ⟨promptColorKey, Json.quoted s.promptColor, .string s.promptColor⟩,
    ⟨pathColorKey, Json.quoted s.pathColor, .string s.pathColor⟩]

theorem document_eq (s : Settings) :
    s.document =
      "\x7b" ++ Text.joined "," (s.entries.map Json.WrittenMember.line) ++ "\n\x7d" := rfl

theorem reads_entries (hs : s.IsWritable) : ∀ m ∈ s.entries, m.Reads := by
  have hkey : ∀ k : String, Text.Writable k := fun k => Text.writable_ofString k
  have hhistory : Json.ReadsAs (if s.historyEnabled then "true" else "false")
      (.bool s.historyEnabled) := by
    cases s.historyEnabled
    · exact Json.readsAs_false
    · exact Json.readsAs_true
  intro m hm
  simp only [entries, List.mem_cons, List.not_mem_nil, or_false] at hm
  rcases hm with rfl | rfl | rfl | rfl
  · exact ⟨hkey _, hhistory⟩
  · exact ⟨hkey _, Json.readsAs_quoted hs.logLevel⟩
  · exact ⟨hkey _, Json.readsAs_quoted hs.promptColor⟩
  · exact ⟨hkey _, Json.readsAs_quoted hs.pathColor⟩

theorem ofMembers_entries (s : Settings) :
    ofMembers (Json.collect (s.entries.map Json.WrittenMember.meant)) = s := rfl

theorem surrogateFree_text {m : Json.WrittenMember} (hm : m ∈ s.entries) :
    m.text.SurrogateFree := by
  simp only [entries, List.mem_cons, List.not_mem_nil, or_false] at hm
  rcases hm with rfl | rfl | rfl | rfl
  · dsimp only
    split <;> exact Text.surrogateFree_ofString _
  all_goals exact Json.surrogateFree_quoted _

theorem surrogateFree_document (s : Settings) : s.document.SurrogateFree := by
  have hliteral := Text.surrogateFree_ofString
  rw [document_eq]
  refine Text.All.append (Text.All.append (hliteral _) ?_) (hliteral _)
  refine Text.all_joinWith (hliteral _) fun line hline => ?_
  obtain ⟨m, hm, rfl⟩ := List.mem_map.1 hline
  have hkey := Text.All.append (hliteral "\n  ") (Json.surrogateFree_quoted m.key)
  exact (hkey.append (hliteral ": ")).append (surrogateFree_text hm)

/-- **The members of the document are the settings.** -/
theorem ofMembers_document (hs : s.IsWritable) (hbytes : s.document.encode = .ok bytes)
    {levels : Nat} (hlevels : 0 < levels) :
    ∃ members, membersOf levels bytes = .ok members ∧ ofMembers members = s := by
  have hheld : heldBy levels bytes =
      .ok (.object (Json.collect (s.entries.map Json.WrittenMember.meant))) := by
    rw [heldBy, Text.decodeStrict?_of_surrogateFree (surrogateFree_document s) hbytes, document_eq]
    exact Json.parse_written (List.cons_ne_nil _ _) (reads_entries hs) hlevels
  refine ⟨_, ?_, ofMembers_entries s⟩
  rw [membersOf_eq, hheld]

/-! ## The file -/

open Effect FileSystem

variable {fs later : FileSystem} {env : Environment} {path : Option Text} {written : Text}

/-- The path leads to what was written to it. -/
theorem bytesAt?_of_writeTo {target t : Text} (h : writeTo target t fs = .ok () later) :
    ∃ b, t.encode = .ok b ∧ bytesAt? later target = some b := by
  rw [writeTo] at h
  obtain ⟨p, mid, hopen, hwrite⟩ := bind_eq_ok.1 h
  obtain ⟨hopens, hempty⟩ := Disk.writes_of_openForWriting hopen
  rw [if_pos rfl] at hempty
  cases hencode : t.encode with
  | error e =>
    rw [hencode] at hwrite
    cases hwrite
  | ok b =>
    rw [hencode] at hwrite
    obtain ⟨last, happend, hwrites⟩ := Disk.append_writes hempty.file b
    cases hwrite.symm.trans happend
    rw [List.nil_append] at hwrites
    refine ⟨b, rfl, ?_⟩
    rw [bytesAt?, hopens.found?_of_writes (hempty.trans hwrites)]

/-- **The path leads to the document once it is saved.** -/
theorem bytesAt?_of_save (h : save env path s fs = .ok written later) :
    ∃ file b, fileOf env path = .ok file ∧ s.document.encode = .ok b ∧
      bytesAt? later (env.place file) = some b := by
  rw [save] at h
  cases hfile : fileOf env path with
  | error e =>
    rw [hfile] at h
    cases h
  | ok file =>
    rw [hfile] at h
    obtain ⟨-, mid, -, hrest⟩ := bind_eq_ok.1 h
    obtain ⟨⟨⟩, last, hwrite, hend⟩ := bind_eq_ok.1 hrest
    cases hend
    obtain ⟨b, hb, hbytes⟩ := bytesAt?_of_writeTo hwrite
    exact ⟨file, b, rfl, hb, hbytes⟩

/-! ## Saving and loading -/

/-- The variables that override the settings. -/
def overriding : List Text :=
  [historyVariable, logLevelVariable, promptColorVariable, pathColorVariable]

theorem override_of_unset {env : Environment} (h : ∀ v ∈ overriding, env.valueOf? v = none)
    (s : Settings) : s.override env = s := by
  simp only [overriding, List.forall_mem_cons] at h
  obtain ⟨hhistory, hlevel, hprompt, hpath, -⟩ := h
  rw [override, hhistory, hlevel, hprompt, hpath]
  rfl

/-- **What is saved is loaded again.**  If saving settings succeeds, then loading from the same
path, in an environment that overrides none of them, gives the same settings with the level in
capitals. -/
theorem load_of_save {env' : Environment} (hs : s.IsWritable)
    (hdirectory : env'.directory = env.directory) (hfile : fileOf env' path = fileOf env path)
    (hunset : ∀ v ∈ overriding, env'.valueOf? v = none)
    (h : save env path s fs = .ok written later) :
    load env' later path = .ok { s with logLevel := s.logLevel.upper } := by
  obtain ⟨file, b, hsaved, hb, hbytes⟩ := bytesAt?_of_save h
  obtain ⟨members, hmembers, hsettings⟩ :=
    ofMembers_document hs hb (later.host.nesting_pos .reading)
  have hplace : env'.place file = env.place file := by
    rw [Environment.place, Environment.place, hdirectory]
  rw [load_of_bytes (hfile.trans hsaved) (by rw [hplace]; exact hbytes), hmembers]
  show Except.ok (given env' members) = _
  rw [given, hsettings, override_of_unset hunset]
  rfl

/-- The path goes through the link `l` into a directory that has to be made, and the texts hold a
quote, a backslash, a control symbol, a symbol beyond `U+FFFF` and kept bytes in a row. -/
theorem load_of_save_through_link :
    let d : Name := ⟨[0x64], by decide⟩
    let l : Name := ⟨[0x6C], by decide⟩
    let files := (FileSystem.empty.create [d] (.directory []) Node.tidy_empty).create [l]
      (.link [0x64]) (.link _)
    let env : Environment := ⟨[("PLUTOSH_HISTORY", "yes")], "/", [], "/"⟩
    let env' : Environment := ⟨[], "/", [], "/d"⟩
    let s : Settings := ⟨false, "straße", "\"\\u0041\n\u007F😀",
      [Symbol.ofByte 0xED, Symbol.ofByte 0xA0, Symbol.ofByte 0x80]⟩
    let path := some (Text.ofString "l/a/c.json")
    ∃ written later, save env path s files = .ok written later ∧
      load env' later path = .ok ⟨false, "STRASSE", s.promptColor, s.pathColor⟩ := by
  intro d l files env env' s path
  have hvalue : value? (save env path s) files = some (Text.ofString "l/a/c.json") := by
    decide +kernel
  obtain ⟨later, hsave⟩ := value?_eq_some_iff.1 hvalue
  have hupper : s.logLevel.upper = "STRASSE" := by decide +kernel
  have hwritable : s.IsWritable := ⟨by decide, by decide, by decide⟩
  have hload : load env' later path = .ok { s with logLevel := s.logLevel.upper } :=
    load_of_save hwritable rfl rfl (by decide) hsave
  rw [hupper] at hload
  exact ⟨_, later, hsave, hload⟩

end Settings

end FileShell
