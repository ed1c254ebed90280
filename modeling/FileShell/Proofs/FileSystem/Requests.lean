import FileShell.FileSystem.Transfer
import FileShell.Proofs.Effects
import FileShell.Proofs.FileSystem.Named

/-!
# What each request does

One lemma for each request to the file system: when it is granted, and what has changed then.  A
request that is turned down changes nothing.

* `makeDirectory_eq_ok`, `openForWriting_eq_ok`, `rename_eq_ok` and so on: the granted requests.
* `makeDirectory_alreadyThere`: when a directory cannot be made because its name is taken.
* `locate_ne_ok_of_rename_eq_error`: a file that cannot be renamed was to go where no path leads.
* `keeps_locate_bind`, `keeps_makeDirectories`: what a request keeps, if every change it may end in
  keeps it.
-/

namespace FileShell

open Effect

namespace Disk

variable {aim : Aim} {path source target : Text} {fs later : FileSystem}

/-! ## Looking paths up -/

theorem locate_eq_ok {spot : Spot} :
    locate aim path fs = .ok spot later ↔ fs.locate aim path = .ok spot ∧ later = fs := by
  rw [locate, bind_of_ok (rfl : (get : Disk FileSystem) fs = .ok fs fs)]
  cases fs.locate aim path with
  | error e => exact ⟨by rintro ⟨⟩, by rintro ⟨⟨⟩, -⟩⟩
  | ok found =>
    constructor
    · rintro ⟨⟩
      exact ⟨rfl, rfl⟩
    · rintro ⟨⟨⟩, rfl⟩
      rfl

theorem locate_eq_error {e : Failure} :
    locate aim path fs = .error e later ↔ fs.locate aim path = .error e ∧ later = fs := by
  rw [locate, bind_of_ok (rfl : (get : Disk FileSystem) fs = .ok fs fs)]
  cases fs.locate aim path with
  | ok found => exact ⟨by rintro ⟨⟩, by rintro ⟨⟨⟩, -⟩⟩
  | error f =>
    constructor
    · rintro ⟨⟩
      exact ⟨rfl, rfl⟩
    · rintro ⟨⟨⟩, rfl⟩
      rfl

theorem locateAmong_eq_ok {paths : List Text} {spot : Spot} :
    locateAmong paths path fs = .ok spot later ↔
      fs.locate .entry path = .ok spot ∧ later = fs := by
  rw [locateAmong, bind_of_ok (rfl : (get : Disk FileSystem) fs = .ok fs fs)]
  cases fs.locate .entry path with
  | ok found =>
    constructor
    · rintro ⟨⟩
      exact ⟨rfl, rfl⟩
    · rintro ⟨⟨⟩, rfl⟩
      rfl
  | error e => cases e <;> exact ⟨by rintro ⟨⟩, by rintro ⟨⟨⟩, -⟩⟩

theorem locateAmong_eq_error {paths : List Text} {e : Failure}
    (h : locateAmong paths path fs = .error e later) : later = fs := by
  rw [locateAmong, bind_of_ok (rfl : (get : Disk FileSystem) fs = .ok fs fs)] at h
  cases hlocate : fs.locate .entry path with
  | ok found =>
    rw [hlocate] at h
    cases h
  | error f =>
    rw [hlocate] at h
    cases f <;> (cases h; rfl)

theorem ask_eq {α : Type} (question : FileSystem → α) :
    ask question fs = .ok (question fs) fs := rfl

/-- What follows a look-up starts from what was found. -/
theorem bind_locate_eq_ok {α : Type} {f : Spot → Disk α} {a : α} :
    (locate aim path >>= f) fs = .ok a later ↔
      ∃ spot, fs.locate aim path = .ok spot ∧ f spot fs = .ok a later := by
  rw [bind_eq_ok]
  constructor
  · rintro ⟨spot, t, hlocate, hf⟩
    obtain ⟨hspot, rfl⟩ := locate_eq_ok.1 hlocate
    exact ⟨spot, hspot, hf⟩
  · rintro ⟨spot, hspot, hf⟩
    exact ⟨spot, fs, locate_eq_ok.2 ⟨hspot, rfl⟩, hf⟩

theorem bind_locateAmong_eq_ok {α : Type} {paths : List Text} {f : Spot → Disk α} {a : α} :
    (locateAmong paths path >>= f) fs = .ok a later ↔
      ∃ spot, fs.locate .entry path = .ok spot ∧ f spot fs = .ok a later := by
  rw [bind_eq_ok]
  constructor
  · rintro ⟨spot, t, hlocate, hf⟩
    obtain ⟨hspot, rfl⟩ := locateAmong_eq_ok.1 hlocate
    exact ⟨spot, hspot, hf⟩
  · rintro ⟨spot, hspot, hf⟩
    exact ⟨spot, fs, locateAmong_eq_ok.2 ⟨hspot, rfl⟩, hf⟩

theorem bind_ask_eq_ok {α β : Type} {question : FileSystem → α} {f : α → Disk β} {b : β} :
    (ask question >>= f) fs = .ok b later ↔ f (question fs) fs = .ok b later := by
  rw [bind_of_ok (ask_eq question)]

/-! ## Granted requests -/

theorem makeDirectory_eq_ok :
    makeDirectory path fs = .ok () later ↔
      ∃ p slash, fs.locate .entry path = .ok (.vacant p slash) ∧
        later = fs.create p (.directory []) Node.tidy_empty := by
  rw [makeDirectory, bind_locate_eq_ok]
  constructor
  · rintro ⟨spot, hspot, h⟩
    cases spot with
    | taken p t => cases h
    | vacant p slash =>
      cases h
      exact ⟨p, slash, hspot, rfl⟩
  · rintro ⟨p, slash, hspot, rfl⟩
    exact ⟨.vacant p slash, hspot, rfl⟩

/-- A directory that cannot be made because its name is taken: nothing changes. -/
theorem makeDirectory_alreadyThere {paths : List Text}
    (h : makeDirectory path fs = .error (.fault .alreadyThere paths) later) :
    later = fs ∧ ∃ p t, fs.locate .entry path = .ok (.taken p t) := by
  rw [makeDirectory, bind_eq_error] at h
  rcases h with h | ⟨spot, t, hspot, h⟩
  · obtain ⟨he, -⟩ := locate_eq_error.1 h
    rcases FileSystem.locate_error_cases he with ⟨u, hu⟩ | hzero | ⟨f, hf, hfault⟩
    · cases hu
    · cases hzero
    · cases hfault
      exact absurd rfl hf
  · obtain ⟨hspot, rfl⟩ := locate_eq_ok.1 hspot
    cases spot with
    | taken p t =>
      cases h
      exact ⟨rfl, p, t, hspot⟩
    | vacant p slash => cases h

theorem makeLink_eq_ok {bytes : Bytes} :
    makeLink bytes path fs = .ok () later ↔
      ∃ p, fs.locate .entry path = .ok (.vacant p false) ∧
        later = fs.create p (.link bytes) (.link bytes) := by
  rw [makeLink, bind_locateAmong_eq_ok]
  constructor
  · rintro ⟨spot, hspot, h⟩
    cases spot with
    | taken p u => cases h
    | vacant p slash =>
      cases slash with
      | true => cases h
      | false =>
        cases h
        exact ⟨p, hspot, rfl⟩
  · rintro ⟨p, hspot, rfl⟩
    exact ⟨.vacant p false, hspot, rfl⟩

theorem readLink_eq_ok {bytes : Bytes} :
    readLink path fs = .ok bytes later ↔
      (∃ p, fs.locate .entry path = .ok (.taken p (.link bytes))) ∧ later = fs := by
  rw [readLink, bind_locate_eq_ok]
  constructor
  · rintro ⟨spot, hspot, h⟩
    cases spot with
    | taken p t =>
      cases t with
      | link target =>
        cases h
        exact ⟨⟨p, hspot⟩, rfl⟩
      | file content => cases h
      | directory es => cases h
    | vacant p slash => cases h
  · rintro ⟨⟨p, hspot⟩, rfl⟩
    exact ⟨_, hspot, rfl⟩

theorem listDirectory_eq_ok {es : Entries} :
    listDirectory path fs = .ok es later ↔
      (∃ p, fs.Leads path p ∧ es = fs.enumerated p) ∧ later = fs := by
  rw [listDirectory, bind_locate_eq_ok]
  constructor
  · rintro ⟨spot, hspot, h⟩
    cases spot with
    | taken p t =>
      cases t with
      | directory ds =>
        have hleads := FileSystem.leads_iff_exists.2 ⟨ds, FileSystem.found?_eq_some_iff.2 hspot⟩
        have hds := hspot.symm.trans (FileSystem.found?_eq_some_iff.1 hleads)
        cases h
        cases hds
        exact ⟨⟨p, hleads, rfl⟩, rfl⟩
      | file content => cases h
      | link target => cases h
    | vacant p slash => cases h
  · rintro ⟨⟨p, hleads, rfl⟩, rfl⟩
    exact ⟨_, FileSystem.found?_eq_some_iff.1 hleads, rfl⟩

theorem readFile_eq_ok {bytes : Bytes} :
    readFile path fs = .ok bytes later ↔
      (∃ p, fs.locate .target path = .ok (.taken p (.file bytes))) ∧ later = fs := by
  rw [readFile, bind_locate_eq_ok]
  constructor
  · rintro ⟨spot, hspot, h⟩
    cases spot with
    | taken p t =>
      cases t with
      | file content =>
        cases h
        exact ⟨⟨p, hspot⟩, rfl⟩
      | directory es => cases h
      | link target => cases h
    | vacant p slash => cases h
  · rintro ⟨⟨p, hspot⟩, rfl⟩
    exact ⟨_, hspot, rfl⟩

theorem openForWriting_eq_ok {emptied : Bool} {p : Location} :
    openForWriting path emptied fs = .ok p later ↔
      (∃ old, fs.locate .creation path = .ok (.taken p (.file old)) ∧
        later = if emptied = true then fs.write p [] else fs) ∨
      ∃ slash, fs.locate .creation path = .ok (.vacant p slash) ∧
        later = fs.create p (.file []) (.file []) := by
  rw [openForWriting, bind_locate_eq_ok]
  constructor
  · rintro ⟨spot, hspot, h⟩
    cases spot with
    | taken q t =>
      cases t with
      | file content =>
        left
        cases emptied with
        | true =>
          cases h
          exact ⟨content, hspot, rfl⟩
        | false =>
          cases h
          exact ⟨content, hspot, rfl⟩
      | directory es => cases h
      | link target => cases h
    | vacant q slash =>
      cases h
      exact .inr ⟨slash, hspot, rfl⟩
  · rintro (⟨old, hspot, rfl⟩ | ⟨slash, hspot, rfl⟩)
    · refine ⟨_, hspot, ?_⟩
      cases emptied <;> rfl
    · exact ⟨_, hspot, rfl⟩

/-- Bytes are put at the end of a file. -/
theorem append_of_file {p : Location} {old bytes : Bytes} (h : fs.node? p = some (.file old)) :
    append p bytes fs = .ok () (if bytes = [] then fs else fs.write p (old ++ bytes)) := by
  rw [append]
  by_cases hb : bytes = []
  · simp only [hb, ne_eq, not_true_eq_false, if_false, if_true]
    rfl
  · simp only [ne_eq, hb, not_false_eq_true, if_true, if_false]
    rw [bind_of_ok (rfl : (get : Disk FileSystem) fs = .ok fs fs), h]
    rfl

theorem removeDirectory_eq_ok :
    removeDirectory path fs = .ok () later ↔
      ∃ p, fs.locate .entry path = .ok (.taken p (.directory [])) ∧ p ≠ [] ∧
        later = fs.discard p := by
  rw [removeDirectory, bind_locate_eq_ok]
  constructor
  · rintro ⟨spot, hspot, h⟩
    cases spot with
    | taken p t =>
      cases p with
      | nil => cases h
      | cons n more =>
        cases t with
        | directory es =>
          simp only at h
          split at h
          · next hes =>
            cases h
            cases hes
            exact ⟨n :: more, hspot, List.cons_ne_nil n more, rfl⟩
          · cases h
        | file content => cases h
        | link target => cases h
    | vacant p slash => cases h
  · rintro ⟨p, hspot, hp, rfl⟩
    refine ⟨_, hspot, ?_⟩
    cases p with
    | nil => exact absurd rfl hp
    | cons n more => rfl

/-- The removal of a directory that is turned down changes nothing. -/
theorem removeDirectory_eq_error {e : Failure} (h : removeDirectory path fs = .error e later) :
    later = fs := by
  rcases bind_eq_error.1 h with h | ⟨spot, mid, hspot, h⟩
  · exact (locate_eq_error.1 h).2
  obtain ⟨-, rfl⟩ := locate_eq_ok.1 hspot
  cases spot with
  | taken p t =>
    cases p with
    | nil => cases h; rfl
    | cons n more =>
      cases t with
      | directory es =>
        simp only at h
        split at h
        · cases h
        · cases h; rfl
      | file content => cases h; rfl
      | link target => cases h; rfl
  | vacant p slash => cases h; rfl

theorem unlink_eq_ok :
    unlink path fs = .ok () later ↔
      ∃ p t, fs.locate .entry path = .ok (.taken p t) ∧ t.isDirectory = false ∧
        later = fs.discard p := by
  rw [unlink, bind_locate_eq_ok]
  constructor
  · rintro ⟨spot, hspot, h⟩
    cases spot with
    | taken p t =>
      cases t with
      | directory es => cases h
      | file content =>
        cases h
        exact ⟨p, _, hspot, rfl, rfl⟩
      | link target =>
        cases h
        exact ⟨p, _, hspot, rfl, rfl⟩
    | vacant p slash => cases h
  · rintro ⟨p, t, hspot, hfile, rfl⟩
    refine ⟨_, hspot, ?_⟩
    cases t with
    | directory es => cases hfile
    | file content => rfl
    | link target => rfl

/-- A removal that is turned down changes nothing. -/
theorem unlink_eq_error {e : Failure} (h : unlink path fs = .error e later) : later = fs := by
  rcases bind_eq_error.1 h with h | ⟨spot, mid, hspot, h⟩
  · exact (locate_eq_error.1 h).2
  obtain ⟨-, rfl⟩ := locate_eq_ok.1 hspot
  cases spot with
  | taken p t =>
    cases t with
    | directory es => cases h; rfl
    | file bytes => cases h
    | link bytes => cases h
  | vacant p slash => cases h; rfl

/-- A removal takes away one file or link, or it changes nothing. -/
theorem stateAfter_unlink (path : Text) (fs : FileSystem) :
    stateAfter (unlink path) fs = fs ∨ ∃ p t, fs.node? p = some t ∧ t.isDirectory = false ∧
      stateAfter (unlink path) fs = fs.discard p := by
  cases h : unlink path fs with
  | ok done later =>
    obtain ⟨p, t, htaken, hfile, rfl⟩ := unlink_eq_ok.1 h
    exact .inr ⟨p, t, FileSystem.shows_of_locate htaken, hfile, stateAfter_of_ok h⟩
  | error e later => exact .inl (by rw [stateAfter_of_error h, unlink_eq_error h])

/-- If the directory above is there, the request for the directory itself follows at once. -/
theorem makeDirectories_of_isPresent
    (habove : fs.isPresent (Spelling.ofText path).parent.toText = true) :
    makeDirectories path fs = makeDirectory (Spelling.ofText path).toText fs := by
  rw [makeDirectories]
  rw [Spelling.parent] at habove
  generalize Spelling.ofText path = s at habove
  obtain ⟨anchor, parts⟩ := s
  cases hparts : parts.reverse with
  | nil =>
    rw [List.reverse_eq_nil_iff.1 hparts]
    rfl
  | cons part above =>
    rw [List.reverse_eq_cons_iff] at hparts
    rw [hparts, List.dropLast_concat] at habove
    have hpresent : ask (·.isPresent (Spelling.toText ⟨anchor, above.reverse⟩)) fs =
      .ok true fs := by rw [ask_eq, habove]
    rw [makeDirectoriesUp, bind_of_ok hpresent, hparts, List.reverse_cons]
    rfl

/-! ## Renaming -/

/-- What a renaming may replace: a directory an empty directory, and anything else no directory. -/
def Replaces (t v : Node) : Prop :=
  (t.isDirectory = true → v = .directory []) ∧ (t.isDirectory = false → v.isDirectory = false)

/-- What has to hold of the second place of a renaming: it is the first one, or it can take it. -/
def TakesFrom (fs : FileSystem) (p : Location) (t : Node) (q : Location) : Prop :=
  ¬ p <+: q ∧ (fs.bare? q = none ∨ ¬ q <+: p ∧ ∃ v, fs.node? q = some v ∧ Replaces t v)

variable {p q : Location} {t v : Node} {slash : Bool}

/-- Only a directory replaces a directory. -/
theorem TakesFrom.isDirectory (h : TakesFrom fs p t q) (hq : fs.IsDirectoryAt q) :
    t.isDirectory = true := by
  rcases h.2 with hvacant | ⟨-, v, hv, -, hnodir⟩
  · rw [FileSystem.IsDirectoryAt, hvacant] at hq
    cases hq
  · cases htdir : t.isDirectory with
    | true => rfl
    | false =>
      have hvfile := hnodir htdir
      rw [FileSystem.isDirectoryAt_iff.1 hq] at hv
      cases hv
      cases hvfile

/-- Nothing stands below what is replaced. -/
theorem TakesFrom.eq_of_taken (h : TakesFrom fs p t q) {r : Location} (hqr : q <+: r)
    (hr : fs.bare? r ≠ none) : r = q := by
  obtain ⟨x, rfl⟩ := hqr
  by_cases hx : x = []
  · rw [hx, List.append_nil]
  have hqdir := FileSystem.isDirectoryAt_of_below hx hr
  have htdir := h.isDirectory hqdir
  rcases h.2 with hvacant | ⟨-, v, hv, hempty, -⟩
  · rw [FileSystem.IsDirectoryAt, hvacant] at hqdir
    cases hqdir
  · rw [FileSystem.bare?, FileSystem.node?_append, hv, hempty htdir] at hr
    cases x with
    | nil => exact absurd rfl hx
    | cons n x => exact absurd rfl hr

/-- Nothing is renamed from a place where nothing is. -/
theorem rename_vacant_ne_ok {a : Spot} (hp : fs.locate .entry source = .ok (.vacant p slash))
    (hq : fs.locate .entry target = .ok a) : rename source target fs ≠ .ok () later := by
  rw [rename, bind_of_ok (locateAmong_eq_ok.2 ⟨hp, rfl⟩),
    bind_of_ok (locateAmong_eq_ok.2 ⟨hq, rfl⟩)]
  cases a with
  | vacant q last => rintro ⟨⟩
  | taken q v => cases q <;> rintro ⟨⟩

/-- When a renaming to a vacant place is granted. -/
theorem rename_to_vacant (hp : fs.locate .entry source = .ok (.taken p t))
    (hq : fs.locate .entry target = .ok (.vacant q slash)) :
    rename source target fs = .ok () later ↔
      p ≠ [] ∧ ¬ (slash = true ∧ t.isDirectory = false) ∧ ¬ p <+: q ∧
        later = fs.relocate p q := by
  rw [rename, bind_of_ok (locateAmong_eq_ok.2 ⟨hp, rfl⟩),
    bind_of_ok (locateAmong_eq_ok.2 ⟨hq, rfl⟩)]
  cases p with
  | nil => exact ⟨by rintro ⟨⟩, fun h => absurd rfl h.1⟩
  | cons n p =>
    simp only [List.isPrefixOf_iff_prefix]
    by_cases hslash : slash = true ∧ t.isDirectory = false
    · rw [if_pos hslash]
      exact ⟨by rintro ⟨⟩, fun h => absurd hslash h.2.1⟩
    rw [if_neg hslash]
    by_cases hpre : n :: p <+: q
    · rw [if_pos hpre]
      exact ⟨by rintro ⟨⟩, fun h => absurd hpre h.2.2.1⟩
    rw [if_neg hpre]
    constructor
    · rintro ⟨⟩
      exact ⟨List.cons_ne_nil n p, hslash, hpre, rfl⟩
    · rintro ⟨-, -, -, rfl⟩
      rfl

theorem replacing_eq_ok {change : FileSystem → FileSystem} {paths : List Text} :
    (if t.isDirectory then
        if v.isDirectory = false then fail .notADirectory paths
        else if v.entries = [] then modify change
        else fail .notEmpty paths
      else if v.isDirectory then fail .isADirectory paths
      else modify change : Disk Unit) fs = .ok () later ↔ Replaces t v ∧ later = change fs := by
  have hmodify : (modify change : Disk Unit) fs = .ok () later ↔ later = change fs :=
    ⟨by rintro ⟨⟩; rfl, by rintro rfl; rfl⟩
  have hfail : ∀ f, (fail f paths : Disk Unit) fs ≠ .ok () later := by rintro f ⟨⟩
  rw [Replaces, Node.eq_empty_iff]
  cases t.isDirectory with
  | true =>
    cases v.isDirectory with
    | true => by_cases hes : v.entries = [] <;> simp [hes, hmodify, hfail]
    | false => simp [hfail]
  | false => cases v.isDirectory <;> simp [hmodify, hfail]

/-- When a renaming to a place that is taken is granted. -/
theorem rename_to_taken (hp : fs.locate .entry source = .ok (.taken p t))
    (hq : fs.locate .entry target = .ok (.taken q v)) :
    rename source target fs = .ok () later ↔
      p ≠ [] ∧ q ≠ [] ∧ (p = q ∧ later = fs ∨
        ¬ p <+: q ∧ ¬ q <+: p ∧ Replaces t v ∧ later = fs.relocate p q) := by
  rw [rename, bind_of_ok (locateAmong_eq_ok.2 ⟨hp, rfl⟩),
    bind_of_ok (locateAmong_eq_ok.2 ⟨hq, rfl⟩)]
  cases p with
  | nil => exact ⟨by rintro ⟨⟩, fun h => absurd rfl h.1⟩
  | cons n p =>
  cases q with
  | nil => exact ⟨by rintro ⟨⟩, fun h => absurd rfl h.2.1⟩
  | cons m q =>
    simp only [List.isPrefixOf_iff_prefix]
    by_cases heq : n :: p = m :: q
    · rw [if_pos heq]
      constructor
      · rintro ⟨⟩
        exact ⟨List.cons_ne_nil n p, List.cons_ne_nil m q, .inl ⟨heq, rfl⟩⟩
      · rintro ⟨-, -, ⟨-, rfl⟩ | ⟨hpre, -⟩⟩
        · rfl
        · exact absurd (heq ▸ List.prefix_refl _) hpre
    rw [if_neg heq]
    by_cases hpre : n :: p <+: m :: q
    · rw [if_pos hpre]
      exact ⟨by rintro ⟨⟩, by rintro ⟨-, -, ⟨h, -⟩ | ⟨h, -⟩⟩ <;> contradiction⟩
    rw [if_neg hpre]
    by_cases hpre' : m :: q <+: n :: p
    · rw [if_pos hpre']
      exact ⟨by rintro ⟨⟩, by rintro ⟨-, -, ⟨h, -⟩ | ⟨-, h, -⟩⟩ <;> contradiction⟩
    rw [if_neg hpre']
    simp [heq, hpre, hpre', replacing_eq_ok]

/-- **A renaming that is granted**: what stands at the first place goes to the second, unless they
are the same. -/
theorem exists_of_rename_eq_ok {s u : Spelling} (hs : s.IsClean) (hu : u.IsClean)
    (h : rename s.toText u.toText fs = .ok () later) :
    ∃ p t q, fs.Names s.toText p ∧ fs.node? p = some t ∧ p ≠ [] ∧ fs.Names u.toText q ∧ q ≠ [] ∧
      (p = q ∧ later = fs ∨ TakesFrom fs p t q ∧ later = fs.relocate p q) := by
  have hspots := h
  rw [rename, bind_locateAmong_eq_ok] at hspots
  obtain ⟨a, ha, hspots⟩ := hspots
  rw [bind_locateAmong_eq_ok] at hspots
  obtain ⟨b, hb, -⟩ := hspots
  obtain ⟨p, rfl, hp⟩ := FileSystem.eq_spotAt_of_locate hs ha
  obtain ⟨q, rfl, hq⟩ := FileSystem.eq_spotAt_of_locate hu hb
  cases ht : fs.node? p with
  | none =>
    rw [FileSystem.spotAt_of_vacant ht] at ha
    exact absurd h (rename_vacant_ne_ok ha hb)
  | some t =>
    rw [FileSystem.spotAt_of_node? ht] at ha
    cases hv : fs.node? q with
    | none =>
      rw [FileSystem.spotAt_of_vacant hv] at hb
      obtain ⟨hp0, -, hpre, hlater⟩ := (rename_to_vacant ha hb).1 h
      exact ⟨p, t, q, hp, ht, hp0, hq, (FileSystem.shows_of_locate hb).1,
        .inr ⟨⟨hpre, .inl (FileSystem.bare?_eq_none_iff.2 hv)⟩, hlater⟩⟩
    | some v =>
      rw [FileSystem.spotAt_of_node? hv] at hb
      obtain ⟨hp0, hq0, hsame | ⟨hpre, hpre', hreplaces, hlater⟩⟩ := (rename_to_taken ha hb).1 h
      · exact ⟨p, t, q, hp, ht, hp0, hq, hq0, .inl hsame⟩
      · exact ⟨p, t, q, hp, ht, hp0, hq, hq0,
          .inr ⟨⟨hpre, .inr ⟨hpre', v, hv, hreplaces⟩⟩, hlater⟩⟩

/-- A renaming that is turned down changes nothing. -/
theorem rename_eq_error {e : Failure} (h : rename source target fs = .error e later) :
    later = fs := by
  have hfail : ∀ f paths, (fail f paths : Disk Unit) fs = .error e later → later = fs := by
    rintro f paths ⟨⟩
    rfl
  have hmodify : ∀ change, (modify change : Disk Unit) fs ≠ .error e later := by
    rintro change ⟨⟩
  rw [rename, bind_eq_error] at h
  rcases h with h | ⟨a, t, ha, h⟩
  · exact locateAmong_eq_error h
  obtain ⟨-, rfl⟩ := locateAmong_eq_ok.1 ha
  rw [bind_eq_error] at h
  rcases h with h | ⟨b, t', hb, h⟩
  · exact locateAmong_eq_error h
  obtain ⟨-, rfl⟩ := locateAmong_eq_ok.1 hb
  cases a with
  | vacant p slash =>
    cases b with
    | vacant q last => exact hfail _ _ h
    | taken q v => cases q <;> exact hfail _ _ h
  | taken p t =>
    cases p with
    | nil => exact hfail _ _ h
    | cons n p =>
      cases b with
      | vacant q slash =>
        simp only at h
        split at h
        · exact hfail _ _ h
        split at h
        · exact hfail _ _ h
        · exact absurd h (hmodify _)
      | taken q v =>
        cases q with
        | nil => exact hfail _ _ h
        | cons m q =>
          simp only at h
          split at h
          · cases h
          split at h
          · exact hfail _ _ h
          split at h
          · exact hfail _ _ h
          -- what is taken is replaced, unless it is of another kind or holds something
          split at h
          · split at h
            · exact hfail _ _ h
            split at h
            · exact absurd h (hmodify _)
            · exact hfail _ _ h
          · split at h
            · exact hfail _ _ h
            · exact absurd h (hmodify _)

/-- **A file can be renamed to any place that is named**, unless a directory stands there. -/
theorem locate_ne_ok_of_rename_eq_error {s u : Spelling} (hs : s.IsClean) (hu : u.IsClean)
    {p : Location} {t : Node} (hp : fs.Names s.toText p) (ht : fs.node? p = some t)
    (hfile : t.isDirectory = false) (hfree : ∀ q, fs.Names u.toText q → ¬ fs.IsDirectoryAt q)
    {e : Failure} (h : rename s.toText u.toText fs = .error e later) (spot : Spot) :
    fs.locate aim u.toText ≠ .ok spot := by
  intro hlocate
  obtain ⟨q, hq⟩ := FileSystem.exists_names_of_locate hu hlocate
  have hnodir : ¬ fs.IsDirectoryAt p := by
    intro hdir
    rw [FileSystem.isDirectoryAt_iff.1 hdir] at ht
    cases ht
    cases hfile
  have hqdir := hfree q hq
  have hp0 : p ≠ [] := fun h0 => hnodir (h0 ▸ FileSystem.isDirectoryAt_root)
  have hq0 : q ≠ [] := fun h0 => hqdir (h0 ▸ FileSystem.isDirectoryAt_root)
  have hdirs := hq.isDirectoryAt_dropLast hu hq0
  have hdirs' := hp.isDirectoryAt_dropLast hs hp0
  -- nothing stands below a file, so neither place lies below the other one
  have hpre : p ≠ q → ¬ p <+: q := fun hne hpre =>
    hnodir (FileSystem.isDirectoryAt_of_properPrefix hpre hne hdirs)
  have hpre' : p ≠ q → ¬ q <+: p := fun hne hpre =>
    hqdir (FileSystem.isDirectoryAt_of_properPrefix hpre (Ne.symm hne) hdirs')
  have hsource := hp
  have htarget := hq
  rw [FileSystem.Names, FileSystem.spotAt_of_node? ht] at hsource
  have hgranted : ∃ after, rename s.toText u.toText fs = .ok () after := by
    cases hv : fs.node? q with
    | none =>
      rw [FileSystem.Names, FileSystem.spotAt_of_vacant hv] at htarget
      have hne : p ≠ q := by
        rintro rfl
        rw [ht] at hv
        cases hv
      exact ⟨_, (rename_to_vacant hsource htarget).2 ⟨hp0, by simp, hpre hne, rfl⟩⟩
    | some v =>
      rw [FileSystem.Names, FileSystem.spotAt_of_node? hv] at htarget
      have hvfile : v.isDirectory = false := by
        cases v with
        | directory es => exact absurd (FileSystem.isDirectoryAt_of_node? hv) hqdir
        | file bytes => rfl
        | link bytes => rfl
      have hreplaces : Replaces t v := ⟨fun hdir => by simp [hfile] at hdir, fun _ => hvfile⟩
      by_cases heq : p = q
      · exact ⟨_, (rename_to_taken hsource htarget).2 ⟨hp0, hq0, .inl ⟨heq, rfl⟩⟩⟩
      · exact ⟨_, (rename_to_taken hsource htarget).2
          ⟨hp0, hq0, .inr ⟨hpre heq, hpre' heq, hreplaces, rfl⟩⟩⟩
  obtain ⟨after, hgranted⟩ := hgranted
  rw [hgranted] at h
  cases h

/-! ## What requests keep -/

section Keeps

variable {I : FileSystem → Prop}

/-- A request starts where it was made, with what its path leads to. -/
theorem stateAfter_locate_bind {α : Type} {f : Spot → Disk α} (hfs : I fs)
    (h : ∀ spot, fs.locate aim path = .ok spot → I (stateAfter (f spot) fs)) :
    I (stateAfter (locate aim path >>= f) fs) := by
  cases hrun : locate aim path fs with
  | ok spot later =>
    obtain ⟨hspot, rfl⟩ := locate_eq_ok.1 hrun
    rw [stateAfter_bind_of_ok hrun]
    exact h spot hspot
  | error e later =>
    rw [stateAfter_of_error (bind_of_error hrun), (locate_eq_error.1 hrun).2]
    exact hfs

theorem keeps_locate_bind {α : Type} {aim : Aim} {path : Text} {f : Spot → Disk α}
    (h : ∀ fs spot, I fs → fs.locate aim path = .ok spot → I (stateAfter (f spot) fs)) :
    Keeps I (locate aim path >>= f) :=
  fun fs hfs => stateAfter_locate_bind hfs fun spot hspot => h fs spot hfs hspot

theorem keeps_ask {α : Type} (question : FileSystem → α) : Keeps I (ask question) :=
  keeps_of_still fun _ => rfl

/-- A request that only reads keeps everything. -/
theorem keeps_readFile (path : Text) : Keeps I (readFile path) := by
  refine keeps_locate_bind ?_
  intro fs spot hfs hspot
  split <;> exact hfs

theorem keeps_listDirectory (path : Text) : Keeps I (listDirectory path) := by
  refine keeps_locate_bind ?_
  intro fs spot hfs hspot
  split <;> exact hfs

/-- Setting times keeps whatever depends on the entries alone. -/
theorem keeps_copyTimeOf (hI : ∀ fs later, later.entries = fs.entries → I fs → I later)
    (source target : Text) : Keeps I (copyTimeOf source target) := by
  refine keeps_locate_bind ?_
  intro fs a hfs ha
  refine stateAfter_locate_bind hfs ?_
  intro b hb
  split
  · refine keeps_modify (fun later hlater => ?_) fs hfs
    split <;> exact hI later _ rfl hlater
  · exact hfs
  · exact hfs

/-- What could not be copied is told without another change. -/
theorem stateAfter_collect (source target : Text) (action : Disk Unit) (fs : FileSystem) :
    stateAfter (collect source target action) fs = stateAfter action fs := by
  cases hrun : action fs with
  | ok a later =>
    have hcollect : collect source target action fs = .ok [] later := by
      rw [collect]
      exact tryCatch_of_ok ((bind_of_ok hrun).trans rfl)
    rw [stateAfter_of_ok hcollect, stateAfter_of_ok hrun]
  | error e later =>
    rw [stateAfter_of_error hrun, stateAfter, collect, tryCatch_of_error (bind_of_error hrun)]
    cases e with
    | move refusal => cases refusal <;> rfl
    | _ => rfl

theorem keeps_collect {action : Disk Unit} (h : Keeps I action) (source target : Text) :
    Keeps I (collect source target action) := by
  intro fs hfs
  rw [stateAfter_collect]
  exact h fs hfs

/-- The missing directories above are made one by one. -/
theorem keeps_makeDirectories (h : ∀ path, Keeps I (makeDirectory path)) (path : Text) :
    Keeps I (makeDirectories path) := by
  rw [makeDirectories]
  generalize (Spelling.ofText path).parts.reverse = parts
  induction parts with
  | nil => exact h _
  | cons part above ih =>
    refine keeps_bind (keeps_ask _) ?_
    intro present
    cases present with
    | true => exact h _
    | false =>
      refine keeps_bind (keeps_tryCatch ih fun e => ?_) fun _ => h _
      split
      · exact keeps_pure _
      · exact keeps_throw e

end Keeps

end Disk

end FileShell
