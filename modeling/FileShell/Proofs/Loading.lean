import FileShell.LogLevel
import FileShell.Settings
import FileShell.Proofs.FileSystem.Named
import FileShell.Proofs.Json.Nesting

/-!
# Settings from any content

What a settings file holds decides whether the program starts.  An object gives its members, and
what is no JSON document gives as much as no file does.  A document of another kind is asked for its
members all the same and ends the start; so does one whose lists and objects stand too deep in one
another, and a level with the name of something in the table of levels that is no level.

* `Settings.load_of_bytes`, `Settings.load_of_absent`: the settings that a file gives, or the lack
  of one.
* `Logger.setUp_isOk_iff`: which levels a logger takes.
* `Settings.load_of_any_content`: **what each content of the file leads to.**
-/

namespace FileShell

/-! ## Levels -/

/-- The names in the table of levels that stand for something else. -/
def LogLevel.reserved : List Text := ["BASIC_FORMAT", "_STYLES"]

/-- **A logger takes every level but the reserved names**, in small letters or in capitals. -/
theorem Logger.setUp_isOk_iff (logger : Logger) (name : Text) :
    (∃ later, logger.setUp name = .ok later) ↔ name.upper ∉ LogLevel.reserved := by
  have hreserved : name.upper ∉ LogLevel.reserved ↔
      LogLevel.otherNames.lookup name.upper = none := by
    rw [List.lookup_eq_none_iff]
    simp [LogLevel.reserved, LogLevel.otherNames]
  rw [hreserved, Logger.setUp, LogLevel.ofName]
  cases LogLevel.otherNames.lookup name.upper with
  | none => exact ⟨fun _ => rfl, fun _ => ⟨_, rfl⟩⟩
  | some wrong =>
    constructor
    · rintro ⟨later, hlater⟩
      cases hlater
    · intro h
      cases h

example : Logger.fresh.setUp "basic_format" = .error (.unknownLevel (.name LogLevel.layout)) := by
  decide

namespace Settings

variable {env : Environment} {files : FileSystem} {path : Option Text} {file : Spelling}
  {bytes : Bytes}

/-! ## The file and the environment -/

/-- The settings that members and the variables of an environment give. -/
def given (env : Environment) (members : List (Text × Json)) : Settings :=
  ((ofMembers members).override env).capitalized

theorem load_eq (hfile : fileOf env path = .ok file) :
    load env files path = given env <$> membersAt files (env.place file) := by
  rw [load, hfile]
  rfl

theorem isThere_of_bytesAt? {p : Text} (h : bytesAt? files p = some bytes) :
    isThere files p = .ok true := by
  unfold bytesAt? at h
  split at h
  · next place content hfound =>
    rw [isThere, FileSystem.found?_eq_some_iff.1 hfound]
  · cases h

/-- The settings that a file gives are those of its members. -/
theorem load_of_bytes (hfile : fileOf env path = .ok file)
    (hbytes : bytesAt? files (env.place file) = some bytes) :
    load env files path = given env <$> membersOf (files.host.nesting .reading) bytes := by
  have hmembers : membersAt files (env.place file) =
      membersOf (files.host.nesting .reading) bytes := by
    rw [membersAt, isThere_of_bytesAt? hbytes, hbytes]
    rfl
  rw [load_eq hfile, hmembers]

/-- Without a file only the environment counts. -/
theorem load_of_absent (hfile : fileOf env path = .ok file)
    (habsent : isThere files (env.place file) = .ok false) :
    load env files path = .ok (given env []) := by
  have hmembers : membersAt files (env.place file) = .ok [] := by
    rw [membersAt, habsent]
    rfl
  rw [load_eq hfile, hmembers]
  rfl

/-! ## What a file may hold -/

/-- Is the value an object? -/
def isObject : Json → Bool
  | .object _ => true
  | _ => false

/-- The JSON value that bytes hold, if they are UTF-8 and a document that some levels are enough
for. -/
def heldBy (levels : Nat) (bytes : Bytes) : Except Json.Refusal Json :=
  match Text.decodeStrict? bytes with
  | none => .error .malformed
  | some t => Json.parse levels t

variable {levels : Nat}

/-- Bytes give their members by what they hold alone. -/
theorem membersOf_eq (levels : Nat) (bytes : Bytes) :
    membersOf levels bytes =
      match heldBy levels bytes with
      | .error .malformed => .ok []
      | .error (.tooNested doing) => .error (.tooNested doing)
      | .ok (.object members) => .ok members
      | .ok other => .error (.notAnObject other.kindName) := by
  unfold membersOf heldBy
  cases Text.decodeStrict? bytes <;> rfl

theorem membersOf_of_malformed (h : heldBy levels bytes = .error .malformed) :
    membersOf levels bytes = .ok [] := by
  rw [membersOf_eq, h]

theorem membersOf_of_tooNested {doing : Text}
    (h : heldBy levels bytes = .error (.tooNested doing)) :
    membersOf levels bytes = .error (.tooNested doing) := by
  rw [membersOf_eq, h]

theorem membersOf_of_object {v : Json} (h : heldBy levels bytes = .ok v) (hv : isObject v = true) :
    ∃ members, membersOf levels bytes = .ok members := by
  rw [membersOf_eq, h]
  cases v with
  | object members => exact ⟨members, rfl⟩
  | _ => cases hv

theorem membersOf_of_other {v : Json} (h : heldBy levels bytes = .ok v) (hv : isObject v = false) :
    membersOf levels bytes = .error (.notAnObject v.kindName) := by
  rw [membersOf_eq, h]
  cases v with
  | object members => cases hv
  | _ => rfl

/-- Only a text with more brackets than levels is refused for its nesting. -/
theorem lt_openings_of_heldBy {doing : Text}
    (h : heldBy levels bytes = .error (.tooNested doing)) :
    ∃ t, Text.decodeStrict? bytes = some t ∧ levels < Json.openings t := by
  unfold heldBy at h
  cases hdecode : Text.decodeStrict? bytes with
  | none =>
    rw [hdecode] at h
    cases h
  | some t =>
    rw [hdecode] at h
    exact ⟨t, rfl, Json.lt_openings_of_tooNested h⟩

/-- **What each content of the settings file leads to.**  If it holds a JSON document that is no
object, loading fails and says of which kind the document is; if the document has more lists and
objects open than can be read, which takes as many brackets, loading fails as well.  Otherwise it
gives settings, and a logger takes their level unless it is a reserved name.  If it is no JSON
document at all, the settings are those that the same environment gives without the file. -/
theorem load_of_any_content (hfile : fileOf env path = .ok file)
    (hbytes : bytesAt? files (env.place file) = some bytes) :
    (∀ v, heldBy (files.host.nesting .reading) bytes = .ok v → isObject v = false →
      load env files path = .error (.notAnObject v.kindName)) ∧
    (∀ doing, heldBy (files.host.nesting .reading) bytes = .error (.tooNested doing) →
      load env files path = .error (.tooNested doing) ∧
        ∃ t, Text.decodeStrict? bytes = some t ∧ files.host.nesting .reading < Json.openings t) ∧
    ((∀ v, heldBy (files.host.nesting .reading) bytes = .ok v → isObject v = true) →
      (∀ doing, heldBy (files.host.nesting .reading) bytes ≠ .error (.tooNested doing)) →
      ∃ s, load env files path = .ok s ∧ ∀ logger : Logger,
        (∃ later, logger.setUp s.logLevel = .ok later) ↔ s.logLevel.upper ∉ LogLevel.reserved) ∧
    (heldBy (files.host.nesting .reading) bytes = .error .malformed →
      ∀ others, isThere others (env.place file) = .ok false →
        load env files path = load env others path) := by
  have hload := load_of_bytes hfile hbytes
  refine ⟨?otherKind, ?tooNested, ?object, ?noDocument⟩
  case otherKind =>
    intro v hv hother
    rw [hload, membersOf_of_other hv hother]
    rfl
  case tooNested =>
    intro doing hdoing
    refine ⟨?_, lt_openings_of_heldBy hdoing⟩
    rw [hload, membersOf_of_tooNested hdoing]
    rfl
  case object =>
    intro hobject hlevels
    have hmembers : ∃ members, membersOf (files.host.nesting .reading) bytes = .ok members := by
      cases hheld : heldBy (files.host.nesting .reading) bytes with
      | error e =>
        cases e with
        | malformed => exact ⟨[], membersOf_of_malformed hheld⟩
        | tooNested doing => exact absurd hheld (hlevels doing)
      | ok v => exact membersOf_of_object hheld (hobject v hheld)
    obtain ⟨members, hmembers⟩ := hmembers
    refine ⟨given env members, ?_, fun logger => Logger.setUp_isOk_iff logger _⟩
    rw [hload, hmembers]
    rfl
  case noDocument =>
    intro hnone others habsent
    rw [hload, membersOf_of_malformed hnone, load_of_absent hfile habsent]
    rfl

theorem exists_of_map_eq_ok {α β ε : Type} {f : α → β} {r : Except ε α} {b : β}
    (h : r.map f = .ok b) : ∃ a, r = .ok a ∧ f a = b := by
  cases r with
  | error e => cases h
  | ok a =>
    cases h
    exact ⟨a, rfl, rfl⟩

theorem error_of_map_eq_error {α β ε : Type} {f : α → β} {r : Except ε α} {e : ε}
    (h : r.map f = .error e) : r = .error e := by
  cases r with
  | error e' =>
    cases h
    rfl
  | ok a => cases h

/-- A file that holds a list, one that holds more brackets than can be read, one that holds no
document, and one that holds an object with a number for a level. -/
theorem load_of_any_content_each_kind :
    let c : Name := ⟨[0x63], by decide⟩
    let env : Environment := ⟨[], "/", [], "/"⟩
    let bytes (s : String) : Bytes := s.toList.map fun c => UInt8.ofNat c.toNat
    let holding (b : Bytes) := FileSystem.empty.create [c] (.file b) (.file b)
    let load (files : FileSystem) := Settings.load env files (some (Text.ofString "/c"))
    load (holding (bytes "[1]")) = .error (.notAnObject "list") ∧
    load (holding (List.replicate 951 0x5B)) = .error (.tooNested Json.readingList) ∧
    load (holding (bytes "[1")) = load FileSystem.empty ∧
    ∃ s, load (holding (bytes "\x7b\"log_level\":7\x7d")) = .ok s ∧
      ∃ later, Logger.fresh.setUp s.logLevel = .ok later := by
  intro c env bytes holding load
  have hfile : fileOf env (some (Text.ofString "/c")) = .ok (.ofText "/c") := rfl
  have hbytes : ∀ b, bytesAt? (holding b) (env.place (.ofText "/c")) = some b := fun _ => rfl
  have hlevels : ∀ b, (holding b).host.nesting .reading = 950 := fun _ => rfl
  have hlist : (heldBy 950 (bytes "[1]")).map (fun v => (isObject v, v.kindName)) =
      .ok (false, Text.ofString "list") := by decide +kernel
  have hnone : (heldBy 950 (bytes "[1")).map isObject = .error .malformed := by decide +kernel
  have hobject : (heldBy 950 (bytes "\x7b\"log_level\":7\x7d")).map isObject = .ok true := by
    decide +kernel
  have hbrackets : Text.decodeStrict? (List.replicate 951 0x5B) =
      some (List.replicate 951 (.scalar '[')) := by decide +kernel
  have hsettings : load (holding (bytes "\x7b\"log_level\":7\x7d")) =
      .ok ⟨true, "7", "white", "blue"⟩ := by decide +kernel
  refine ⟨?list, ?nested, ?none, ?object⟩
  case list =>
    obtain ⟨v, hv, hkind⟩ := exists_of_map_eq_ok hlist
    obtain ⟨hother, hname⟩ := Prod.mk.inj hkind
    rw [← hname]
    exact (load_of_any_content hfile (hbytes _)).1 v hv hother
  case nested =>
    have hnested : heldBy 950 (List.replicate 951 0x5B) =
        .error (.tooNested Json.readingList) := by
      have hrefused := Json.parse_brackets 950 []
      rw [List.append_nil] at hrefused
      rw [heldBy, hbrackets]
      exact hrefused
    exact ((load_of_any_content hfile (hbytes _)).2.1 _ hnested).1
  case none =>
    have hmalformed : heldBy 950 (bytes "[1") = .error .malformed := error_of_map_eq_error hnone
    exact (load_of_any_content hfile (hbytes _)).2.2.2 hmalformed _ (by decide +kernel)
  case object =>
    obtain ⟨v, hv, hkind⟩ := exists_of_map_eq_ok hobject
    obtain ⟨s, hs, hlevel⟩ := (load_of_any_content hfile (hbytes _)).2.2.1
      (by rintro w hw; cases hv.symm.trans hw; exact hkind)
      (by intro doing hdoing; cases hv.symm.trans hdoing)
    cases hs.symm.trans hsettings
    exact ⟨_, hs, (hlevel Logger.fresh).2 (by decide +kernel)⟩

/-- **A document that is a list ends the start**, though without the file the settings would be the
default ones. -/
theorem load_of_list :
    let c : Name := ⟨[0x63], by decide⟩
    let env : Environment := ⟨[], "/", [], "/"⟩
    let files := FileSystem.empty.create [c] (.file [0x5B, 0x5D]) (.file _)
    (¬ ∃ s, load env files (some (Text.ofString "/c")) = .ok s) ∧
      load env FileSystem.empty (some (Text.ofString "/c")) = .ok default := by
  intro c env files
  have hlist : load env files (some (Text.ofString "/c")) = .error (.notAnObject "list") := by
    decide +kernel
  refine ⟨?_, by decide +kernel⟩
  rintro ⟨s, hs⟩
  cases hlist.symm.trans hs

end Settings

end FileShell
