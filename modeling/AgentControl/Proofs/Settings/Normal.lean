import AgentControl.Proofs.Settings.Leaf
import AgentControl.Proofs.Text.Trimming

/-! # Settings in normal form

Settings may be given loosely, but what they are read as has one form: trimmed, distinct,
named and positive, with nothing left to a default. That form is read as itself, and it is the
only one of its settings.
-/

namespace AgentControl

open Value (under)

variable {s : ConsoleSettings} {v w : Value} {preset : String} {given : Option Value}

/-- A text that is more than blanks and has none at its ends. -/
structure NeatPreset (preset : String) : Prop where
  ne_empty : preset ≠ ""
  trimmed : Text.Trimmed Text.isBlank preset.toList

theorem PresetOf.neat (h : PresetOf v preset) : NeatPreset preset := by
  obtain ⟨s, -, rfl, hne⟩ := h
  refine ⟨hne, ?_⟩
  rw [Text.strip, String.toList_ofList]
  exact Text.trimmed_trimBy

theorem NeatPreset.presetOf (h : NeatPreset preset) : PresetOf (.str preset) preset := by
  refine ⟨preset, .text, ?_, h.ne_empty⟩
  rw [Text.strip, h.trimmed.trimBy_eq, String.ofList_toList]

theorem neatPreset_usual : NeatPreset ConsoleSettings.usual.theme.preset := by
  have h : PresetOf (.str "aura") "aura" := ⟨"aura", .text, by decide, by decide⟩
  exact h.neat

theorem Leaf.Yields.neat (h : Leaf.preset.Yields given preset) : NeatPreset preset := by
  cases given with
  | none => exact h ▸ neatPreset_usual
  | some v => exact PresetOf.neat h

theorem namesOf_strings {names : List String} (h : names.Nodup) :
    NamesOf (.list (names.map .str)) names := by
  refine ⟨_, rfl, ?_, h⟩
  rw [List.forall₂_map_left_iff]
  exact List.forall₂_same.mpr fun _ _ => .text

/-- Plain data that gives each setting, and gives it as it is kept. -/
inductive NormalSettings : Value → Prop where
  | intro {preset level file : String} {names : List String} {size backups : ℤ} :
      NeatPreset preset → names.Nodup → level ∈ ["debug", "info", "warning", "error"] → 1 ≤ size →
        1 ≤ backups →
      NormalSettings (.record [
        ("theme", .record [("preset", .str preset)]),
        ("widgets", .list (names.map .str)),
        ("logging", .record [("level", .str level), ("file", .str file), ("max_size_mb", .int size),
          ("backup_count", .int backups)])])

theorem Severity.mem_names_iff {level : String} :
    level ∈ ["debug", "info", "warning", "error"] ↔ ∃ l : Severity, l.name = level := by
  constructor
  · intro h
    simp only [List.mem_cons, List.not_mem_nil, or_false] at h
    rcases h with rfl | rfl | rfl | rfl
    · exact ⟨.debug, rfl⟩
    · exact ⟨.info, rfl⟩
    · exact ⟨.warning, rfl⟩
    · exact ⟨.error, rfl⟩
  · rintro ⟨l, rfl⟩
    cases l <;> decide

namespace ConsoleSettings

theorem check_eq_ok_iff :
    check v = .ok s ↔ ∃ entries, v = .dict entries ∧ ofEntries entries = .ok s := by
  cases v with
  | dict entries => exact ⟨fun h => ⟨entries, rfl, h⟩, fun ⟨_, he, h⟩ => by cases he; exact h⟩
  | _ => exact ⟨nofun, nofun⟩

theorem neat_of_check (h : check v = .ok s) : NeatPreset s.theme.preset := by
  obtain ⟨entries, -, he⟩ := check_eq_ok_iff.mp h
  exact ((ofEntries_eq_ok_iff.mp he).2 .preset).neat

theorem normal_toValue (h : NeatPreset s.theme.preset) : NormalSettings s.toValue :=
  .intro h s.widgets_nodup (Severity.mem_names_iff.mpr ⟨_, rfl⟩)
    (by exact_mod_cast s.logging.maxSizeMb_pos)
    (by exact_mod_cast s.logging.backupCount_pos)

/-- The field that a single setting is kept in, as plain data. -/
def field (s : ConsoleSettings) : Leaf → Value
  | .preset => .str s.theme.preset
  | .widgets => .list (s.widgets.map .str)
  | .level => .str s.logging.level.name
  | .file => .str s.logging.file
  | .maxSizeMb => .int s.logging.maxSizeMb
  | .backupCount => .int s.logging.backupCount

theorem under_toValue (leaf : Leaf) : under leaf.path s.toValue = some (s.field leaf) := by
  cases leaf <;> rfl

theorem reads_field (h : NeatPreset s.theme.preset) (leaf : Leaf) :
    leaf.Reads (s.field leaf) (leaf.of s) := by
  cases leaf with
  | preset => exact h.presetOf
  | widgets => exact namesOf_strings s.widgets_nodup
  | level => exact rfl
  | file => exact TextOf.text
  | maxSizeMb => exact ⟨.int, s.logging.maxSizeMb_pos⟩
  | backupCount => exact ⟨.int, s.logging.backupCount_pos⟩

/-- Settings with a neat preset are read from their own fields. -/
theorem check_toValue (h : NeatPreset s.theme.preset) : check s.toValue = .ok s := by
  refine check_eq_ok_iff.mpr ⟨_, rfl, ofEntries_eq_ok_iff.mpr ⟨?_, fun leaf => ?_⟩⟩
  · exact List.forall_mem_cons.mpr ⟨isSection_dict, List.forall_mem_singleton.mpr isSection_dict⟩
  · have hu : under leaf.path s.toValue = some (s.field leaf) := under_toValue leaf
    rw [toValue, Value.record] at hu
    rw [hu]
    exact reads_field h leaf

theorem exists_of_normal (h : NormalSettings w) :
    ∃ s : ConsoleSettings, s.toValue = w ∧ NeatPreset s.theme.preset := by
  obtain @⟨preset, _, file, names, size, backups, hp, hn, hl, hs, hb⟩ := h
  obtain ⟨l, rfl⟩ := Severity.mem_names_iff.mp hl
  obtain ⟨size, rfl⟩ := Int.eq_ofNat_of_zero_le (by omega : 0 ≤ size)
  obtain ⟨backups, rfl⟩ := Int.eq_ofNat_of_zero_le (by omega : 0 ≤ backups)
  exact ⟨⟨⟨preset⟩, names, ⟨l, file, size, backups, by omega, by omega⟩, hn⟩, rfl, hp⟩

/-- A value is in normal form when settings are read from it that are made of its fields. -/
theorem normal_iff : NormalSettings w ↔ ∃ s, check w = .ok s ∧ s.toValue = w := by
  constructor
  · intro h
    obtain ⟨s, rfl, hp⟩ := exists_of_normal h
    exact ⟨s, check_toValue hp, rfl⟩
  · rintro ⟨s, h, rfl⟩
    exact normal_toValue (neat_of_check h)

/-- Whatever settings were read from, their fields are in normal form and are read as the same
settings; no other normal form is. -/
theorem normal_of_check (h : check v = .ok s) :
    NormalSettings s.toValue ∧ check s.toValue = .ok s ∧
      ∀ w, NormalSettings w → check w = .ok s → w = s.toValue := by
  have hp := neat_of_check h
  -- a normal form holds the fields of what is read from it, so those of `s`
  refine ⟨normal_toValue hp, check_toValue hp, fun w hw hs => ?_⟩
  obtain ⟨s', hs', rfl⟩ := normal_iff.mp hw
  rw [Except.ok.inj (hs'.symm.trans hs)]

/-- Bytes with blanks around them, a tuple, a truth value, a text with a point, and a key
that nothing reads. -/
def looseSettings : Value :=
  .record [
    ("logging", .record [("backup_count", .str " +1_0.0 "), ("level", .str "error"),
      ("max_size_mb", .bool true)]),
    ("zone", .null),
    ("widgets", .tuple [.str "Select", .str " Select"]),
    ("theme", .record [("preset", .bytes [0xE3, 0x80, 0x80, 0x6E, 0x6F, 0x72, 0x64, 0x0A])])]

theorem normal_of_check_loose : ∃ s, check looseSettings = .ok s ∧
    s.toValue = .record [
      ("theme", .record [("preset", .str "nord")]),
      ("widgets", .list [.str "Select", .str " Select"]),
      ("logging", .record [("level", .str "error"),
        ("file", .str "~/.agent-console/logs/console.log"), ("max_size_mb", .int 1),
        ("backup_count", .int 10)])] ∧
    check s.toValue = .ok s := by
  have h : check looseSettings = .ok ⟨⟨"nord"⟩, ["Select", " Select"],
    ⟨.error, "~/.agent-console/logs/console.log", 1, 10, by decide, by decide⟩, by decide⟩ := rfl
  exact ⟨_, h, rfl, (normal_of_check h).2.1⟩

end ConsoleSettings

end AgentControl
