import AgentControl.Proofs.Settings.Overrides
import AgentControl.Proofs.Settings.Reading

/-! # Single settings

Settings are read place by place: each holds what its own value comes to, or its default, and the
whole is spoilt only by a section that is no mapping. Conversely there are settings for every choice
of what the places come to.
-/

namespace AgentControl

open Value (Entries under)

/-! ## Single settings -/

inductive Leaf where
  | preset
  | widgets
  | level
  | file
  | maxSizeMb
  | backupCount
deriving DecidableEq, Repr

namespace Leaf

variable {leaf other : Leaf} {v : Value} {given : Option Value} {s : ConsoleSettings}

/-- The dotted key under which an override gives a setting. -/
def key : Leaf → String
  | preset => "theme.preset"
  | widgets => "widgets"
  | level => "logging.level"
  | file => "logging.file"
  | maxSizeMb => "logging.max_size_mb"
  | backupCount => "logging.backup_count"

/-- The keys that lead to a setting in a file. -/
def path : Leaf → List String
  | preset => ["theme", "preset"]
  | widgets => ["widgets"]
  | level => ["logging", "level"]
  | file => ["logging", "file"]
  | maxSizeMb => ["logging", "max_size_mb"]
  | backupCount => ["logging", "backup_count"]

def section? : Leaf → Option String
  | preset => some "theme"
  | widgets => none
  | level | file | maxSizeMb | backupCount => some "logging"

@[simp] theorem keyPath_key (leaf : Leaf) : Overrides.keyPath leaf.key = leaf.path := by
  cases leaf <;> decide

theorem path_ne_nil (leaf : Leaf) : leaf.path ≠ [] := by
  cases leaf <;> decide

theorem key_injective (h : leaf.key = other.key) : leaf = other := by
  cases leaf <;> cases other <;> first | rfl | exact absurd h (by decide)

theorem path_of_section? {name : String} (h : leaf.section? = some name) :
    ∃ next, leaf.path = [name, next] := by
  cases leaf with
  | widgets => cases h
  | _ => exact Option.some.inj h ▸ ⟨_, rfl⟩

theorem unrelated (h : leaf ≠ other) : Overrides.Unrelated leaf.path other.path := by
  cases leaf <;> cases other <;> first | exact absurd rfl h | decide

def Content : Leaf → Type
  | preset | file => String
  | widgets => List String
  | level => Severity
  | maxSizeMb | backupCount => Nat

/-- What settings hold in a place. -/
def of (s : ConsoleSettings) : (leaf : Leaf) → leaf.Content
  | preset => s.theme.preset
  | widgets => s.widgets
  | level => s.logging.level
  | file => s.logging.file
  | maxSizeMb => s.logging.maxSizeMb
  | backupCount => s.logging.backupCount

end Leaf

theorem LoggingSettings.usual_maxSizeMb_pos : 0 < 10 := by decide

theorem LoggingSettings.usual_backupCount_pos : 0 < 5 := by decide

theorem ConsoleSettings.usual_widgets_nodup : ["Button", "InputText"].Nodup := by decide

/-- The settings where nothing is given. -/
def ConsoleSettings.usual : ConsoleSettings where
  logging :=
    { maxSizeMb_pos := LoggingSettings.usual_maxSizeMb_pos
      backupCount_pos := LoggingSettings.usual_backupCount_pos }
  widgets_nodup := ConsoleSettings.usual_widgets_nodup

namespace Leaf

/-- What is read from a value that is valid for a setting. -/
def Reads : (leaf : Leaf) → Value → leaf.Content → Prop
  | preset, v, x => PresetOf v x
  | widgets, v, x => NamesOf v x
  | level, v, x => v = .str (Severity.name x)
  | file, v, x => TextOf v x
  | maxSizeMb, v, x | backupCount, v, x => PositiveOf v x

/-- What a setting comes to that is given by a value, or not at all. -/
def Yields (leaf : Leaf) (given : Option Value) (x : leaf.Content) : Prop :=
  match given with
  | some v => leaf.Reads v x
  | none => x = leaf.of .usual

end Leaf

/-! ## Sections -/

/-- The sections that single settings stand in. -/
def sections : List String := ["theme", "logging"]

theorem Leaf.unrelated_section {leaf : Leaf} {name : String} (h : leaf.section? ≠ some name)
    (hn : name ∈ sections) : Overrides.Unrelated leaf.path [name] := by
  simp only [sections, List.mem_cons, List.not_mem_nil, or_false] at hn
  obtain rfl | rfl := hn <;> cases leaf <;> first | exact absurd rfl h | decide

/-- A section is not there or a mapping. -/
def IsSection (o : Option Value) : Prop := ∀ v, o = some v → ∃ es, v = .dict es

section

variable {α : Type} {name next : String} {es : Entries} {a default : α}
  {check : Entries → Checked α} {model : Model} {o : Option Value} {leaf : Leaf} {v : Value}

theorem isSection_none : IsSection none := nofun

theorem isSection_dict : IsSection (some (.dict es)) := by
  rintro v ⟨⟩
  exact ⟨es, rfl⟩

theorem lookup_section? : Value.lookup next (Overrides.section? o) = o.bind (under [next]) := by
  rw [← Value.under_singleton, Overrides.under_section?]

theorem under_pair : under [name, next] (.dict es) =
    Value.lookup next (Overrides.section? (Value.lookup name es)) := by
  rw [lookup_section?]
  rfl

/-- A section that is not there is read like one that is empty. -/
theorem setting_section_eq_ok_iff (hd : check [] = .ok a ↔ a = default) :
    setting name default (ofMapping model check) es = .ok a ↔
      IsSection (Value.lookup name es) ∧
        check (Overrides.section? (Value.lookup name es)) = .ok a := by
  rw [setting_eq_ok_iff]
  cases Value.lookup name es with
  | none =>
    simp only [Overrides.section?, hd]
    exact ⟨fun h => ⟨isSection_none, h⟩, And.right⟩
  | some v =>
    by_cases hv : ∃ fs, v = .dict fs
    · obtain ⟨fs, rfl⟩ := hv
      exact ⟨fun h => ⟨isSection_dict, h⟩, And.right⟩
    · have hn : ¬ IsSection (some v) := fun h => hv (h v rfl)
      have hf : ofMapping model check v = Checked.fail (.notModel model) v := by
        cases v <;> first | rfl | exact absurd ⟨_, rfl⟩ hv
      simp only [hf, hn, false_and, iff_false]
      nofun

/-- A check that reads what a setting takes, made of its entry, gives what the setting yields. -/
theorem setting_eq_ok_iff_yields (leaf : Leaf) {read : Value → Checked α}
    (content : α → leaf.Content) (hr : ∀ v, read v = .ok a ↔ leaf.Reads v (content a))
    (hd : a = default ↔ content a = leaf.of .usual) :
    setting name default read es = .ok a ↔ leaf.Yields (Value.lookup name es) (content a) := by
  rw [setting_eq_ok_iff]
  unfold Leaf.Yields
  cases Value.lookup name es with
  | none => exact hd
  | some v => exact hr v

theorem ThemeSettings.ofEntries_eq_ok_iff {t : ThemeSettings} :
    ThemeSettings.ofEntries es = .ok t ↔
      Leaf.preset.Yields (Value.lookup "preset" es) t.preset := by
  obtain ⟨preset⟩ := t
  rw [ThemeSettings.ofEntries, Checked.map_eq_ok_iff]
  simp only [ThemeSettings.mk.injEq, exists_eq_right]
  exact setting_eq_ok_iff_yields .preset id (fun _ => checkPreset_eq_ok_iff) Iff.rfl

theorem LoggingSettings.ofEntries_eq_ok_iff {l : LoggingSettings} :
    LoggingSettings.ofEntries es = .ok l ↔
      Leaf.level.Yields (Value.lookup "level" es) l.level ∧
        Leaf.file.Yields (Value.lookup "file" es) l.file ∧
        Leaf.maxSizeMb.Yields (Value.lookup "max_size_mb" es) l.maxSizeMb ∧
        Leaf.backupCount.Yields (Value.lookup "backup_count" es) l.backupCount := by
  obtain ⟨level, file, size, backups, hs, hb⟩ := l
  have hp : LoggingSettings.ofEntries es = .ok ⟨level, file, size, backups, hs, hb⟩ ↔
      (setting "level" ({} : LoggingSettings).level checkSeverity es).both
        ((setting "file" ({} : LoggingSettings).file checkText es).both
          ((setting "max_size_mb" ⟨({} : LoggingSettings).maxSizeMb, by decide⟩ checkPositive
            es).both
            (setting "backup_count"
              ⟨({} : LoggingSettings).backupCount, by decide⟩ checkPositive es))) =
        .ok (level, file, ⟨size, hs⟩, ⟨backups, hb⟩) := by
    rw [LoggingSettings.ofEntries]
    split
    · next heq =>
      rw [heq]
      simp [Subtype.ext_iff]
    · next heq =>
      rw [heq]
      simp
  rw [hp]
  simp only [Checked.both_eq_ok_iff]
  refine and_congr ?_ (and_congr ?_ (and_congr ?_ ?_))
  · exact setting_eq_ok_iff_yields .level id (fun _ => checkSeverity_eq_ok_iff) Iff.rfl
  · exact setting_eq_ok_iff_yields .file id (fun _ => checkText_eq_ok_iff) Iff.rfl
  · exact setting_eq_ok_iff_yields .maxSizeMb Subtype.val
      (fun _ => checkPositive_eq_ok_iff) Subtype.ext_iff
  · exact setting_eq_ok_iff_yields .backupCount Subtype.val
      (fun _ => checkPositive_eq_ok_iff) Subtype.ext_iff

theorem ThemeSettings.ofEntries_nil {t : ThemeSettings} :
    ThemeSettings.ofEntries [] = .ok t ↔ t = {} := by
  rw [ThemeSettings.ofEntries_eq_ok_iff]
  obtain ⟨preset⟩ := t
  simp only [Value.lookup, Leaf.Yields, Leaf.of, ThemeSettings.mk.injEq]
  exact Iff.rfl

theorem LoggingSettings.ofEntries_nil {l : LoggingSettings} :
    LoggingSettings.ofEntries [] = .ok l ↔ l = {} := by
  rw [LoggingSettings.ofEntries_eq_ok_iff]
  obtain ⟨level, file, size, backups, hs, hb⟩ := l
  simp only [Value.lookup, Leaf.Yields, Leaf.of, LoggingSettings.mk.injEq]
  exact Iff.rfl

/-- Settings are read place by place, once every section is one. -/
theorem ConsoleSettings.ofEntries_eq_ok_iff {s : ConsoleSettings} :
    ConsoleSettings.ofEntries es = .ok s ↔
      (∀ name ∈ sections, IsSection (Value.lookup name es)) ∧
        ∀ leaf : Leaf, leaf.Yields (under leaf.path (.dict es)) (leaf.of s) := by
  obtain ⟨theme, widgets, logging, hw⟩ := s
  have hp : ConsoleSettings.ofEntries es = .ok ⟨theme, widgets, logging, hw⟩ ↔
      (setting "theme" {} ThemeSettings.check es).both
        ((setting "widgets" ⟨({} : ConsoleSettings).widgets, by decide⟩ checkWidgets es).both
          (setting "logging" {} LoggingSettings.check es)) =
            .ok (theme, ⟨widgets, hw⟩, logging) := by
    rw [ConsoleSettings.ofEntries]
    split
    · next heq =>
      rw [heq]
      simp [Subtype.ext_iff]
    · next heq =>
      rw [heq]
      simp
  have hn : setting "widgets" ⟨({} : ConsoleSettings).widgets, by decide⟩ checkWidgets es =
      .ok ⟨widgets, hw⟩ ↔ Leaf.widgets.Yields (under ["widgets"] (.dict es)) widgets := by
    rw [Value.under_singleton]
    exact setting_eq_ok_iff_yields .widgets Subtype.val (fun _ => checkWidgets_eq_ok_iff)
      Subtype.ext_iff
  rw [hp]
  simp only [Checked.both_eq_ok_iff, ThemeSettings.check, LoggingSettings.check, hn,
    setting_section_eq_ok_iff ThemeSettings.ofEntries_nil,
    setting_section_eq_ok_iff LoggingSettings.ofEntries_nil,
    ThemeSettings.ofEntries_eq_ok_iff, LoggingSettings.ofEntries_eq_ok_iff, ← under_pair]
  constructor
  · rintro ⟨⟨ht, hpreset⟩, hwidgets, hl, hlevel, hfile, hsize, hbackups⟩
    constructor
    · simpa [sections] using ⟨ht, hl⟩
    · intro leaf
      cases leaf with
      | preset => exact hpreset
      | widgets => exact hwidgets
      | level => exact hlevel
      | file => exact hfile
      | maxSizeMb => exact hsize
      | backupCount => exact hbackups
  · rintro ⟨hs, hy⟩
    exact ⟨⟨hs "theme" (by decide), hy .preset⟩, hy .widgets, hs "logging" (by decide), hy .level,
      hy .file, hy .maxSizeMb, hy .backupCount⟩

end

/-! ## Settings made of single ones -/

theorem Leaf.Yields.nodup {given : Option Value} {names : List String}
    (h : Leaf.widgets.Yields given names) : names.Nodup := by
  cases given with
  | none => exact h ▸ ({} : ConsoleSettings).widgets_nodup
  | some v =>
    obtain ⟨_, _, _, hn⟩ := h
    exact hn

theorem Leaf.Yields.pos {given : Option Value} {n : Nat}
    (h : Leaf.maxSizeMb.Yields given n ∨ Leaf.backupCount.Yields given n) : 0 < n := by
  cases given with
  | none =>
    rcases h with h | h
    · exact h ▸ ({} : LoggingSettings).maxSizeMb_pos
    · exact h ▸ ({} : LoggingSettings).backupCount_pos
  | some v => exact h.elim And.right And.right

/-- Settings can be made of what every single one comes to. -/
theorem exists_settings {given : Leaf → Option Value}
    (h : ∀ leaf : Leaf, ∃ x, leaf.Yields (given leaf) x) :
    ∃ s : ConsoleSettings, ∀ leaf : Leaf, leaf.Yields (given leaf) (leaf.of s) := by
  choose x hx using h
  refine ⟨⟨⟨x .preset⟩, x .widgets, ⟨x .level, x .file, x .maxSizeMb, x .backupCount,
    Leaf.Yields.pos (Or.inl (hx .maxSizeMb)), Leaf.Yields.pos (Or.inr (hx .backupCount))⟩,
    (hx .widgets).nodup⟩, ?_⟩
  intro leaf
  cases leaf with
  | preset => exact hx .preset
  | widgets => exact hx .widgets
  | level => exact hx .level
  | file => exact hx .file
  | maxSizeMb => exact hx .maxSizeMb
  | backupCount => exact hx .backupCount

end AgentControl
