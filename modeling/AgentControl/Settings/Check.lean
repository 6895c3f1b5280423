import AgentControl.Settings.Basic
import AgentControl.Decimal.Lenient
import AgentControl.Issue
import AgentControl.Text.Sorted

/-! # Checking console settings

A mapping becomes settings section by section, each missing setting by its default. Settings are
read leniently: a text may come as bytes, an integer as any number or text that is whole, a list as
any sequence of members. All that is wrong is reported.
-/

namespace AgentControl

open Value (Entries)

variable {α : Type}

/-- A setting, or its default. -/
def setting (name : String) (default : α) (check : Value → Checked α) (entries : Entries) :
    Checked α :=
  match Value.lookup name entries with
  | some v => (check v).within (.key name)
  | none => .ok default

def checkText (v : Value) : Checked String :=
  match v with
  | .str s => .ok s
  | .level l => .ok l.name
  | .bytes bs =>
      match Utf8.decode? bs with
      | some s => .ok s
      | none => Checked.fail .notUtf8 v
  | _ => Checked.fail .notString v

/-- A preset has blanks around it dropped, and something has to be left. -/
def checkPreset (v : Value) : Checked String :=
  match checkText v with
  | .error is => .error is
  | .ok s =>
      let preset := Text.strip s
      if preset = "" then Checked.fail (.refused .emptyPreset) v else .ok preset

/-- A severity by its exact name. -/
def checkSeverity (v : Value) : Checked Severity :=
  match v with
  | .str s =>
      match Severity.ofName? s with
      | some l => .ok l
      | none => Checked.fail .notSeverity v
  | _ => Checked.fail .notSeverity v

def lenientCause : Decimal.Lenient.Fault → Cause
  | .unreadable => .unreadableInteger
  | .tooLong => .integerTooLong
  | .fraction => .fraction
  | .notFinite => .notFinite

/-- The integer that a value is or writes. -/
def wholeNumber (v : Value) : Except Cause Int :=
  let read (cs : List Char) : Except Cause Int := (Decimal.Lenient.parse cs).mapError lenientCause
  match v with
  | .bool b => .ok (if b then 1 else 0)
  | .int n => .ok n
  | .float x => (Decimal.Lenient.ofFloat x).mapError lenientCause
  | .str s => read s.toList
  | .level l => read l.name.toList
  | .bytes bs =>
      match Utf8.decode bs with
      | .ok cs => read cs
      | .error _ => .error .unreadableInteger
  | _ => .error .notInteger

def positiveOf? (n : Int) : Option { k : Nat // 0 < k } :=
  if h : 0 < n.toNat then some ⟨n.toNat, h⟩ else none

def checkPositive (v : Value) : Checked { k : Nat // 0 < k } :=
  match wholeNumber v with
  | .error cause => Checked.fail cause v
  | .ok n =>
      match positiveOf? n with
      | some k => .ok k
      | none => Checked.fail (.refused .notPositive) v

/-! ## Widgets -/

/-- The members of a list, a tuple or a set. -/
def members? : Value → Option (List Value)
  | .list xs | .tuple xs | .set xs => some xs
  | _ => none

/-- Every member's text, the first member at place `i`. -/
def checkTexts (i : Nat) : List Value → Checked (List String)
  | [] => .ok []
  | v :: vs =>
      (((checkText v).within (.index i)).both (checkTexts (i + 1) vs)).map fun (s, ss) => s :: ss

/-- The names that occur more than once, each once. -/
def repeatedNames (names : List String) : List String :=
  (names.filter fun n => 1 < names.count n).eraseDups

theorem mem_repeatedNames {names : List String} {n : String} :
    n ∈ repeatedNames names ↔ 1 < names.count n := by
  rw [repeatedNames, List.mem_eraseDups, List.mem_filter, decide_eq_true_iff]
  exact and_iff_right_of_imp fun h => List.count_pos_iff.mp (by omega)

theorem repeatedNames_eq_nil_iff {names : List String} :
    repeatedNames names = [] ↔ names.Nodup := by
  simp only [List.eq_nil_iff_forall_not_mem, mem_repeatedNames, Nat.not_lt, List.nodup_iff_count]

/-- The names as they are, unless some are repeated; these are reported in order of their
characters. -/
def distinctWidgets (names : List String) : Except Refusal { ws : List String // ws.Nodup } :=
  if h : repeatedNames names = [] then .ok ⟨names, repeatedNames_eq_nil_iff.mp h⟩
  else .error (.duplicateWidgets (Text.sorted (repeatedNames names)))

def checkWidgets (v : Value) : Checked { ws : List String // ws.Nodup } :=
  match members? v with
  | none => Checked.fail .notList v
  | some vs =>
      match checkTexts 0 vs with
      | .error is => .error is
      | .ok names =>
          match distinctWidgets names with
          | .ok ws => .ok ws
          | .error why => Checked.fail (.refused why) v

/-! ## Sections -/

def ofMapping (model : Model) (check : Entries → Checked α) (v : Value) : Checked α :=
  match v with
  | .dict entries => check entries
  | _ => Checked.fail (.notModel model) v

def ThemeSettings.ofEntries (entries : Entries) : Checked ThemeSettings :=
  (setting "preset" ({} : ThemeSettings).preset checkPreset entries).map fun preset => ⟨preset⟩

def LoggingSettings.ofEntries (entries : Entries) : Checked LoggingSettings :=
  let usual : LoggingSettings := {}
  match (setting "level" usual.level checkSeverity entries).both
      ((setting "file" usual.file checkText entries).both
        ((setting "max_size_mb" ⟨usual.maxSizeMb, usual.maxSizeMb_pos⟩ checkPositive entries).both
          (setting "backup_count" ⟨usual.backupCount, usual.backupCount_pos⟩ checkPositive
            entries))) with
  | .ok (level, file, size, backups) => .ok ⟨level, file, size.1, backups.1, size.2, backups.2⟩
  | .error is => .error is

def ThemeSettings.check : Value → Checked ThemeSettings := ofMapping .theme ofEntries

def LoggingSettings.check : Value → Checked LoggingSettings := ofMapping .logging ofEntries

def ConsoleSettings.ofEntries (entries : Entries) : Checked ConsoleSettings :=
  let usual : ConsoleSettings := {}
  match (setting "theme" usual.theme ThemeSettings.check entries).both
      ((setting "widgets" ⟨usual.widgets, usual.widgets_nodup⟩ checkWidgets entries).both
        (setting "logging" usual.logging LoggingSettings.check entries)) with
  | .ok (theme, widgets, logging) => .ok ⟨theme, widgets.1, logging, widgets.2⟩
  | .error is => .error is

def ConsoleSettings.check : Value → Checked ConsoleSettings := ofMapping .console ofEntries

end AgentControl
