import AgentControl.Proofs.Settings.Leaf
import AgentControl.Settings.Load

/-! # Where a setting comes from

Every single setting comes from the override of its key, else from what the file holds on its path,
else it has its default. No setting depends on what is given for another one; only a section that is
no mapping, and that no override makes way for, spoils the whole.
-/

namespace AgentControl

open Value (Entries under)

/-- The value of a setting: its override, else what a file holds for it. -/
def Leaf.effective (leaf : Leaf) (os : Overrides) (entries : Entries) : Option Value :=
  (os.given leaf.key).or (under leaf.path (.dict entries))

/-- An override gives a setting of a section. -/
def Overrides.Addresses (os : Overrides) (name : String) : Prop :=
  ∃ o ∈ os, ∃ leaf : Leaf, leaf.section? = some name ∧ o.1 = leaf.key

/-! ## Under overrides -/

section

variable {os : Overrides} {es : Entries} {leaf : Leaf} {name : String} {v : Value}

theorem under_assign_leaf {other : Leaf} :
    under leaf.path (.dict (Overrides.assign other.path v es)) =
      if leaf = other then some v else under leaf.path (.dict es) := by
  split
  · next h =>
    subst h
    exact Overrides.under_assign_self leaf.path_ne_nil
  · next h => exact Overrides.under_assign_of_unrelated (Leaf.unrelated (Ne.symm h))

/-- An override changes its own setting only, and of several the last counts. -/
theorem under_apply (ho : ∀ o ∈ os, ∃ leaf : Leaf, o.1 = leaf.key) :
    under leaf.path (.dict (os.apply es)) = leaf.effective os es := by
  induction os generalizing es with
  | nil => rfl
  | cons o os ih =>
    obtain ⟨⟨other, hk⟩, ho⟩ := List.forall_mem_cons.mp ho
    rw [Overrides.apply_cons, ih ho, Leaf.effective, Leaf.effective, Overrides.given_cons, hk,
      Leaf.keyPath_key, under_assign_leaf, Option.or_assoc]
    congr 1
    by_cases h : leaf = other
    · rw [if_pos h, if_pos (congrArg Leaf.key h), Option.some_or]
    · rw [if_neg h, if_neg fun hk => h (Leaf.key_injective hk), Option.none_or]

theorem isSection_assign (hn : name ∈ sections) :
    IsSection (Value.lookup name (Overrides.assign leaf.path v es)) ↔
      leaf.section? = some name ∨ IsSection (Value.lookup name es) := by
  by_cases h : leaf.section? = some name
  · obtain ⟨next, hp⟩ := Leaf.path_of_section? h
    have hs : ∃ fs, under [name] (.dict (Overrides.assign ([name] ++ [next]) v es)) =
        some (.dict fs) :=
      Overrides.under_assign_of_prefix (List.cons_ne_nil next [])
    rw [List.singleton_append, ← hp, Value.under_singleton] at hs
    obtain ⟨fs, hf⟩ := hs
    rw [hf]
    exact iff_of_true isSection_dict (Or.inl h)
  · have hu : under [name] (.dict (Overrides.assign leaf.path v es)) = under [name] (.dict es) :=
      Overrides.under_assign_of_unrelated (Leaf.unrelated_section h hn)
    rw [Value.under_singleton, Value.under_singleton] at hu
    rw [hu, or_iff_right h]

/-- An override makes a section of what it gives a setting in, and leaves the other sections. -/
theorem isSection_apply (ho : ∀ o ∈ os, ∃ leaf : Leaf, o.1 = leaf.key) (hn : name ∈ sections) :
    IsSection (Value.lookup name (os.apply es)) ↔
      os.Addresses name ∨ IsSection (Value.lookup name es) := by
  induction os generalizing es with
  | nil => simp [Overrides.apply, Overrides.Addresses]
  | cons o os ih =>
    obtain ⟨⟨leaf, hk⟩, ho⟩ := List.forall_mem_cons.mp ho
    have ha : Overrides.Addresses (o :: os) name ↔
        leaf.section? = some name ∨ Overrides.Addresses os name := by
      simp only [Overrides.Addresses, List.mem_cons, exists_eq_or_imp]
      refine or_congr ⟨?_, fun h => ⟨leaf, h, hk⟩⟩ Iff.rfl
      rintro ⟨other, h, he⟩
      rwa [Leaf.key_injective (hk.symm.trans he)]
    rw [Overrides.apply_cons, ih ho, hk, Leaf.keyPath_key, isSection_assign hn, ha]
    tauto

end

/-! ## Loading -/

namespace Settings

variable {disk : Disk} {name : Option String} {os : Overrides} {entries : Entries}
  {s : ConsoleSettings}

/-- The file that a name stands for. -/
def fileOf : Option String → String
  | none | some "" => defaultFile
  | some name => name

theorem load_eq : load disk name os =
    match ofFile disk (fileOf name) with
    | .error fault => .error (.unread fault)
    | .ok entries =>
        match (ConsoleSettings.ofEntries (os.apply entries)).report .console with
        | .ok settings => .ok settings
        | .error report => .error (.invalid (fileOf name) report) := rfl

theorem load_eq_ok_iff (hf : ofFile disk (fileOf name) = .ok entries) :
    load disk name os = .ok s ↔ ConsoleSettings.ofEntries (os.apply entries) = .ok s := by
  simp only [load_eq, hf]
  cases ConsoleSettings.ofEntries (os.apply entries) <;> simp [Checked.report]

theorem load_eq_ok_iff_yields (hf : ofFile disk (fileOf name) = .ok entries)
    (ho : ∀ o ∈ os, ∃ leaf : Leaf, o.1 = leaf.key) :
    load disk name os = .ok s ↔
      (∀ sec ∈ sections, os.Addresses sec ∨ IsSection (Value.lookup sec entries)) ∧
        ∀ leaf : Leaf, leaf.Yields (leaf.effective os entries) (leaf.of s) := by
  rw [load_eq_ok_iff hf, ConsoleSettings.ofEntries_eq_ok_iff]
  refine and_congr (forall₂_congr fun _ hn => isSection_apply ho hn) (forall_congr' fun leaf => ?_)
  rw [under_apply ho]

/-- Loading succeeds where every setting has a valid value and every section is one, and then every
setting holds what its own value comes to. -/
theorem load_leaf_by_leaf (hf : ofFile disk (fileOf name) = .ok entries)
    (ho : ∀ o ∈ os, ∃ leaf : Leaf, o.1 = leaf.key) :
    ((∃ s, load disk name os = .ok s) ↔
      (∀ leaf : Leaf, ∃ x, leaf.Yields (leaf.effective os entries) x) ∧
        ∀ sec ∈ sections, ¬ os.Addresses sec → IsSection (Value.lookup sec entries)) ∧
    ∀ s, load disk name os = .ok s →
      ∀ leaf : Leaf, leaf.Yields (leaf.effective os entries) (leaf.of s) := by
  have hy (s : ConsoleSettings) := load_eq_ok_iff_yields (s := s) hf ho
  constructor
  · constructor
    · rintro ⟨s, hs⟩
      obtain ⟨hsec, hl⟩ := (hy s).mp hs
      exact ⟨fun leaf => ⟨_, hl leaf⟩, fun n hn ha => (hsec n hn).resolve_left ha⟩
    · rintro ⟨hl, hsec⟩
      obtain ⟨s, hs⟩ := exists_settings hl
      exact ⟨s, (hy s).mpr ⟨fun n hn => or_iff_not_imp_left.mpr (hsec n hn), hs⟩⟩
  · intro s hs
    exact ((hy s).mp hs).2

/-- A disk with one file in the directory that a program works in. -/
def diskOf (name text : String) : Disk :=
  ⟨["home"], ["home"], [(["home"], .directory), (["home", name], .file ⟨[], text⟩)]⟩

/-- A file of which only two settings are of use. -/
def mixedText : String :=
  "theme: 7\nwidgets: [Label, Label]\n" ++
    "logging: \x7blevel: loud, file: a.log, max_size_mb: 50, backup_count: many\x7d\n"

def mixedOverrides : Overrides :=
  [("logging.level", .str "debug"), ("theme.preset", .str "  nord "),
    ("logging.backup_count", .str " 07.0 "), ("widgets", .list [.str "Select"])]

def mixedEntries : Entries :=
  [(.str "theme", .int 7), (.str "widgets", .list [.str "Label", .str "Label"]),
    (.str "logging", .dict [(.str "level", .str "loud"), (.str "file", .str "a.log"),
      (.str "max_size_mb", .int 50), (.str "backup_count", .str "many")])]

/-- Whether a file was read as the mixed entries; values cannot be compared by
deciding their equality. -/
def isMixed : Except LoadFault Entries → Bool
  | .ok [(.str "theme", .int 7), (.str "widgets", .list [.str "Label", .str "Label"]),
      (.str "logging", .dict [(.str "level", .str "loud"), (.str "file", .str "a.log"),
        (.str "max_size_mb", .int 50), (.str "backup_count", .str "many")])] => true
  | _ => false

theorem eq_of_isMixed {r : Except LoadFault Entries} (h : isMixed r = true) :
    r = .ok mixedEntries := by
  unfold isMixed at h
  split at h
  · rfl
  · cases h

theorem ofFile_mixed : ofFile (diskOf "console.yaml" mixedText) "console.yaml" = .ok mixedEntries :=
  eq_of_isMixed (by decide +kernel)

theorem load_leaf_by_leaf_mixed :
    ofFile (diskOf "console.yaml" mixedText) (fileOf (some "console.yaml")) = .ok mixedEntries ∧
      (∀ o ∈ mixedOverrides, ∃ leaf : Leaf, o.1 = leaf.key) ∧
      ∃ s, load (diskOf "console.yaml" mixedText) (some "console.yaml") mixedOverrides = .ok s ∧
        s.theme.preset = "nord" ∧ s.widgets = ["Select"] ∧ s.logging.level = .debug ∧
        s.logging.file = "a.log" ∧ s.logging.maxSizeMb = 50 ∧ s.logging.backupCount = 7 := by
  have ho : ∀ o ∈ mixedOverrides, ∃ leaf : Leaf, o.1 = leaf.key := by
    simp only [mixedOverrides, List.forall_mem_cons, List.not_mem_nil, false_imp_iff, implies_true,
      and_true]
    exact ⟨⟨.level, rfl⟩, ⟨.preset, rfl⟩, ⟨.backupCount, rfl⟩, ⟨.widgets, rfl⟩⟩
  obtain ⟨hok, hl⟩ := @load_leaf_by_leaf _ (some "console.yaml") _ _ ofFile_mixed ho
  have hvalid : ∀ leaf : Leaf, ∃ x, leaf.Yields (leaf.effective mixedOverrides mixedEntries) x := by
    intro leaf
    cases leaf with
    | preset => exact ⟨"nord", "  nord ", .text, by decide, by decide⟩
    | widgets => exact ⟨["Select"], [.str "Select"], rfl, .cons .text .nil, by decide⟩
    | level => exact ⟨.debug, rfl⟩
    | file => exact ⟨"a.log", .text⟩
    | maxSizeMb => exact ⟨(50 : ℕ), .int, by decide⟩
    | backupCount => exact ⟨(7 : ℕ), wholeNumber_eq_ok_iff.mp rfl, by decide⟩
  have hsections : ∀ name ∈ sections, ¬ mixedOverrides.Addresses name →
      IsSection (Value.lookup name mixedEntries) := by
    refine List.forall_mem_cons.mpr ⟨fun ha => ?_, List.forall_mem_singleton.mpr fun _ => ?_⟩
    · exact absurd ⟨_, List.mem_cons_of_mem _ List.mem_cons_self, .preset, rfl, rfl⟩ ha
    · exact isSection_dict
  obtain ⟨s, hs⟩ := hok.mpr ⟨hvalid, hsections⟩
  have hpreset : PresetOf (.str "  nord ") s.theme.preset := hl s hs .preset
  have hwidgets : NamesOf (.list [.str "Select"]) s.widgets := hl s hs .widgets
  have hlevel : Value.str "debug" = .str s.logging.level.name := hl s hs .level
  have hfile : TextOf (.str "a.log") s.logging.file := hl s hs .file
  have hsize : PositiveOf (.int 50) s.logging.maxSizeMb := hl s hs .maxSizeMb
  have hbackups : PositiveOf (.str " 07.0 ") s.logging.backupCount := hl s hs .backupCount
  refine ⟨ofFile_mixed, ho, s, hs, ?_, ?_, ?_, ?_, ?_, ?_⟩
  · obtain ⟨_, ⟨⟩, hp, -⟩ := hpreset
    rw [← hp]
    decide
  · obtain ⟨_, ⟨⟩, hn, -⟩ := hwidgets
    obtain ⟨_, _, ⟨⟩, ⟨⟩, hw⟩ := List.forall₂_cons_left_iff.mp hn
    exact hw
  · revert hlevel
    cases s.logging.level <;> simp [Severity.name]
  · exact (Except.ok.inj (checkText_eq_ok_iff.mpr hfile)).symm
  · have hn : Except.ok 50 = .ok (s.logging.maxSizeMb : ℤ) := wholeNumber_eq_ok_iff.mpr hsize.1
    exact_mod_cast (Except.ok.inj hn).symm
  · have hr : wholeNumber (.str " 07.0 ") = .ok 7 := rfl
    have hn := wholeNumber_eq_ok_iff.mpr hbackups.1
    exact_mod_cast Except.ok.inj (hn.symm.trans hr)

/-- A mapping that holds itself is a section like any other. -/
example : (load (diskOf "console.yaml" "&all\ntheme: *all\npreset: nord\n") (some "console.yaml")
    []).toOption.map (fun s => s.theme.preset) = some "nord" := by
  decide +kernel

end Settings

end AgentControl
