import AgentControl.Console.Launch
import AgentControl.Proofs.Console.Setup

/-! # Launching a console

Settings come to a console that is ready to start, or to the first thing in them that stands for
nothing: the theme before the widgets, and these in their order. Widget names are distinct in
settings, so no name is ever registered twice.
-/

namespace AgentControl

/-! ## Themes and widgets by name -/

namespace Theme

variable {n : String} {t : Theme} {ts : List Theme}

/-- The theme of a name: a preset of the console, else a theme of the toolkit. -/
inductive Named : String → Theme → Prop where
  | own {t : Theme} : t ∈ presets → Named t.name t
  | toolkit {t : Theme} : t.name ∉ presets.map (·.name) → t ∈ builtIn → Named t.name t

theorem Named.mem_names (h : Named n t) : n ∈ names := by
  cases h with
  | own hm => exact List.mem_map_of_mem (List.mem_append_left _ hm)
  | toolkit _ hm => exact List.mem_map_of_mem (List.mem_append_right _ hm)

theorem find?_name_iff (hd : (ts.map (·.name)).Nodup) :
    ts.find? (·.name == n) = some t ↔ t ∈ ts ∧ t.name = n := by
  constructor
  · intro h
    exact ⟨List.mem_of_find?_eq_some h, beq_iff_eq.mp (List.find?_some h :)⟩
  · rintro ⟨hm, rfl⟩
    cases hf : ts.find? (·.name == t.name) with
    | none => exact absurd (beq_self_eq_true t.name) (List.find?_eq_none.mp hf t hm)
    | some u =>
      have hu : u.name = t.name := beq_iff_eq.mp (List.find?_some hf :)
      exact congrArg some (List.inj_on_of_nodup_map hd (List.mem_of_find?_eq_some hf) hm hu)

theorem find?_name_eq_none_iff : ts.find? (·.name == n) = none ↔ n ∉ ts.map (·.name) := by
  simp

theorem named?_iff : named? n = some t ↔ Named n t := by
  have hp : (presets.map (·.name)).Nodup := by decide
  have hb : (builtIn.map (·.name)).Nodup := by decide
  rw [named?, List.find?_append, Option.or_eq_some_iff, find?_name_iff hp, find?_name_iff hb,
    find?_name_eq_none_iff]
  constructor
  · rintro (⟨hm, rfl⟩ | ⟨hn, hm, rfl⟩)
    · exact .own hm
    · exact .toolkit hn hm
  · rintro (hm | ⟨hn, hm⟩)
    · exact Or.inl ⟨hm, rfl⟩
    · exact Or.inr ⟨hn, hm, rfl⟩

theorem named?_eq_none_iff : named? n = none ↔ n ∉ names := find?_name_eq_none_iff

end Theme

namespace WidgetKind

variable {name : String} {kind : WidgetKind}

/-- The catalog has a widget of this name. -/
def Known (name : String) : Prop := name ∈ catalog.map (·.1)

instance : Decidable (Known name) := inferInstanceAs (Decidable (name ∈ _))

theorem sorted_catalog : Text.sorted (catalog.map (·.1)) = catalog.map (·.1) :=
  List.mergeSort_of_pairwise (by decide +kernel)

/-- The first of several names that is not in the catalog. -/
def FirstUnknown (names : List String) (name : String) : Prop :=
  ∃ known rest, names = known ++ name :: rest ∧ (∀ w ∈ known, Known w) ∧ ¬ Known name

theorem FirstUnknown.not_forall_known {names : List String} (h : FirstUnknown names name) :
    ¬ ∀ w ∈ names, Known w := by
  obtain ⟨known, rest, rfl, -, hn⟩ := h
  exact fun hk => hn (hk name (List.mem_append_right _ List.mem_cons_self))

theorem firstUnknown_iff {names : List String} :
    FirstUnknown names name ↔ names.find? (fun w => ¬ Known w) = some name := by
  simp only [List.find?_eq_some_iff_append, FirstUnknown, decide_eq_true_eq, Bool.not_eq_true',
    decide_eq_false_iff_not, not_not]
  constructor
  · rintro ⟨known, rest, hs, hk, hn⟩
    exact ⟨hn, known, rest, hs, hk⟩
  · rintro ⟨hn, known, rest, hs, hk⟩
    exact ⟨known, rest, hs, hk, hn⟩

theorem known_or_firstUnknown (names : List String) :
    (∀ name ∈ names, Known name) ∨ ∃ name, FirstUnknown names name := by
  cases h : names.find? (fun w => ¬ Known w) with
  | none => exact Or.inl (by simpa using h)
  | some name => exact Or.inr ⟨name, firstUnknown_iff.mpr h⟩

theorem mem_catalog_of_named? (h : named? name = some kind) : (name, kind) ∈ catalog := by
  obtain ⟨l, r, hc, -⟩ := List.lookup_eq_some_iff.mp h
  rw [hc]
  simp

theorem named?_eq_none_iff : named? name = none ↔ ¬ Known name := by
  rw [named?, List.lookup_eq_none_iff]
  simp only [bne_iff_ne, ne_eq, Known, List.mem_map, not_exists, not_and]
  exact forall₂_congr fun _ _ => not_congr eq_comm

theorem exists_named? (h : Known name) : ∃ kind, named? name = some kind :=
  Option.ne_none_iff_exists'.mp fun hn => named?_eq_none_iff.mp hn h

end WidgetKind

namespace Console

variable {s : Console} {name : String} {names rest : List String} {records : List LogRecord}
  {ws : List (String × WidgetKind)} {settings : ConsoleSettings} {t : Theme}

/-! ## Registering in order -/

/-- The kinds that the catalog has for names, in their order. -/
structure Catalogued (names : List String) (ws : List (String × WidgetKind)) : Prop where
  names : ws.map (·.1) = names
  kinds : ∀ entry ∈ ws, entry ∈ WidgetKind.catalog

theorem Catalogued.known (h : Catalogued names ws) : ∀ name ∈ names, WidgetKind.Known name := by
  intro name hn
  rw [← h.names] at hn
  obtain ⟨entry, he, rfl⟩ := List.mem_map.mp hn
  exact List.mem_map_of_mem (h.kinds entry he)

def registration (entry : String × WidgetKind) : LogRecord :=
  .debug logger ("Widget '" ++ entry.1 ++ "' registered as " ++ entry.2.className)

theorem run_console {α : Type} (steps : Console → Setup α) :
    (Setup.console >>= steps).run.run (s, records) = (steps s).run.run (s, records) := rfl

theorem register_free {kind : WidgetKind} (hf : s.widgets.lookup name = none) :
    (register name kind).run.run (s, records) =
      (.ok (), { s with widgets := s.widgets ++ [(name, kind)] },
        records ++ [registration (name, kind)]) := by
  rw [register, run_console, hf]
  rfl

theorem registerAll_cons {kind : WidgetKind} (hk : WidgetKind.named? name = some kind)
    (hf : s.widgets.lookup name = none) :
    (registerAll (name :: rest)).run.run (s, records) =
      (registerAll rest).run.run ({ s with widgets := s.widgets ++ [(name, kind)] },
        records ++ [registration (name, kind)]) := by
  simp only [registerAll, hk]
  rw [ExceptT.run_bind, StateT.run_bind, register_free hf]
  rfl

theorem registerAll_unknown (h : ¬ WidgetKind.Known name) :
    (registerAll (name :: rest)).run.run (s, records) =
      (.error (.noWidget name (WidgetKind.catalog.map (·.1))), s, records) := by
  simp only [registerAll, WidgetKind.named?_eq_none_iff.mpr h]
  rfl

/-- Names of the catalog that are still free are registered one behind the other. -/
theorem registerAll_append (s : Console) (rest : List String) (records : List LogRecord)
    (hn : names.Nodup) (hk : ∀ name ∈ names, WidgetKind.Known name)
    (hf : ∀ name ∈ names, s.widgets.lookup name = none) :
    ∃ ws, Catalogued names ws ∧
      (registerAll (names ++ rest)).run.run (s, records) =
        (registerAll rest).run.run ({ s with widgets := s.widgets ++ ws },
          records ++ ws.map registration) := by
  induction names generalizing s records with
  | nil => exact ⟨[], ⟨rfl, by simp⟩, by simp⟩
  | cons name names ih =>
    obtain ⟨hm, hn⟩ := List.nodup_cons.mp hn
    obtain ⟨hk₁, hk⟩ := List.forall_mem_cons.mp hk
    obtain ⟨hf₁, hf⟩ := List.forall_mem_cons.mp hf
    obtain ⟨kind, hkind⟩ := WidgetKind.exists_named? hk₁
    have hfree : ∀ w ∈ names, (s.widgets ++ [(name, kind)]).lookup w = none := by
      intro w hw
      have hne : name ≠ w := fun he => hm (he ▸ hw)
      rw [List.lookup_append, hf w hw, lookup_singleton, Call.kind?, if_neg hne]
      rfl
    obtain ⟨ws, hws, he⟩ := ih { s with widgets := s.widgets ++ [(name, kind)] }
      (records ++ [registration (name, kind)]) hn hk hfree
    refine ⟨(name, kind) :: ws, ⟨congrArg (name :: ·) hws.names, ?_⟩, ?_⟩
    · exact List.forall_mem_cons.mpr ⟨WidgetKind.mem_catalog_of_named? hkind, hws.kinds⟩
    · rw [List.cons_append, registerAll_cons hkind hf₁, he]
      simp

/-! ## What settings come to -/

/-- A console that is set up as settings describe it and has not been started. -/
structure Prepared (settings : ConsoleSettings) (t : Theme) (s : Console) : Prop where
  preset : s.preset = some t
  widgets : Catalogued settings.widgets s.widgets
  mountTarget : s.mountTarget = some Selector.anchor
  mountCount : s.mountCount = 0
  startupError : s.startupError = none

/-- What launching settings comes to: a console, or the first name that stands for nothing. -/
inductive Launched (settings : ConsoleSettings) : Except StartupError Console → Prop where
  | noTheme : settings.theme.preset ∉ Theme.names →
      Launched settings (.error (.noTheme settings.theme.preset Theme.names))
  | noWidget {t : Theme} {name : String} : Theme.Named settings.theme.preset t →
      WidgetKind.FirstUnknown settings.widgets name →
      Launched settings (.error (.noWidget name (WidgetKind.catalog.map (·.1))))
  | ready {t : Theme} {s : Console} : Theme.Named settings.theme.preset t →
      Prepared settings t s → Launched settings (.ok s)

theorem follow_of_none (h : Theme.named? settings.theme.preset = none) :
    (ofSettings settings).1 = .error (.noTheme settings.theme.preset Theme.names) := by
  simp only [ofSettings, attempt, follow, Theme.resolve, h]
  rfl

/-- The console once its theme is taken over. -/
def themed (t : Theme) : Console := { preset := some t, themes := addTheme t Theme.builtIn }

def adoption (t : Theme) : LogRecord := .debug logger ("Theme preset '" ++ t.name ++ "' registered")

theorem follow_of_some (h : Theme.named? settings.theme.preset = some t) :
    ({} : Console).attempt (follow settings) =
      (do registerAll settings.widgets; mountRoot Selector.anchor).run.run
        (themed t, [adoption t]) := by
  simp only [attempt, follow, Theme.resolve, h]
  rfl

theorem launched_of_known (h : Theme.named? settings.theme.preset = some t)
    (hk : ∀ name ∈ settings.widgets, WidgetKind.Known name) :
    ∃ s, (ofSettings settings).1 = .ok s ∧ Prepared settings t s := by
  obtain ⟨ws, hws, he⟩ := registerAll_append (themed t) [] [adoption t] settings.widgets_nodup hk
    (fun _ _ => rfl)
  rw [List.append_nil] at he
  refine ⟨{ themed t with widgets := ws, mountTarget := some Selector.anchor }, ?_,
    rfl, hws, rfl, rfl, rfl⟩
  rw [ofSettings, follow_of_some h, ExceptT.run_bind, StateT.run_bind, he]
  rfl

theorem launched_of_firstUnknown (h : Theme.named? settings.theme.preset = some t)
    (hu : WidgetKind.FirstUnknown settings.widgets name) :
    (ofSettings settings).1 = .error (.noWidget name (WidgetKind.catalog.map (·.1))) := by
  obtain ⟨known, rest, hs, hk, hn⟩ := hu
  have hd : known.Nodup := (List.nodup_append.mp (hs ▸ settings.widgets_nodup)).1
  obtain ⟨ws, -, he⟩ := registerAll_append (themed t) (name :: rest) [adoption t] hd hk
    (fun _ _ => rfl)
  rw [registerAll_unknown hn, ← hs] at he
  rw [ofSettings, follow_of_some h, ExceptT.run_bind, StateT.run_bind, he]
  rfl

theorem launched (settings : ConsoleSettings) : Launched settings (ofSettings settings).1 := by
  cases h : Theme.named? settings.theme.preset with
  | none =>
    rw [follow_of_none h]
    exact .noTheme (Theme.named?_eq_none_iff.mp h)
  | some t =>
    rcases WidgetKind.known_or_firstUnknown settings.widgets with hk | ⟨name, hu⟩
    · obtain ⟨s, hs, hp⟩ := launched_of_known h hk
      rw [hs]
      exact .ready (Theme.named?_iff.mp h) hp
    · rw [launched_of_firstUnknown h hu]
      exact .noWidget (Theme.named?_iff.mp h) hu

/-- Launching ends in one of three ways. A name that is registered already, a second mount and an
option that is not recognised are not among them. -/
theorem launched_ofSettings (settings : ConsoleSettings) :
    Launched settings (ofSettings settings).1 ∧
      ∀ e, (ofSettings settings).1 = .error e → (∀ name, e ≠ .alreadyRegistered name) ∧
        (∀ anchor, e ≠ .alreadyMounted anchor) ∧
          ∀ option reason, e ≠ .unsupportedOption option reason := by
  have h := launched settings
  refine ⟨h, ?_⟩
  intro e he
  rw [he] at h
  cases h with
  | noTheme => exact ⟨nofun, nofun, nofun⟩
  | noWidget => exact ⟨nofun, nofun, nofun⟩

end Console
end AgentControl
