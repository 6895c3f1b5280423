import AgentControl.CommandLine.Run
import AgentControl.Proofs.CommandLine.Words
import AgentControl.Proofs.Console.Launch
import AgentControl.Proofs.Console.Start
import AgentControl.Proofs.Log.Setup
import AgentControl.Proofs.Settings.Precedence

/-! # The console from the command line

How a command line that asks for the console ends: refused before anything is touched where its
settings cannot be loaded, else with the log set up first, and then by whether the theme and the
widgets stand for anything.
-/

namespace AgentControl.CommandLine

variable {env : Surroundings} {disk d : Disk} {logs : LogSystem} {words parts : List String}
  {config theme : Option String} {widgets : List String} {verbose : Bool} {os : Overrides}
  {settings : ConsoleSettings} {console : Console} {fault : Settings.Fault}

/-! ## Options and the settings they override -/

/-- Overrides are of the preset and the widgets, each of them where an option gives it. -/
structure GivenBy (theme : Option String) (widgets : List String) (os : Overrides) : Prop where
  keys : ∀ o ∈ os, o.1 = Leaf.preset.key ∨ o.1 = Leaf.widgets.key
  preset : ∀ v, os.given Leaf.preset.key = some v ↔ ∃ name, theme = some name ∧ name ≠ "" ∧
    v = .str name
  widgets : ∀ v, os.given Leaf.widgets.key = some v ↔ widgets ≠ [] ∧ v = .list (widgets.map .str)

theorem GivenBy.leaf (h : GivenBy theme widgets os) : ∀ o ∈ os, ∃ leaf : Leaf, o.1 = leaf.key :=
  fun o ho => (h.keys o ho).elim (⟨_, ·⟩) (⟨_, ·⟩)

theorem overridesOf_none : overridesOf none widgets = overridesOf (some "") widgets := rfl

theorem overridesOf_of_ne {name : String} (h : name ≠ "") :
    overridesOf (some name) widgets = (Leaf.preset.key, .str name) :: overridesOf none widgets := by
  unfold overridesOf
  split
  · next he => cases he
  · next he => exact absurd (Option.some.inj he) h
  · next he =>
    obtain rfl := Option.some.inj he
    rfl

theorem givenBy_overridesOf_none : GivenBy none widgets (overridesOf none widgets) := by
  cases widgets with
  | nil => exact ⟨by simp [overridesOf], by simp [overridesOf, Overrides.given],
      by simp [overridesOf, Overrides.given]⟩
  | cons w ws =>
    refine ⟨by simp [overridesOf, Leaf.key], ?_, ?_⟩
    · simp [overridesOf, Overrides.given, Leaf.key, lookup_cons_ite]
    · simp [overridesOf, Overrides.given, Leaf.key, eq_comm]

theorem givenBy_overridesOf (theme : Option String) (widgets : List String) :
    GivenBy theme widgets (overridesOf theme widgets) := by
  have h : GivenBy none widgets (overridesOf none widgets) := givenBy_overridesOf_none
  cases theme with
  | none => exact h
  | some name =>
    by_cases hn : name = ""
    · subst hn
      refine ⟨h.keys, fun v => ?_, h.widgets⟩
      rw [← overridesOf_none, h.preset v]
      simp
    · rw [overridesOf_of_ne hn]
      have hp : (overridesOf none widgets).given Leaf.preset.key = none := by
        refine Option.eq_none_iff_forall_ne_some.mpr fun v hv => ?_
        obtain ⟨_, ⟨⟩, -⟩ := (h.preset v).mp hv
      refine ⟨List.forall_mem_cons.mpr ⟨Or.inl rfl, h.keys⟩, fun v => ?_, fun v => ?_⟩
      · rw [Overrides.given_cons, hp, Option.none_or, if_pos rfl]
        simp [hn, eq_comm]
      · rw [Overrides.given_cons, if_neg (show Leaf.widgets.key ≠ Leaf.preset.key by decide),
          Option.or_none]
        exact h.widgets v

/-! ## How the command ends -/

/-- The fault is in what a settings file says or in what it is overridden by. -/
def IsReported : Settings.Fault → Prop
  | .unread fault => isReported fault = true
  | .invalid _ _ => True

/-- How the command ends with settings that are loaded and a log that is set up: the console is
handed over, or the first name in the settings that stands for nothing is reported. -/
inductive Ended (env : Surroundings) (logs : LogSystem) (settings : ConsoleSettings) :
    Outcome → Prop where
  | started {console : Console} {before during : List LogRecord} :
      Console.Launched settings (.ok console) →
      Ended env logs settings
        ⟨0, "", "", (logs.logAll env.time before).logAll env.time during,
          some (console, logs.logAll env.time before), none⟩
  | failed {e : StartupError} {records : List LogRecord} :
      Console.Launched settings (.error e) →
      Ended env logs settings
        ⟨1, "", "Error: Console failed to start: " ++ e.message ++ "\n",
          logs.logAll env.time records, none, none⟩

theorem Ended.exitCode_iff {o : Outcome} (h : Ended env logs settings o) :
    o.exitCode = 0 ↔ (∃ t, Theme.Named settings.theme.preset t) ∧
      ∀ name ∈ settings.widgets, WidgetKind.Known name := by
  cases h with
  | started hl =>
    cases hl with
    | ready ht hp => exact iff_of_true rfl ⟨⟨_, ht⟩, hp.widgets.known⟩
  | failed hl =>
    refine iff_of_false Nat.one_ne_zero ?_
    rintro ⟨⟨t, ht⟩, hk⟩
    cases hl with
    | noTheme hn => exact hn ht.mem_names
    | noWidget _ hu => exact hu.not_forall_known hk

theorem launch_ended (hs : logs.screen = "") (hn : LogHandler.screen ∉ logs.handlers)
    (hc : ∀ console, (Console.ofSettings settings).1 = .ok console →
      (env.runConsole console).1.startupError = none) :
    Ended env logs settings (launch env logs settings) := by
  have hl := Console.launched settings
  have hq (records : List LogRecord) : (logs.logAll env.time records).screen = "" := by
    rw [LogSystem.screen_logAll hn, hs]
  unfold launch
  split
  · next e records he =>
    rw [he] at hl
    simp only [Outcome.refused, hq, String.empty_append, ← String.append_assoc]
    exact .failed hl
  · next console records he =>
    rw [he] at hl hc
    have hd : ((logs.logAll env.time records).logAll env.time (env.runConsole console).2).screen =
        "" := by
      rw [← LogSystem.logAll_append, hq]
    simp only [hc console rfl, Outcome.done, hd]
    exact .started hl

theorem run_of_request (h : requestOf disk words = .ok ⟨config, verbose, .ui theme widgets⟩) :
    run env disk words = runConsole env { disk } verbose config (overridesOf theme widgets) := by
  simp only [run, h, perform]

theorem runConsole_of_error (h : Settings.load disk config os = .error fault)
    (hf : IsReported fault) :
    runConsole env { disk } verbose config os =
      ⟨1, "", "Error: " ++ fault.message ++ "\n", { disk }, none, none⟩ := by
  cases fault with
  | unread fault =>
    have hr : isReported fault = true := hf
    simp only [runConsole, h, if_pos hr]
    rfl
  | invalid file report =>
    simp only [runConsole, h]
    rfl

theorem runConsole_of_ok (h : Settings.load disk config os = .ok settings)
    (ho : LogSystem.openLog disk settings.logging.file = (d, .ok parts)) :
    runConsole env { disk } verbose config os =
      launch env (.toFile d parts settings.logging verbose) settings := by
  simp only [runConsole, h, LogSystem.setup_of_open ho]

theorem load_effective (ho : ∀ o ∈ os, ∃ leaf : Leaf, o.1 = leaf.key)
    (h : Settings.load disk config os = .ok settings) :
    ∃ entries, Settings.ofFile disk (Settings.fileOf config) = .ok entries ∧
      ∀ leaf : Leaf, leaf.Yields (leaf.effective os entries) (leaf.of settings) := by
  cases hf : Settings.ofFile disk (Settings.fileOf config) with
  | error fault =>
    simp only [Settings.load_eq, hf] at h
    cases h
  | ok entries => exact ⟨entries, rfl, ((Settings.load_eq_ok_iff_yields hf ho).mp h).2⟩

/-- A console that is asked for with settings that are not loaded leaves everything as it was. With
settings that are, these hold what the options and the file come to, the log is set up first, and
whether the console comes up is up to the names in them. -/
theorem run_ui_ends (hr : requestOf disk words = .ok ⟨config, verbose, .ui theme widgets⟩)
    (hl : ∀ fault, Settings.load disk config (overridesOf theme widgets) = .error fault →
      IsReported fault)
    (ho : ∀ settings, Settings.load disk config (overridesOf theme widgets) = .ok settings →
      ∃ d parts, LogSystem.openLog disk settings.logging.file = (d, .ok parts))
    (hc : ∀ settings console, Settings.load disk config (overridesOf theme widgets) = .ok settings →
      (Console.ofSettings settings).1 = .ok console →
        (env.runConsole console).1.startupError = none) :
    GivenBy theme widgets (overridesOf theme widgets) ∧
      (∀ fault, Settings.load disk config (overridesOf theme widgets) = .error fault →
        run env disk words = ⟨1, "", "Error: " ++ fault.message ++ "\n", { disk }, none, none⟩) ∧
      ∀ settings, Settings.load disk config (overridesOf theme widgets) = .ok settings →
        (∃ entries, Settings.ofFile disk (Settings.fileOf config) = .ok entries ∧
          ∀ leaf : Leaf,
            leaf.Yields (leaf.effective (overridesOf theme widgets) entries) (leaf.of settings)) ∧
        (∃ d parts, LogSystem.openLog disk settings.logging.file = (d, .ok parts) ∧
          Ended env (.toFile d parts settings.logging verbose) settings (run env disk words)) ∧
        ((run env disk words).exitCode = 0 ↔
          (∃ t, Theme.Named settings.theme.preset t) ∧
            ∀ name ∈ settings.widgets, WidgetKind.Known name) := by
  have hg := givenBy_overridesOf theme widgets
  rw [run_of_request hr]
  refine ⟨hg, fun fault h => runConsole_of_error h (hl fault h), fun settings h => ?_⟩
  obtain ⟨d, parts, hd⟩ := ho settings h
  have he : Ended env (.toFile d parts settings.logging verbose) settings
      (runConsole env { disk } verbose config (overridesOf theme widgets)) := by
    rw [runConsole_of_ok h hd]
    exact launch_ended rfl (by simp [LogSystem.toFile]) fun console => hc settings console h
  exact ⟨load_effective hg.leaf h, ⟨d, parts, hd, he⟩, he.exitCode_iff⟩

/-- A console on a terminal. -/
def onTerminal (time : String) : Surroundings :=
  ⟨time, fun console => let ((ended, _), records) := console.run; (ended, records)⟩

theorem startupError_onTerminal (time : String)
    (h : (Console.ofSettings settings).1 = .ok console) :
    ((onTerminal time).runConsole console).1.startupError = none := by
  have hl := Console.launched settings
  rw [h] at hl
  cases hl with
  | ready _ hp =>
    change console.run.1.1.startupError = none
    rw [Console.run_of_anchor hp.mountTarget]
    exact hp.startupError

/-- Settings in which the file, the options and the defaults each have a part. -/
def charted : ConsoleSettings :=
  ⟨⟨"nord"⟩, ["Label", "Chart"], { ConsoleSettings.usual.logging with level := .debug }, by decide⟩

def chartedWords : List String := uiWords (some "console.yaml") (some " nord ") ["Label", "Chart"]

def chartedDisk : Disk := Settings.diskOf "console.yaml" "logging:\n  level: debug\nwidgets: 7\n"

theorem load_charted :
    Settings.load chartedDisk (some "console.yaml")
      (overridesOf (some " nord ") ["Label", "Chart"]) =
      .ok charted := by
  have h : (match Settings.load chartedDisk (some "console.yaml")
        (overridesOf (some " nord ") ["Label", "Chart"]) with
      | .ok settings => settings == charted
      | .error _ => false) = true := by
    decide +kernel
  split at h
  · next settings he => rw [he, eq_of_beq h]
  · cases h

theorem openLog_charted :
    ∃ d parts, LogSystem.openLog chartedDisk charted.logging.file = (d, .ok parts) := by
  have h : (match LogSystem.openLog chartedDisk charted.logging.file with
      | (_, .ok _) => true
      | (_, .error _) => false) = true := by
    decide +kernel
  split at h
  · next d parts he => exact ⟨d, parts, he⟩
  · cases h

theorem run_ui_ends_charted :
    requestOf chartedDisk chartedWords =
        .ok ⟨some "console.yaml", false, .ui (some " nord ") ["Label", "Chart"]⟩ ∧
      (run (onTerminal "2026-01-01 12:00:00") chartedDisk chartedWords).exitCode = 1 ∧
      (run (onTerminal "2026-01-01 12:00:00") chartedDisk chartedWords).stderr =
        "Error: Console failed to start: Unknown widget 'Chart'. " ++
          "Available widgets: Button, InputText, Label, Select, Switch\n" := by
  have hr : requestOf chartedDisk chartedWords =
      .ok ⟨some "console.yaml", false, .ui (some " nord ") ["Label", "Chart"]⟩ := by
    refine requestOf_uiWords fun path hp => ?_
    obtain rfl := Option.some.inj hp
    decide +kernel
  obtain ⟨-, -, h⟩ := run_ui_ends hr
    (fun fault h => by cases load_charted.symm.trans h)
    (fun settings h => Except.ok.inj (load_charted.symm.trans h) ▸ openLog_charted)
    (fun _ _ _ h => startupError_onTerminal "2026-01-01 12:00:00" h)
  obtain ⟨-, ⟨d, parts, -, he⟩, -⟩ := h charted load_charted
  have hu (name : String) (h : WidgetKind.FirstUnknown charted.widgets name) : name = "Chart" :=
    Option.some.inj ((WidgetKind.firstUnknown_iff.mp h).symm.trans (by decide +kernel))
  have hm : "Error: Console failed to start: " ++
      (StartupError.noWidget "Chart" (WidgetKind.catalog.map (·.1))).message ++ "\n" =
        "Error: Console failed to start: Unknown widget 'Chart'. " ++
          "Available widgets: Button, InputText, Label, Select, Switch\n" := by
    have hs : StartupError.noWidget "Chart" (WidgetKind.catalog.map (·.1)) =
        .unknownWidget "Chart" (WidgetKind.catalog.map (·.1)) :=
      congrArg (StartupError.unknownWidget "Chart") WidgetKind.sorted_catalog
    rw [hs]
    decide +kernel
  refine ⟨hr, ?_⟩
  generalize run (onTerminal "2026-01-01 12:00:00") chartedDisk chartedWords = o at he
  cases he with
  | started hl =>
    cases hl with
    | ready _ hp => exact absurd (hp.widgets.known "Chart" (by decide)) (by decide)
  | failed hl =>
    cases hl with
    | noTheme hn => exact absurd (by decide +kernel) hn
    | noWidget _ h =>
      obtain rfl := hu _ h
      exact ⟨rfl, hm⟩

end AgentControl.CommandLine
