import AgentControl.CommandLine.Request

/-! # Words that ask for a console

Options that are written out, each with its value in a word of its own, are read back as they were
given, whatever the values are. So there are words for every theme and for all lists of widgets.
-/

namespace AgentControl.CommandLine

/-- The words of an option with its value. -/
def Given.words (g : Given) : List String := [g.name, g.value]

/-- What is read where options stand before what was read already. -/
def Parsed.behind (gs : List Given) (p : Parsed) : Parsed := ⟨gs ++ p.given, p.words⟩

namespace Grammar

variable {s : Grammar} {name value : String} {gs : List Given} {fuel : Nat} {rest : List String}

/-- A word is the long name of an option that takes a value. -/
structure Takes (s : Grammar) (name : String) : Prop where
  option : ∃ o, s.long? name = some o ∧ o.long = name ∧ o.takesValue = true
  ne_dashes : name ≠ "--"
  dash : name.toList.head? = some '-' ∧ 1 < name.length
  whole : splitValue name.toList = (name.toList, none)

theorem parseFrom_cons (h : s.Takes name) :
    s.parseFrom (fuel + 1) (name :: value :: rest) =
      (s.parseFrom fuel rest).map (Parsed.behind [⟨name, value⟩]) := by
  obtain ⟨⟨o, ho, hl, ht⟩, hn, hd, hw⟩ := h
  have hword : s.optionWord name (some value) = .ok ([⟨name, value⟩], 1) := by
    simp only [optionWord, hw, String.ofList_toList, ho, ht, if_true, hl]
  simp only [parseFrom, if_neg hn, if_pos hd, List.head?_cons, hword]
  change (s.parseFrom fuel rest >>= fun p => .ok (p.behind [⟨name, value⟩])) = _
  cases s.parseFrom fuel rest <;> rfl

theorem parseFrom_words (h : ∀ g ∈ gs, s.Takes g.name) :
    s.parseFrom (gs.length + fuel) (gs.flatMap Given.words ++ rest) =
      (s.parseFrom fuel rest).map (Parsed.behind gs) := by
  induction gs with
  | nil =>
    rw [List.length_nil, Nat.zero_add, List.flatMap_nil, List.nil_append]
    cases s.parseFrom fuel rest <;> rfl
  | cons g gs ih =>
    obtain ⟨hg, h⟩ := List.forall_mem_cons.mp h
    rw [List.length_cons, Nat.add_right_comm, List.flatMap_cons, List.append_assoc, Given.words,
      List.cons_append, List.singleton_append, parseFrom_cons hg, ih h]
    cases s.parseFrom fuel rest <;> rfl

/-- Options are read back as they were given, up to words among which there are none. -/
theorem parse_words (h : ∀ g ∈ gs, s.Takes g.name)
    (hr : ∀ fuel, s.parseFrom fuel rest = .ok ⟨[], rest⟩) :
    s.parse (gs.flatMap Given.words ++ rest) = .ok ⟨gs, rest⟩ := by
  have hl : (gs.flatMap Given.words ++ rest).length = gs.length + (gs.length + rest.length) := by
    have hw : (gs.flatMap Given.words).length = gs.length + gs.length := by
      simp only [List.length_flatMap, Given.words, List.length_cons, List.length_nil,
        List.map_const', List.sum_replicate_nat]
      omega
    rw [List.length_append, hw, Nat.add_assoc]
  rw [parse, hl, parseFrom_words h, hr]
  simp [Except.map, Parsed.behind]

end Grammar

/-! ## A console -/

variable {disk : Disk} {config theme : Option String} {widgets : List String}

def configOptions (config : Option String) : List Given := config.toList.map (⟨"--config", ·⟩)

def uiOptions (theme : Option String) (widgets : List String) : List Given :=
  theme.toList.map (⟨"--theme", ·⟩) ++ widgets.map (⟨"--widget", ·⟩)

/-- The words that ask for a console. -/
def uiWords (config theme : Option String) (widgets : List String) : List String :=
  (configOptions config).flatMap Given.words ++ "ui" ::
    (uiOptions theme widgets).flatMap Given.words

theorem takes_config : groupGrammar.Takes "--config" :=
  ⟨⟨_, rfl, rfl, rfl⟩, by decide, by decide, by decide⟩

theorem takes_theme : uiGrammar.Takes "--theme" :=
  ⟨⟨_, rfl, rfl, rfl⟩, by decide, by decide, by decide⟩

theorem takes_widget : uiGrammar.Takes "--widget" :=
  ⟨⟨_, rfl, rfl, rfl⟩, by decide, by decide, by decide⟩

theorem takes_uiOptions : ∀ g ∈ uiOptions theme widgets, uiGrammar.Takes g.name := by
  intro g hg
  rcases List.mem_append.mp hg with hg | hg
  · obtain ⟨_, _, rfl⟩ := List.mem_map.mp hg
    exact takes_theme
  · obtain ⟨_, _, rfl⟩ := List.mem_map.mp hg
    exact takes_widget

theorem parseFor_eq {usage : Usage} {s : Grammar} {words : List String} {p : Parsed}
    (h : s.parse words = .ok p) (hh : p.has "--help" = false) : parseFor usage s words = .ok p := by
  simp only [parseFor, h]
  change (if p.has "--help" = true then _ else _) = _
  rw [hh]
  rfl

theorem filter_name {name other : String} {values : List String} :
    (values.map (Given.mk name)).filter (fun g => g.name = other) =
      if name = other then values.map (Given.mk name) else [] := by
  by_cases h : name = other <;> simp [h]

theorem last?_theme {words : List String} :
    Parsed.last? ⟨uiOptions theme widgets, words⟩ "--theme" = theme := by
  cases theme <;> simp [Parsed.last?, uiOptions, filter_name]

theorem all_widget {words : List String} :
    Parsed.all ⟨uiOptions theme widgets, words⟩ "--widget" = widgets := by
  simp [Parsed.all, uiOptions, filter_name, List.map_map, Function.comp_def]

theorem uiCommand_uiOptions :
    uiCommand ((uiOptions theme widgets).flatMap Given.words) = .ok (.ui theme widgets) := by
  have hp : uiGrammar.parse ((uiOptions theme widgets).flatMap Given.words ++ []) =
      .ok ⟨uiOptions theme widgets, []⟩ :=
    Grammar.parse_words takes_uiOptions fun fuel => by cases fuel <;> rfl
  rw [List.append_nil] at hp
  have hf : parseFor .ui uiGrammar ((uiOptions theme widgets).flatMap Given.words) =
      .ok ⟨uiOptions theme widgets, []⟩ := parseFor_eq hp (by simp [Parsed.has, uiOptions])
  rw [uiCommand, hf]
  change Except.ok (Command.ui (Parsed.last? ⟨uiOptions theme widgets, []⟩ "--theme")
    (Parsed.all ⟨uiOptions theme widgets, []⟩ "--widget")) = _
  rw [last?_theme, all_widget]

theorem commonOf_uiWords
    (hc : ∀ path, config = some path → checkPath disk "--config" "Path" path false = .ok ()) :
    commonOf disk (uiWords config theme widgets) =
      .ok ⟨configOptions config, "ui" :: (uiOptions theme widgets).flatMap Given.words⟩ := by
  have hp : groupGrammar.parse (uiWords config theme widgets) =
      .ok ⟨configOptions config, "ui" :: (uiOptions theme widgets).flatMap Given.words⟩ := by
    refine Grammar.parse_words ?_ fun fuel => by cases fuel <;> rfl
    intro g hg
    obtain ⟨_, _, rfl⟩ := List.mem_map.mp hg
    exact takes_config
  rw [commonOf, parseFor_eq hp (by cases config <;> rfl)]
  cases config with
  | none => rfl
  | some path =>
    change (orMisused _ (checkPath disk "--config" "Path" path false) >>= _) = _
    rw [hc path rfl]
    rfl

/-- Whatever file, theme and widgets a console is asked for with, there are words to do so. -/
theorem requestOf_uiWords
    (hc : ∀ path, config = some path → checkPath disk "--config" "Path" path false = .ok ()) :
    requestOf disk (uiWords config theme widgets) = .ok ⟨config, false, .ui theme widgets⟩ := by
  have hw : (uiWords config theme widgets).isEmpty = false := by
    cases config <;> rfl
  have hcommand : commandOf disk ("ui" :: (uiOptions theme widgets).flatMap Given.words) =
      .ok (.ui theme widgets) := uiCommand_uiOptions
  simp only [requestOf, hw, commonOf_uiWords hc]
  change (commandOf disk ("ui" :: (uiOptions theme widgets).flatMap Given.words) >>= _) = _
  rw [hcommand]
  cases config <;> rfl

end AgentControl.CommandLine
