import Mathlib.Data.List.Nodup
import AgentControl.Proofs.Console.Selector

/-! # Setting a console up

A refused call leaves nothing behind. What a console has come to after any calls can be told from
the calls: a name keeps the kind that it was first registered with, the root goes where it was first
asked for, and the last theme that was taken over is the one of its name.
-/

namespace AgentControl

open Value (Entries)

namespace Console

variable {s : Console} {call : Call} {calls : List Call} {options : Entries} {name anchor : String}
  {kind : WidgetKind} {arguments : WidgetArguments} {t : Theme} {themes : List Theme}
  {e : StartupError}

/-! ## Calls -/

/-- The theme of a call that takes one over. -/
def Call.preset? : Call → Option Theme
  | .useTheme options => (themeOf options).toOption.join
  | _ => none

/-- The kind that a call registers under a name, where that is still free. -/
def Call.kind? (name : String) : Call → Option WidgetKind
  | .register given kind => if given = name then some kind else none
  | _ => none

def Call.anchor? : Call → Option String
  | .mountRoot anchor => some anchor
  | _ => none

/-- What a call comes to. -/
inductive Outcome (s : Console) : Call → Except StartupError Answer × Logged Console → Prop where
  | unasked {options : Entries} : themeOf options = .ok none →
      Outcome s (.useTheme options) (.ok .done, s, [])
  | adopted {options : Entries} {t : Theme} : themeOf options = .ok (some t) →
      Outcome s (.useTheme options) (.ok .done,
        { s with preset := some t, themes := addTheme t s.themes },
        [.debug logger ("Theme preset '" ++ t.name ++ "' registered")])
  | unsupported {options : Entries} {e : StartupError} : themeOf options = .error e →
      Outcome s (.useTheme options) (.error e, s, [])
  | registered {name : String} {kind : WidgetKind} : s.widgets.lookup name = none →
      Outcome s (.register name kind) (.ok .done,
        { s with widgets := s.widgets ++ [(name, kind)] },
        [.debug logger ("Widget '" ++ name ++ "' registered as " ++ kind.className)])
  | taken {name : String} {kind first : WidgetKind} : s.widgets.lookup name = some first →
      Outcome s (.register name kind) (.error (.alreadyRegistered name), s, [])
  | made {name : String} {arguments : WidgetArguments} {kind : WidgetKind} :
      s.widgets.lookup name = some kind →
      Outcome s (.create name arguments) (.ok (.made ⟨kind, arguments⟩), s, [])
  | unknown {name : String} {arguments : WidgetArguments} : s.widgets.lookup name = none →
      Outcome s (.create name arguments) (.error (.notRegistered name), s, [])
  | asked {anchor : String} : s.mountTarget = none →
      Outcome s (.mountRoot anchor)
        (.ok .done, { s with mountTarget := some (targetOf anchor) }, [])
  | mounted {anchor target : String} : s.mountTarget = some target →
      Outcome s (.mountRoot anchor) (.error (.alreadyMounted target), s, [])

theorem attempt_console {α : Type} (steps : Console → Setup α) :
    s.attempt (Setup.console >>= steps) = s.attempt (steps s) := rfl

theorem outcome_attempt (s : Console) (call : Call) :
    Outcome s call (s.attempt (perform call)) := by
  cases call with
  | useTheme options =>
    simp only [perform, useTheme]
    cases h : themeOf options with
    | error e => exact .unsupported h
    | ok preset =>
      cases preset with
      | none => exact .unasked h
      | some t => exact .adopted h
  | register name kind =>
    simp only [perform, register, bind_assoc, attempt_console]
    cases h : s.widgets.lookup name with
    | none => exact .registered h
    | some first => exact .taken h
  | create name arguments =>
    simp only [perform, create, bind_assoc, attempt_console]
    cases h : s.widgets.lookup name with
    | none => exact .unknown h
    | some kind => exact .made h
  | mountRoot anchor =>
    simp only [perform, mountRoot, bind_assoc, attempt_console]
    cases h : s.mountTarget with
    | none => exact .asked h
    | some target => exact .mounted h

variable {r : Except StartupError Answer × Logged Console}

/-- Nothing is done or logged before a call is refused. -/
theorem Outcome.unchanged (h : Outcome s call r) (he : r.1 = .error e) : r.2 = (s, []) := by
  cases h with
  | unsupported | taken | unknown | mounted => rfl
  | _ => cases he

theorem Outcome.preset (h : Outcome s call r) : r.2.1.preset = call.preset?.or s.preset := by
  cases h with
  | unasked h | adopted h | unsupported h =>
    rw [Call.preset?, h]
    rfl
  | _ => rfl

theorem Outcome.mountTarget (h : Outcome s call r) :
    r.2.1.mountTarget = s.mountTarget.or (call.anchor?.map targetOf) := by
  cases h with
  | asked h | mounted h =>
    rw [h]
    rfl
  | _ => exact Option.or_none.symm

theorem lookup_singleton {given : String} :
    [(given, kind)].lookup name = (Call.register given kind).kind? name := by
  rw [List.lookup_cons, List.lookup_nil, Call.kind?]
  by_cases h : given = name
  · simp [h]
  · simp [h, beq_eq_false_iff_ne.mpr (Ne.symm h)]

theorem Outcome.lookup (h : Outcome s call r) :
    r.2.1.widgets.lookup name = (s.widgets.lookup name).or (call.kind? name) := by
  cases h with
  | registered h => rw [List.lookup_append, lookup_singleton]
  | @taken given kind first h =>
    -- the name that is refused has a kind, which hides the one of the call
    rw [Call.kind?]
    split
    · next hn =>
      subst hn
      rw [h]
      rfl
    · exact Option.or_none.symm
  | _ => exact Option.or_none.symm

theorem Outcome.create_of_some (h : Outcome s (.create name arguments) r)
    (hk : s.widgets.lookup name = some kind) : r.1 = .ok (.made ⟨kind, arguments⟩) := by
  cases h with
  | made hf =>
    obtain rfl := Option.some.inj (hf.symm.trans hk)
    rfl
  | unknown hf => cases hf.symm.trans hk

theorem Outcome.create_of_none (h : Outcome s (.create name arguments) r)
    (hk : s.widgets.lookup name = none) : r.1 = .error (.notRegistered name) := by
  cases h with
  | made hf => cases hf.symm.trans hk
  | unknown => rfl

theorem Outcome.mountRoot_of_some {target : String} (h : Outcome s (.mountRoot anchor) r)
    (hm : s.mountTarget = some target) : r.1 = .error (.alreadyMounted target) := by
  cases h with
  | asked hf => cases hf.symm.trans hm
  | mounted hf =>
    obtain rfl := Option.some.inj (hf.symm.trans hm)
    rfl

/-! ## Themes -/

/-- What options hold as a theme, whatever else they hold. -/
def Gives (options : Entries) (t : Theme) : Prop :=
  ∃ section_, Value.lookup "theme" options = some (.dict section_) ∧
    Value.lookup "preset" section_ = some (.theme t)

theorem gives_of_themeOf (h : themeOf options = .ok (some t)) : Gives options t := by
  unfold themeOf at h
  split at h
  · cases h
  split at h
  · cases h
  · next section_ hs =>
    split at h
    · cases h
    split at h
    · cases h
    · cases h
    · next u ht =>
      obtain rfl := Option.some.inj (Except.ok.inj h)
      exact ⟨section_, hs, ht⟩
    · cases h
  · cases h

theorem themeOf_of_gives {preset : Option Theme} (hg : Gives options t)
    (h : themeOf options = .ok preset) : preset = some t := by
  obtain ⟨section_, hs, ht⟩ := hg
  simp only [themeOf, hs, ht] at h
  split at h
  · cases h
  · split at h
    · cases h
    · exact (Except.ok.inj h).symm

/-- A theme is taken over from the options that give one and are accepted. -/
theorem Outcome.preset?_iff (h : Outcome s (.useTheme options) r) :
    (Call.useTheme options).preset? = some t ↔ (∃ a, r.1 = .ok a) ∧ Gives options t := by
  rw [Call.preset?]
  cases h with
  | unsupported h => simp [h, Except.toOption]
  | unasked h =>
    have hn : ¬ Gives options t := fun hg => nomatch themeOf_of_gives hg h
    simp [h, Except.toOption, hn]
  | @adopted _ u h =>
    have hg : Gives options u := gives_of_themeOf h
    rw [h]
    constructor
    · intro ht
      obtain rfl := Option.some.inj ht
      exact ⟨⟨_, rfl⟩, hg⟩
    · rintro ⟨-, ht⟩
      exact themeOf_of_gives ht h

theorem any_name_iff : themes.any (·.name == t.name) ↔ t.name ∈ themes.map (·.name) := by
  simp

theorem find?_addTheme : (addTheme t themes).find? (·.name == t.name) = some t := by
  unfold addTheme
  split
  · next h =>
    obtain ⟨u, hu⟩ := Option.isSome_iff_exists.mp (List.find?_isSome.mpr (List.any_eq_true.mp h))
    have hp : ((fun u : Theme => u.name == t.name) ∘ fun u => if u.name = t.name then t else u) =
        fun u => u.name == t.name := by
      funext u
      by_cases hn : u.name = t.name <;> simp [hn]
    have hn : u.name = t.name := beq_iff_eq.mp (List.find?_some hu :)
    rw [List.find?_map, hp, hu, Option.map_some, if_pos hn]
  · next h =>
    have hn : themes.find? (·.name == t.name) = none := by
      simpa using h
    rw [List.find?_append, hn]
    simp

/-- A theme is added under its name once. -/
theorem names_addTheme (h : (themes.map (·.name)).Nodup) :
    ((addTheme t themes).map (·.name)).Nodup := by
  unfold addTheme
  split
  · have hm : (themes.map fun u => if u.name = t.name then t else u).map (·.name) =
        themes.map (·.name) := by
      rw [List.map_map]
      refine List.map_congr_left fun u _ => ?_
      by_cases hn : u.name = t.name <;> simp [hn]
    rw [hm]
    exact h
  · next hn =>
    have hm : t.name ∉ themes.map (·.name) := fun hm => hn (any_name_iff.mpr hm)
    rw [List.map_append, List.map_singleton, ← List.concat_eq_append]
    exact h.concat hm

/-! ## Runs -/

/-- What is so of a console that has not been started: nothing is mounted, and the theme that was
taken over last is the one of its name. -/
structure Ready (s : Console) : Prop where
  mountCount : s.mountCount = 0
  startupError : s.startupError = none
  activeTheme : s.activeTheme = "textual-dark"
  distinct : (s.themes.map (·.name)).Nodup
  theme : ∀ t, s.preset = some t → s.themes.find? (·.name == t.name) = some t

theorem ready_new : Ready {} where
  mountCount := rfl
  startupError := rfl
  activeTheme := rfl
  distinct := by decide
  theme := by
    intro t h
    cases h

theorem Ready.outcome (hs : s.Ready) (h : Outcome s call r) : r.2.1.Ready := by
  cases h with
  | adopted =>
    refine ⟨hs.mountCount, hs.startupError, hs.activeTheme, names_addTheme hs.distinct, ?_⟩
    intro t ht
    obtain rfl := Option.some.inj ht
    exact find?_addTheme
  | registered | asked =>
    exact ⟨hs.mountCount, hs.startupError, hs.activeTheme, hs.distinct, hs.theme⟩
  | _ => exact hs

theorem Ready.after (hs : s.Ready) (calls : List Call) : (s.after calls).Ready := by
  induction calls generalizing s with
  | nil => exact hs
  | cons call calls ih => exact ih (hs.outcome (outcome_attempt s call))

theorem after_cons : s.after (call :: calls) = (s.attempt (perform call)).2.1.after calls := rfl

theorem preset_after : (s.after calls).preset =
    (calls.reverse.findSome? Call.preset?).or s.preset := by
  induction calls generalizing s with
  | nil => rfl
  | cons call calls ih =>
    rw [after_cons, ih, (outcome_attempt s call).preset, List.reverse_cons, List.findSome?_append,
      List.findSome?_cons, List.findSome?_nil, Option.or_assoc]
    cases call.preset? <;> rfl

theorem lookup_after :
    (s.after calls).widgets.lookup name =
      (s.widgets.lookup name).or (calls.findSome? (Call.kind? name)) := by
  induction calls generalizing s with
  | nil => exact Option.or_none.symm
  | cons call calls ih =>
    rw [after_cons, ih, (outcome_attempt s call).lookup, Option.or_assoc, List.findSome?_cons]
    cases call.kind? name <;> rfl

theorem mountTarget_after :
    (s.after calls).mountTarget = s.mountTarget.or
      ((calls.findSome? Call.anchor?).map targetOf) := by
  induction calls generalizing s with
  | nil => exact Option.or_none.symm
  | cons call calls ih =>
    rw [after_cons, ih, (outcome_attempt s call).mountTarget, Option.or_assoc, List.findSome?_cons]
    cases call.anchor? <;> rfl

/-- What holds of a console that came up new and has taken calls since. -/
structure Reached (calls : List Call) (s : Console) : Prop where
  refused : ∀ call e, (s.attempt (perform call)).1 = .error e →
    (s.attempt (perform call)).2 = (s, [])
  kind : ∀ name, s.widgets.lookup name = calls.findSome? (Call.kind? name)
  kept : ∀ more name kind, s.widgets.lookup name = some kind →
    (s.after more).widgets.lookup name = some kind
  registered : ∀ name, (s.widgets.lookup name).isSome ↔ ∃ kind, .register name kind ∈ calls
  made : ∀ name kind arguments, s.widgets.lookup name = some kind →
    (s.attempt (perform (.create name arguments))).1 = .ok (.made ⟨kind, arguments⟩)
  unknown : ∀ name arguments, s.widgets.lookup name = none →
    (s.attempt (perform (.create name arguments))).1 = .error (.notRegistered name)
  target : s.mountTarget = (calls.findSome? Call.anchor?).map targetOf
  mounted : ∀ anchor target, s.mountTarget = some target →
    (s.attempt (perform (.mountRoot anchor))).1 = .error (.alreadyMounted target)
  preset : s.preset = calls.reverse.findSome? Call.preset?
  given : ∀ options t, (Call.useTheme options).preset? = some t ↔
    (∃ a, (s.attempt (perform (.useTheme options))).1 = .ok a) ∧ Gives options t
  ready : s.Ready

theorem lookup_isSome_iff :
    ((({} : Console).after calls).widgets.lookup name).isSome ↔
      ∃ kind, .register name kind ∈ calls := by
  rw [lookup_after, List.lookup_nil, Option.none_or, List.findSome?_isSome_iff]
  constructor
  · rintro ⟨call, hm, hk⟩
    cases call with
    | register given kind =>
      rw [Call.kind?] at hk
      split at hk
      · next hn => exact ⟨kind, hn ▸ hm⟩
      · cases hk
    | _ => cases hk
  · rintro ⟨kind, hm⟩
    refine ⟨_, hm, ?_⟩
    rw [Call.kind?, if_pos rfl]
    rfl

theorem reached_of_calls (calls : List Call) : Reached calls (({} : Console).after calls) where
  refused := by
    intro call e he
    exact (outcome_attempt _ call).unchanged he
  kind := by
    intro name
    exact lookup_after
  kept := by
    intro more name kind hk
    rw [lookup_after, hk, Option.some_or]
  registered := by
    intro name
    exact lookup_isSome_iff
  made := by
    intro name kind arguments hk
    exact (outcome_attempt _ _).create_of_some hk
  unknown := by
    intro name arguments hk
    exact (outcome_attempt _ _).create_of_none hk
  target := mountTarget_after
  mounted := by
    intro anchor target hm
    exact (outcome_attempt _ _).mountRoot_of_some hm
  preset := by
    rw [preset_after]
    exact Option.or_none
  given := by
    intro options t
    exact (outcome_attempt _ _).preset?_iff
  ready := ready_new.after calls

end Console

end AgentControl
