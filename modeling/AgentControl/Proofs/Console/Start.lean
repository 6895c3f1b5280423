import AgentControl.Proofs.Console.Setup

/-! # Starting a console

How a start ends depends on what the console has been asked for before: the theme that
was taken over takes effect, and the root is mounted once or, where the document has no
such place, not at all.
-/

namespace AgentControl

theorem Selector.isName_anchor : IsName anchor := ⟨'a', ['p', 'p'], rfl, rfl, rfl⟩

namespace Console

variable {s : Console} {calls : List Call} {target : String}

theorem run_of_none (h : s.mountTarget = none) :
    s.run.1 = (s.withTheme, .shown ⟨s.withTheme.activeTheme, s.mountCount, none⟩) := by
  unfold run
  simp only [withTheme, h]

theorem run_of_anchor (h : s.mountTarget = some Selector.anchor) :
    s.run.1 = ({ s.withTheme with mountCount := s.mountCount + 1 },
      .shown ⟨s.withTheme.activeTheme, s.mountCount + 1, none⟩) := by
  unfold run
  simp only [withTheme, h, Selector.parse?_sign Selector.isName_anchor, Selector.hasAnchor_id,
    beq_self_eq_true, ite_true]

theorem run_of_name (hn : Selector.IsName target) (h : s.mountTarget = some target)
    (ha : target ≠ Selector.anchor) :
    s.run.1 = ({ s.withTheme with startupError := some (.anchorMissing target) },
      .shown ⟨s.withTheme.activeTheme, 0, some 1⟩) := by
  unfold run
  simp only [withTheme, h, Selector.parse?_sign hn, Selector.hasAnchor_id,
    beq_eq_false_iff_ne.mpr ha, Bool.false_eq_true, ite_false]

/-- How a start ends for what the console was before. -/
structure Started (s : Console) (r : Console × Start) : Prop where
  theme : r.1.activeTheme = (s.preset.map (·.name)).getD "textual-dark"
  inEffect : ∀ t, s.preset = some t →
    r.1.activeTheme = t.name ∧ r.1.themes.find? (·.name == r.1.activeTheme) = some t
  mounted : r.1.mountCount = 1 ∧ r.1.startupError = none ↔ s.mountTarget = some Selector.anchor
  unasked : s.mountTarget = none → r.1.mountCount = 0 ∧ r.1.startupError = none
  missing : ∀ target, s.mountTarget = some target → target ≠ Selector.anchor →
    r.1.mountCount = 0 ∧ r.1.startupError = some (.anchorMissing target) ∧
      r.2 = .shown ⟨r.1.activeTheme, 0, some 1⟩
  kept : r.1.preset = s.preset ∧ r.1.themes = s.themes ∧ r.1.widgets = s.widgets ∧
    r.1.mountTarget = s.mountTarget

theorem Ready.withTheme_activeTheme (hs : s.Ready) :
    s.withTheme.activeTheme = (s.preset.map (·.name)).getD "textual-dark" := by
  rw [withTheme, hs.activeTheme]

theorem Ready.inEffect (hs : s.Ready) : ∀ t, s.preset = some t →
    s.withTheme.activeTheme = t.name ∧
      s.themes.find? (·.name == s.withTheme.activeTheme) = some t := by
  intro t ht
  have ha : s.withTheme.activeTheme = t.name := by
    rw [hs.withTheme_activeTheme, ht]
    rfl
  rw [ha]
  exact ⟨rfl, hs.theme t ht⟩

theorem Ready.started_of_none (hs : s.Ready) (h : s.mountTarget = none) : s.Started s.run.1 := by
  have hc : s.withTheme.mountCount = 0 := hs.mountCount
  have he : s.withTheme.startupError = none := hs.startupError
  rw [run_of_none h]
  refine ⟨hs.withTheme_activeTheme, hs.inEffect, ?_, fun _ => ⟨hc, he⟩, ?_, rfl, rfl, rfl, rfl⟩
  · rw [h]
    constructor
    · rintro ⟨h1, -⟩
      exact absurd (hc.symm.trans h1) (by decide)
    · intro ha
      cases ha
  · intro target ht
    cases h.symm.trans ht

theorem Ready.started_of_anchor (hs : s.Ready) (h : s.mountTarget = some Selector.anchor) :
    s.Started s.run.1 := by
  have he : s.withTheme.startupError = none := hs.startupError
  rw [run_of_anchor h, hs.mountCount]
  refine ⟨hs.withTheme_activeTheme, hs.inEffect, iff_of_true ⟨rfl, he⟩ h, ?_, ?_, rfl, rfl,
    rfl, rfl⟩
  · intro hm
    cases h.symm.trans hm
  · intro target ht ha
    exact absurd (Option.some.inj (ht.symm.trans h)) ha

theorem Ready.started_of_name (hs : s.Ready) (hn : Selector.IsName target)
    (h : s.mountTarget = some target) (ha : target ≠ Selector.anchor) : s.Started s.run.1 := by
  have hc : s.withTheme.mountCount = 0 := hs.mountCount
  rw [run_of_name hn h ha]
  refine ⟨hs.withTheme_activeTheme, hs.inEffect, ?_, ?_, ?_, rfl, rfl, rfl, rfl⟩
  · constructor
    · rintro ⟨-, he⟩
      cases he
    · intro hm
      exact absurd (Option.some.inj (h.symm.trans hm)) ha
  · intro hm
    cases h.symm.trans hm
  · intro name ht _
    obtain rfl := Option.some.inj (h.symm.trans ht)
    exact ⟨hc, rfl, rfl⟩

/-- A start mounts the root at the document's anchor, and fails at any other name. -/
theorem Ready.started (hs : s.Ready)
    (hn : ∀ target, s.mountTarget = some target → Selector.IsName target) : s.Started s.run.1 := by
  cases h : s.mountTarget with
  | none => exact hs.started_of_none h
  | some target =>
    by_cases ha : target = Selector.anchor
    · subst ha
      exact hs.started_of_anchor h
    · exact hs.started_of_name (hn target h) h ha

theorem mem_of_findSome?_anchor? {anchor : String}
    (h : calls.findSome? Call.anchor? = some anchor) :
    Call.mountRoot anchor ∈ calls := by
  obtain ⟨call, hm, hc⟩ := List.exists_of_findSome?_eq_some h
  cases call with
  | mountRoot given =>
    obtain rfl := Option.some.inj hc
    exact hm
  | _ => cases hc

/-- After any calls on a new console, and through one start of it. -/
theorem started_after
    (h : ∀ anchor, Call.mountRoot anchor ∈ calls → ∃ name, Selector.StandsFor anchor name) :
    Reached calls (({} : Console).after calls) ∧
      Started (({} : Console).after calls) (({} : Console).after calls).run.1 := by
  have hs := reached_of_calls calls
  refine ⟨hs, hs.ready.started ?_⟩
  intro target ht
  rw [hs.target] at ht
  obtain ⟨anchor, ha, rfl⟩ := Option.map_eq_some_iff.mp ht
  obtain ⟨name, hn⟩ := h anchor (mem_of_findSome?_anchor? ha)
  rw [Selector.targetOf_of_standsFor hn]
  exact hn.1

def nightTheme (primary : String) : Theme :=
  ⟨"night", true, primary, none, none, none, none, none, none, none, none, none⟩

def themeOptions (t : Theme) : Value.Entries := [(.str "theme", .dict [(.str "preset", .theme t)])]

/-- Calls of which every second one is refused or comes too late. -/
def crowdedCalls : List Call :=
  [.mountRoot "##app", .mountRoot "#elsewhere", .register "Log" .label,
    .register "Log" (.own "Log" 1),
    .useTheme (themeOptions (nightTheme "#111111")), .useTheme [(.str "theme", .null)],
    .useTheme (themeOptions (nightTheme "#222222")), .create "Missing" {}]

theorem started_after_crowded :
    (∀ anchor, Call.mountRoot anchor ∈ crowdedCalls → ∃ name, Selector.StandsFor anchor name) ∧
      (({} : Console).after crowdedCalls).widgets.lookup "Log" = some .label ∧
      (({} : Console).after crowdedCalls).run.1.1.mountCount = 1 ∧
      (({} : Console).after crowdedCalls).run.1.1.themes.find? (·.name == "night") =
        some (nightTheme "#222222") := by
  have h : ∀ anchor, Call.mountRoot anchor ∈ crowdedCalls →
      ∃ name, Selector.StandsFor anchor name := by
    intro anchor hm
    simp only [crowdedCalls, List.mem_cons, Call.mountRoot.injEq, reduceCtorEq,
      List.not_mem_nil, or_false] at hm
    obtain rfl | rfl := hm
    · exact ⟨"app", Selector.isName_anchor, 2, rfl⟩
    · exact ⟨"elsewhere", ⟨'e', "lsewhere".toList, rfl, rfl, rfl⟩, 1, rfl⟩
  obtain ⟨hs, ht⟩ := started_after h
  have hp : (({} : Console).after crowdedCalls).preset = some (nightTheme "#222222") := by
    rw [hs.preset]
    rfl
  have hm : (({} : Console).after crowdedCalls).mountTarget = some Selector.anchor := by
    rw [hs.target]
    decide
  obtain ⟨ha, hf⟩ := ht.inEffect _ hp
  rw [ha] at hf
  refine ⟨h, ?_, (ht.mounted.mpr hm).1, hf⟩
  rw [hs.kind]
  decide

end Console

end AgentControl
