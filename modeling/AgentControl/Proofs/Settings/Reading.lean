import Mathlib.Data.List.Forall2
import AgentControl.Proofs.Decimal.Exact
import AgentControl.Proofs.Decimal.Lenient
import AgentControl.Proofs.Outcome
import AgentControl.Settings.Check

/-! # What a setting takes

Which values a setting can be read from, and what is read: a preset without the blanks around it, a
severity by its exact name, a list of distinct names, a positive whole number. A setting that a
section does not hold has its default.
-/

namespace AgentControl

open Value (Entries)

/-- The text that a value stands for. -/
inductive TextOf : Value → String → Prop where
  | text {s : String} : TextOf (.str s) s
  | level {l : LogLevel} : TextOf (.level l) l.name
  | bytes {bs : List UInt8} {s : String} : Utf8.decode? bs = some s → TextOf (.bytes bs) s

/-- A text that is more than blanks, without those around it. -/
def PresetOf (v : Value) (preset : String) : Prop :=
  ∃ s, TextOf v s ∧ Text.strip s = preset ∧ preset ≠ ""

/-- The distinct texts of a list, a tuple or a set. -/
def NamesOf (v : Value) (names : List String) : Prop :=
  ∃ vs, members? v = some vs ∧ List.Forall₂ TextOf vs names ∧ names.Nodup

/-- The integer that a value is, or that its text writes. -/
inductive WholeOf : Value → Int → Prop where
  | no : WholeOf (.bool false) 0
  | yes : WholeOf (.bool true) 1
  | int {n : Int} : WholeOf (.int n) n
  | float {x : Float} {n : Int} : Decimal.IsExactly x n → n.natAbs < 2 ^ 63 → WholeOf (.float x) n
  | text {v : Value} {s : String} {n : Int} : TextOf v s →
      Decimal.Lenient.Writes (Text.trimBy Text.isSpace s.toList) n → WholeOf v n

def PositiveOf (v : Value) (n : Nat) : Prop := WholeOf v n ∧ 0 < n

section

variable {v : Value} {vs : List Value} {s preset : String} {names : List String} {l : Severity}
  {n : Int}

theorem checkText_eq_ok_iff : checkText v = .ok s ↔ TextOf v s := by
  constructor
  · intro h
    unfold checkText at h
    split at h
    · exact Except.ok.inj h ▸ .text
    · exact Except.ok.inj h ▸ .level
    · split at h
      · next hd => exact .bytes (Except.ok.inj h ▸ hd)
      · cases h
    · cases h
  · intro h
    cases h with
    | text => rfl
    | level => rfl
    | bytes hd => simp only [checkText, hd]

theorem checkPreset_eq_ok_iff : checkPreset v = .ok preset ↔ PresetOf v preset := by
  unfold checkPreset PresetOf
  cases h : checkText v with
  | error is =>
    have hn (s : String) : ¬ TextOf v s := fun hs => by
      cases h.symm.trans (checkText_eq_ok_iff.mpr hs)
    simp [hn]
  | ok s =>
    have hs (t : String) : TextOf v t ↔ s = t := by
      rw [← checkText_eq_ok_iff, h, Except.ok.injEq]
    by_cases hb : Text.strip s = ""
    · simp [hs, hb, Checked.fail]
    · simp only [hs, if_neg hb, Except.ok.injEq, exists_eq_left', iff_self_and]
      exact fun he => he ▸ hb

theorem checkSeverity_eq_ok_iff : checkSeverity v = .ok l ↔ v = .str l.name := by
  constructor
  · intro h
    unfold checkSeverity at h
    split at h
    · split at h
      · next m hm =>
        rw [← Except.ok.inj h, of_decide_eq_true (List.find?_some hm :)]
      · cases h
    · cases h
  · rintro rfl
    simp only [checkSeverity, Severity.ofName?_name]

theorem checkTexts_eq_ok_iff {i : Nat} :
    checkTexts i vs = .ok names ↔ List.Forall₂ TextOf vs names := by
  induction vs generalizing i names with
  | nil => simp [checkTexts, eq_comm]
  | cons v vs ih =>
    rw [checkTexts, Checked.map_eq_ok_iff, List.forall₂_cons_left_iff]
    simp only [Checked.both_eq_ok_iff, Checked.within_eq_ok_iff, checkText_eq_ok_iff, ih,
      Prod.exists]
    constructor
    · rintro ⟨s, ss, ⟨hs, hss⟩, rfl⟩
      exact ⟨s, ss, hs, hss, rfl⟩
    · rintro ⟨s, ss, hs, hss, rfl⟩
      exact ⟨s, ss, ⟨hs, hss⟩, rfl⟩

theorem distinctWidgets_eq_ok_iff {ws : { ws : List String // ws.Nodup }} :
    distinctWidgets names = .ok ws ↔ names = ws.1 := by
  constructor
  · intro h
    unfold distinctWidgets at h
    split at h
    · exact congrArg Subtype.val (Except.ok.inj h)
    · cases h
  · rintro rfl
    rw [distinctWidgets, dif_pos (repeatedNames_eq_nil_iff.mpr ws.2)]

theorem checkWidgets_eq_ok_iff {ws : { ws : List String // ws.Nodup }} :
    checkWidgets v = .ok ws ↔ NamesOf v ws.1 := by
  obtain ⟨names, hn⟩ := ws
  unfold checkWidgets NamesOf
  cases hv : members? v with
  | none => simp [Checked.fail]
  | some vs =>
    cases ht : checkTexts 0 vs with
    | error is =>
      have hf : ¬ List.Forall₂ TextOf vs names := fun hf => by
        cases ht.symm.trans (checkTexts_eq_ok_iff.mpr hf)
      simp [ht, hf]
    | ok texts =>
      have hf : List.Forall₂ TextOf vs names ↔ texts = names := by
        rw [← checkTexts_eq_ok_iff (i := 0), ht, Except.ok.injEq]
      have hw : distinctWidgets texts = .ok ⟨names, hn⟩ ↔ texts = names := distinctWidgets_eq_ok_iff
      cases hd : distinctWidgets texts with
      | ok ws => simp [ht, hf, hn, ← hw, hd]
      | error why => simp [ht, hf, ← hw, hd, Checked.fail]

theorem wholeNumber_text_iff {cs : List Char} :
    (Decimal.Lenient.parse cs).mapError lenientCause = .ok n ↔
      Decimal.Lenient.Writes (Text.trimBy Text.isSpace cs) n := by
  rw [mapError_eq_ok_iff, Decimal.Lenient.parse_eq_ok_iff]

/-- A number is read from exactly the values that are one or write one. -/
theorem wholeNumber_eq_ok_iff : wholeNumber v = .ok n ↔ WholeOf v n := by
  constructor
  · intro h
    cases v with
    | bool b =>
      obtain rfl := Except.ok.inj h
      cases b with
      | false => exact .no
      | true => exact .yes
    | int m => exact Except.ok.inj h ▸ .int
    | float x =>
      obtain ⟨he, hn⟩ := Decimal.Lenient.ofFloat_eq_ok_iff.mp (mapError_eq_ok_iff.mp h)
      exact .float he hn
    | str s => exact .text .text (wholeNumber_text_iff.mp h)
    | level l => exact .text .level (wholeNumber_text_iff.mp h)
    | bytes bs =>
      simp only [wholeNumber] at h
      split at h
      · next cs hd =>
        have ht : TextOf (.bytes bs) (String.ofList cs) := .bytes (by simp only [Utf8.decode?, hd])
        refine .text ht ?_
        rw [String.toList_ofList]
        exact wholeNumber_text_iff.mp h
      · cases h
    | _ => cases h
  · intro h
    cases h with
    | no => rfl
    | yes => rfl
    | int => rfl
    | float he hn =>
      exact mapError_eq_ok_iff.mpr (Decimal.Lenient.ofFloat_eq_ok_iff.mpr ⟨he, hn⟩)
    | text ht hw =>
      cases ht with
      | text => exact wholeNumber_text_iff.mpr hw
      | level => exact wholeNumber_text_iff.mpr hw
      | @bytes bs s hd =>
        unfold Utf8.decode? at hd
        split at hd
        · next cs hc =>
          obtain rfl := Option.some.inj hd
          rw [String.toList_ofList] at hw
          simp only [wholeNumber, hc]
          exact wholeNumber_text_iff.mpr hw
        · cases hd

theorem checkPositive_eq_ok_iff {k : { k : Nat // 0 < k }} :
    checkPositive v = .ok k ↔ PositiveOf v k.1 := by
  obtain ⟨n, hn⟩ := k
  unfold checkPositive PositiveOf
  rw [← wholeNumber_eq_ok_iff]
  cases hw : wholeNumber v with
  | error c => simp [Checked.fail]
  | ok m =>
    by_cases hm : 0 < m.toNat
    · simp only [positiveOf?, hm, dite_true, Except.ok.injEq, Subtype.mk.injEq]
      omega
    · have hne : m ≠ n := by omega
      simp [positiveOf?, hm, hne, Checked.fail]

end

/-- A setting is read from its entry, and has its default without one. -/
theorem setting_eq_ok_iff {α : Type} {name : String} {default a : α} {check : Value → Checked α}
    {entries : Entries} :
    setting name default check entries = .ok a ↔
      match Value.lookup name entries with
      | some v => check v = .ok a
      | none => a = default := by
  unfold setting
  cases Value.lookup name entries with
  | none => simp [eq_comm]
  | some v => exact Checked.within_eq_ok_iff

end AgentControl
