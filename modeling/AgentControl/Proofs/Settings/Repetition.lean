import Mathlib.Data.String.Basic
import AgentControl.Proofs.Settings.Reading

/-! # Repeated names

A list of widget names is taken as it is when no name stands in it twice, and is refused for those
that do. They are reported in the order of their characters' codes, so that the report does not tell
in which order the names were given.
-/

namespace AgentControl

variable {names others reported : List String}

/-! ## Sorted names -/

namespace Text

/-- The codes of a text's characters, which texts are ordered by. -/
def codes (s : String) : List ℕ := s.toList.map Char.toNat

theorem codes_lt_codes {a b : String} (h : a < b) : codes a < codes b :=
  List.map_lt (fun _ _ hc => hc) (String.lt_iff_toList_lt.mp h)

theorem pairwise_sorted : (sorted names).Pairwise (· ≤ ·) := by
  have h : (sorted names).Pairwise fun a b => decide (a ≤ b) = true := by
    apply List.pairwise_mergeSort
    · simpa using fun a b c => le_trans
    · simpa using fun a b => le_total a b
  simpa using h

theorem ascending_sorted (h : names.Nodup) :
    (sorted names).Pairwise fun a b => codes a < codes b := by
  have hn : (sorted names).Nodup := (sorted_perm names).nodup_iff.mpr h
  refine (pairwise_sorted.and hn).imp ?_
  rintro a b ⟨hle, hne⟩
  exact codes_lt_codes (lt_of_le_of_ne hle hne)

end Text

/-! ## The report of a list -/

theorem nodup_eraseDups {α : Type} [BEq α] [LawfulBEq α] (l : List α) : l.eraseDups.Nodup := by
  induction h : l.length using Nat.strong_induction_on generalizing l with
  | h k ih =>
    cases l with
    | nil => exact List.nodup_nil
    | cons a l =>
      rw [List.eraseDups_cons, List.nodup_cons, List.mem_eraseDups]
      -- what follows is freed of `a` before it is freed of its own repetitions
      have hl : (l.filter fun b => !b == a).length < k := by
        rw [← h]
        exact Nat.lt_succ_of_le (List.length_filter_le _ _)
      exact ⟨by simp, ih _ hl _ rfl⟩

/-- What is reported of a list: just the names that it holds at least twice, ascending by the codes
of their characters and so each of them once. -/
structure Repeated (names reported : List String) : Prop where
  mem_iff : ∀ n, n ∈ reported ↔ 2 ≤ names.count n
  ascending : reported.Pairwise fun a b => Text.codes a < Text.codes b

namespace Repeated

theorem sorted_repeatedNames : Repeated names (Text.sorted (repeatedNames names)) where
  mem_iff n := by rw [(Text.sorted_perm _).mem_iff, mem_repeatedNames, Nat.succ_le_iff]
  ascending := Text.ascending_sorted (nodup_eraseDups _)

theorem nodup (h : Repeated names reported) : reported.Nodup := by
  refine h.ascending.imp ?_
  rintro a _ hlt rfl
  exact lt_irrefl _ hlt

theorem perm (h : Repeated names reported) (hp : others.Perm names) : Repeated others reported where
  mem_iff n := by rw [h.mem_iff, hp.count_eq]
  ascending := h.ascending

/-- A list of names has at most one report. -/
theorem unique {more : List String} (h : Repeated names reported) (h' : Repeated names more) :
    reported = more := by
  have hp : reported.Perm more := by
    rw [List.perm_ext_iff_of_nodup h.nodup h'.nodup]
    intro n
    rw [h.mem_iff, h'.mem_iff]
  exact hp.eq_of_pairwise (fun _ _ _ _ hab hba => absurd hab hba.asymm) h.ascending h'.ascending

end Repeated

theorem distinctWidgets_eq_error (hn : ¬ names.Nodup) (h : Repeated names reported) :
    distinctWidgets names = .error (.duplicateWidgets reported) := by
  rw [distinctWidgets, dif_neg (mt repeatedNames_eq_nil_iff.mp hn),
    Repeated.sorted_repeatedNames.unique h]

/-- Widget names are taken, and then as they are, just when they are pairwise distinct. Otherwise
they are refused, with one report of what is repeated for all orders that they can be given in. -/
theorem distinct_or_reported (names : List String) :
    ((∃ ws, distinctWidgets names = .ok ws ∧ ws.1 = names) ↔ names.Nodup) ∧
      (¬ names.Nodup → ∃ reported, Repeated names reported ∧
        ∀ others, others.Perm names →
          distinctWidgets others = .error (.duplicateWidgets reported)) := by
  constructor
  · constructor
    · rintro ⟨ws, -, rfl⟩
      exact ws.2
    · exact fun hn => ⟨⟨names, hn⟩, distinctWidgets_eq_ok_iff.mpr rfl, rfl⟩
  · intro hn
    have h : Repeated names (Text.sorted (repeatedNames names)) := Repeated.sorted_repeatedNames
    refine ⟨_, h, fun others hp => ?_⟩
    exact distinctWidgets_eq_error (mt hp.nodup_iff.mp hn) (h.perm hp)

example : distinctWidgets ["é", "b", "Z", "b", "é", "a", "Z", "b"] =
    .error (.duplicateWidgets ["Z", "b", "é"]) := by
  cbv

end AgentControl
