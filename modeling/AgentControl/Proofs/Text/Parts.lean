import Mathlib.Data.List.Basic
import AgentControl.Text.Blank

/-! # The parts of a text

A text is split at every separator and nowhere else: its parts hold none, and joined by it
they are the text again.
-/

namespace AgentControl.Text

variable {sep : Char} {cs part : List Char} {s t : String} {parts : List String}

theorem not_mem_append (hs : sep ∉ s.toList) (ht : sep ∉ t.toList) : sep ∉ (s ++ t).toList := by
  rw [String.toList_append, List.mem_append]
  exact not_or.mpr ⟨hs, ht⟩

theorem splitOn_eq : splitOn sep cs = cs.splitOn sep := by
  induction cs with
  | nil => rfl
  | cons c cs ih =>
    rw [splitOn, ih, List.splitOn_cons_eq_if_modifyHead]
    by_cases h : c = sep
    · simp [h]
    · rw [if_neg h, if_neg (by simpa using h)]
      obtain ⟨p, ps, hp⟩ := List.exists_cons_of_ne_nil (List.splitOn_ne_nil sep cs)
      rw [hp, List.modifyHead_cons]

theorem not_mem_of_mem_splitOn (h : part ∈ splitOn sep cs) : sep ∉ part := by
  induction cs generalizing part with
  | nil =>
    rw [List.mem_singleton.mp h]
    exact List.not_mem_nil
  | cons c cs ih =>
    rw [splitOn] at h
    by_cases hc : c = sep
    · rw [if_pos hc] at h
      rcases List.mem_cons.mp h with rfl | h
      · exact List.not_mem_nil
      · exact ih h
    · rw [if_neg hc] at h
      cases hs : splitOn sep cs with
      | nil => exact absurd hs (splitOn_ne_nil sep cs)
      | cons p ps =>
        rw [hs] at h ih
        rcases List.mem_cons.mp h with rfl | h
        · rw [List.mem_cons, not_or]
          exact ⟨Ne.symm hc, ih List.mem_cons_self⟩
        · exact ih (List.mem_cons_of_mem p h)

/-- The parts that a text is split into are those without a separator that are joined to it. -/
theorem map_splitOn_eq_iff : (splitOn sep s.toList).map String.ofList = parts ↔
    parts ≠ [] ∧ (∀ part ∈ parts, sep ∉ part.toList) ∧ join (String.singleton sep) parts = s := by
  constructor
  · rintro rfl
    refine ⟨?_, ?_, ?_⟩
    · simpa using splitOn_ne_nil sep s.toList
    · simp only [List.mem_map]
      rintro _ ⟨part, h, rfl⟩
      rw [String.toList_ofList]
      exact not_mem_of_mem_splitOn h
    · apply String.toList_injective
      rw [join, String.toList_intercalate, List.map_map, splitOn_eq]
      simp [Function.comp_def, List.intercalate_splitOn]
  · rintro ⟨hn, hs, rfl⟩
    rw [join, String.toList_intercalate, splitOn_eq, String.toList_singleton,
      List.splitOn_intercalate]
    · simp [Function.comp_def]
    · simpa using hs
    · simpa using hn

end AgentControl.Text
