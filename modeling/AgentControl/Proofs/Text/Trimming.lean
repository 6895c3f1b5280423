import Mathlib.Data.List.DropRight
import AgentControl.Text.Blank

/-! # Trimmed texts

Trimming leaves a text that neither begins nor ends with what is trimmed, and
leaves such a text as it is.
-/

namespace AgentControl.Text

variable {p q : Char → Bool} {c : Char} {cs : List Char}

/-- A text that neither begins nor ends with what satisfies `p`. -/
structure Trimmed (p : Char → Bool) (cs : List Char) : Prop where
  head : ∀ c, cs.head? = some c → p c = false
  last : ∀ c, cs.getLast? = some c → p c = false

theorem Trimmed.mono (h : Trimmed p cs) (hq : ∀ c, p c = false → q c = false) : Trimmed q cs :=
  ⟨fun c hc => hq c (h.head c hc), fun c hc => hq c (h.last c hc)⟩

theorem Trimmed.of_forall (h : ∀ c ∈ cs, p c = false) : Trimmed p cs :=
  ⟨fun c hc => h c (List.mem_of_head? hc), fun c hc => h c (List.mem_of_getLast? hc)⟩

theorem not_of_head_dropWhile (h : (cs.dropWhile p).head? = some c) : p c = false := by
  have hn := List.head?_dropWhile_not p cs
  rwa [h] at hn

theorem trimmed_trimBy : Trimmed p (trimBy p cs) := by
  constructor
  · intro c hc
    obtain ⟨rest, hr⟩ := List.head?_eq_some_iff.mp hc
    obtain ⟨dropped, hd⟩ : trimBy p cs <+: cs.dropWhile p := List.rdropWhile_prefix p _
    refine @not_of_head_dropWhile p c cs ?_
    rw [← hd, hr, List.cons_append, List.head?_cons]
  · intro c hc
    rw [trimBy, List.getLast?_reverse] at hc
    exact not_of_head_dropWhile hc

theorem dropWhile_of_head (h : ∀ c, cs.head? = some c → p c = false) : cs.dropWhile p = cs := by
  cases cs with
  | nil => rfl
  | cons c cs => exact List.dropWhile_cons_of_neg (by simp [h c rfl])

/-- Nothing is trimmed off a trimmed text. -/
theorem Trimmed.trimBy_eq (h : Trimmed p cs) : trimBy p cs = cs := by
  have hr : ∀ c, cs.reverse.head? = some c → p c = false := by
    intro c hc
    rw [List.head?_reverse] at hc
    exact h.last c hc
  rw [trimBy, dropWhile_of_head h.head, dropWhile_of_head hr, List.reverse_reverse]

theorem trimBy_of_forall (h : ∀ c ∈ cs, p c = false) : trimBy p cs = cs :=
  (Trimmed.of_forall h).trimBy_eq

theorem isSpace_of_isBlank (h : isBlank c = false) : isSpace c = false :=
  (Bool.or_eq_false_iff.mp h).1

end AgentControl.Text
