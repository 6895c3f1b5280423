import Mathlib.Data.List.TakeWhile
import AgentControl.Console.Basic

/-! # Anchors

An anchor stands for an identifier, behind any number of number signs. With one number
sign in front the identifier is a selector of its own, and the document has what it asks
for at a single identifier.
-/

namespace AgentControl.Selector

variable {c : Char} {cs : List Char} {name text : String} {fuel : Nat}

/-- The names that elements can be found by. -/
def IsName (name : String) : Prop :=
  ∃ c cs, name.toList = c :: cs ∧ isNameStart c ∧ cs.all isNameChar

def StandsFor (text name : String) : Prop :=
  IsName name ∧ ∃ k, text.toList = List.replicate k '#' ++ name.toList

theorem name?_cons (hc : isNameStart c) (hcs : cs.all isNameChar) :
    name? (c :: cs) = some (String.ofList (c :: cs), []) := by
  have hall : ∀ d ∈ cs, isNameChar d := List.all_eq_true.mp hcs
  rw [name?, if_pos hc, List.takeWhile_eq_self_iff.mpr hall, List.dropWhile_eq_nil_iff.mpr hall]

/-- A number sign reads a name unless a blank follows, which makes it open a comment. -/
theorem parseFrom_sign (h : c ≠ ' ') :
    parseFrom (fuel + 1) false [] false ('#' :: c :: cs) =
      (name? (c :: cs)).bind fun (n, rest) => parseFrom fuel true [.id n] false rest := by
  have hb : Text.isBlank '#' = false := by decide
  conv => lhs; unfold parseFrom
  simp [hb, h, extend]

theorem parse?_sign (h : IsName name) : parse? ("#" ++ name) = some [[.id name]] := by
  obtain ⟨c, cs, hn, hc, hcs⟩ := h
  have hs : c ≠ ' ' := by
    rintro rfl
    exact absurd hc (by decide)
  have ht : ("#" ++ name).toList = '#' :: c :: cs := by
    rw [String.toList_append, hn]
    rfl
  have he : String.ofList (c :: cs) = name := by
    rw [← hn, String.ofList_toList]
  rw [parse?, ht, parseFrom_sign hs, name?_cons hc hcs, he]
  rfl

theorem hasAnchor_id : hasAnchor [[.id name]] = (name == anchor) := by
  simp [hasAnchor, Part.holds]

theorem targetOf_of_standsFor (h : StandsFor text name) : Console.targetOf text = name := by
  obtain ⟨⟨c, cs, hn, hc, -⟩, k, ht⟩ := h
  have hsigns : ∀ d ∈ List.replicate k '#', (d == '#') = true := by
    intro d hd
    rw [List.eq_of_mem_replicate hd]
    rfl
  have hs : (c == '#') = false := by
    refine beq_eq_false_iff_ne.mpr ?_
    rintro rfl
    exact absurd hc (by decide)
  have hd : name.toList.dropWhile (· == '#') = name.toList := by
    rw [hn, List.dropWhile_cons, hs]
    rfl
  rw [Console.targetOf, ht, List.dropWhile_append_of_pos hsigns, hd, String.ofList_toList]

end AgentControl.Selector
