import AgentControl.Proofs.Value.Mapping
import AgentControl.Settings.Overrides

/-! # What overrides change

A value is found in nested mappings by the path of keys to it. Writing at the end of a path
changes what is under it, makes every value on the way a mapping, and leaves all that is
not on its way as it was.
-/

namespace AgentControl

open Value (Entries)

namespace Value

variable {k : String} {ks : List String} {v : Value} {es : Entries}

/-- The value under a path of text keys. -/
def under : List String → Value → Option Value
  | [], v => some v
  | k :: ks, .dict entries => (lookup k entries).bind (under ks)
  | _ :: _, _ => none

@[simp] theorem under_nil : under [] v = some v := rfl

@[simp] theorem under_cons_dict : under (k :: ks) (.dict es) = (lookup k es).bind (under ks) := rfl

theorem under_cons_of_ne (h : ∀ es, v ≠ .dict es) : under (k :: ks) v = none := by
  cases v with
  | dict es => exact absurd rfl (h es)
  | _ => rfl

theorem under_singleton : under [k] (.dict es) = lookup k es := by
  rw [under_cons_dict]
  cases lookup k es <;> rfl

end Value

namespace Overrides

open Value (under lookup lookup_put_self lookup_put_of_ne)

variable {p q rest : List String} {k : String} {v : Value} {es : Entries} {o : Option Value}
  {os : Overrides}

/-- What is no section makes way for an empty one, in which nothing is found either. -/
theorem under_section? : under (k :: q) (.dict (section? o)) = o.bind (under (k :: q)) := by
  cases o with
  | none => rfl
  | some v =>
    by_cases h : ∃ es, v = .dict es
    · obtain ⟨es, rfl⟩ := h
      rfl
    · rw [Option.bind_some, Value.under_cons_of_ne fun es he => h ⟨es, he⟩]
      cases v <;> first | rfl | exact absurd ⟨_, rfl⟩ h

/-- Neither of two paths leads through the end of the other. -/
def Unrelated (p q : List String) : Prop := ¬ p <+: q ∧ ¬ q <+: p

instance : Decidable (Unrelated p q) := inferInstanceAs (Decidable (_ ∧ _))

theorem Unrelated.tail (h : Unrelated (k :: p) (k :: q)) : Unrelated p q := by
  simpa only [Unrelated, List.cons_prefix_cons, true_and] using h

theorem Unrelated.ne_nil (h : Unrelated p q) : q ≠ [] := by
  rintro rfl
  exact h.2 List.nil_prefix

theorem under_assign_append (hp : p ≠ []) :
    under (p ++ rest) (.dict (assign p v es)) = under rest v := by
  induction p generalizing es with
  | nil => exact absurd rfl hp
  | cons name p ih =>
    cases p with
    | nil => simp only [assign, List.singleton_append, Value.under_cons_dict, lookup_put_self,
        Option.bind_some]
    | cons next p =>
      simp only [assign, List.cons_append, Value.under_cons_dict, lookup_put_self, Option.bind_some]
      exact ih (List.cons_ne_nil next p)

theorem under_assign_self (hp : p ≠ []) : under p (.dict (assign p v es)) = some v := by
  have h : under (p ++ []) (.dict (assign p v es)) = under [] v := under_assign_append hp
  rwa [List.append_nil] at h

theorem under_assign_of_unrelated (h : Unrelated p q) :
    under q (.dict (assign p v es)) = under q (.dict es) := by
  induction p generalizing q es with
  | nil => exact absurd List.nil_prefix h.1
  | cons name p ih =>
    obtain ⟨k, q, rfl⟩ := List.exists_cons_of_ne_nil h.ne_nil
    cases p with
    | nil =>
      have hn : name ≠ k := by
        rintro rfl
        exact h.1 ⟨q, rfl⟩
      simp only [assign, Value.under_cons_dict, lookup_put_of_ne hn]
    | cons next p =>
      by_cases hn : name = k
      · subst hn
        have ht := h.tail
        obtain ⟨l, q, rfl⟩ := List.exists_cons_of_ne_nil ht.ne_nil
        rw [assign, Value.under_cons_dict, lookup_put_self, Option.bind_some, ih ht, under_section?]
        rfl
      · simp only [assign, Value.under_cons_dict, lookup_put_of_ne hn]

/-- What stands on the way to a value that is written is a mapping. -/
theorem under_assign_of_prefix (hr : rest ≠ []) :
    ∃ fs, under q (.dict (assign (q ++ rest) v es)) = some (.dict fs) := by
  induction q generalizing es with
  | nil => exact ⟨_, rfl⟩
  | cons name q ih =>
    obtain ⟨next, p, hp⟩ := List.exists_cons_of_ne_nil (List.append_ne_nil_of_right_ne_nil q hr)
    rw [List.cons_append]
    rw [hp] at ih ⊢
    simp only [assign, Value.under_cons_dict, lookup_put_self, Option.bind_some]
    exact ih

/-! ## All of them -/

/-- The value that was given last under a key. -/
def given (os : Overrides) (key : String) : Option Value := os.reverse.lookup key

theorem given_cons {key : String} {o : String × Value} :
    given (o :: os) key = (given os key).or (if key = o.1 then some o.2 else none) :=
  lookup_reverse_cons

theorem apply_cons {o : String × Value} :
    apply (o :: os) es = apply os (assign (keyPath o.1) o.2 es) := rfl

end Overrides

end AgentControl
