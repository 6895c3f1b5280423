import Mathlib.Data.List.Induction
import AgentControl.Proofs.Settings.Overrides
import AgentControl.Proofs.Text.Parts

/-! # The last write

What overrides leave at a path is up to the last of them that has to do with it: the rest of the way
in its value where it leads there, and a mapping where it leads further on. Entries under keys that
are no text are lost only with what holds them.
-/

namespace AgentControl

open Value (Entries)

/-! ## The last of a list -/

section Last

variable {α : Type} {P : α → Prop} {xs ys : List α} {x y : α}

/-- The last member of a list that has a property. -/
def LastOf (P : α → Prop) (xs : List α) (x : α) : Prop :=
  ∃ before after, xs = before ++ x :: after ∧ P x ∧ ∀ y ∈ after, ¬ P y

namespace LastOf

theorem mem (h : LastOf P xs x) : x ∈ xs := by
  obtain ⟨before, after, rfl, -, -⟩ := h
  simp

theorem holds (h : LastOf P xs x) : P x := by
  obtain ⟨_, _, -, hx, -⟩ := h
  exact hx

theorem snoc (hx : P x) : LastOf P (xs ++ [x]) x := ⟨xs, [], rfl, hx, List.forall_mem_nil _⟩

theorem snoc_of_not (h : LastOf P xs x) (hy : ¬ P y) : LastOf P (xs ++ [y]) x := by
  obtain ⟨before, after, rfl, hx, ha⟩ := h
  refine ⟨before, after ++ [y], by simp, hx, ?_⟩
  intro z hz
  rcases List.mem_append.mp hz with hz | hz
  · exact ha z hz
  · rwa [List.mem_singleton.mp hz]

end LastOf

end Last

/-! ## Entries under other keys -/

namespace Value

variable {k : String} {v : Value} {es : Entries}

def isText : Value → Bool
  | .str _ => true
  | _ => false

/-- The entries whose keys are no text. -/
def others (es : Entries) : Entries := es.filter fun e => !e.1.isText

theorem others_put : others (put k v es) = others es := by
  fun_induction put k v es with
  | case1 => rfl
  | case2 => rfl
  | case3 _ _ _ _ ih => exact ih
  | case4 e rest _ ih => simp only [others, List.filter_cons] at ih ⊢; rw [ih]

/-- The entries under other keys of a mapping; there are none of anything else. -/
def othersOf : Option Value → Entries
  | some (.dict es) => others es
  | _ => []

end Value

namespace Overrides

open Value (under lookup others othersOf lookup_put_self lookup_put_of_ne others_put)

variable {p q rest : List String} {k : String} {v : Value} {es fs : Entries} {o : Option Value}
  {os : Overrides} {w : String × Value}

theorem othersOf_section? : othersOf (under q (.dict (section? o))) = othersOf
    (o.bind (under q)) := by
  cases q with
  | nil =>
    cases o with
    | none => rfl
    | some v => cases v <;> rfl
  | cons k q => rw [under_section?]

/-- A value that is not written over keeps its entries under other keys. -/
theorem othersOf_assign (h : ¬ p <+: q) :
    othersOf (under q (.dict (assign p v es))) = othersOf (under q (.dict es)) := by
  induction p generalizing q es with
  | nil => exact absurd List.nil_prefix h
  | cons name p ih =>
    cases q with
    | nil => cases p <;> exact others_put
    | cons k q =>
      by_cases hn : name = k
      · subst hn
        rw [List.cons_prefix_cons, not_and] at h
        cases p with
        | nil => exact absurd List.nil_prefix (h rfl)
        | cons next p =>
          rw [assign, Value.under_cons_dict, lookup_put_self, Option.bind_some, ih (h rfl),
            othersOf_section?, Value.under_cons_dict]
      · cases p <;> simp only [assign, Value.under_cons_dict, lookup_put_of_ne hn]

/-! ## What is found after all of them -/

/-- The path of a key has the parts between its dots. -/
theorem keyPath_eq_iff {key : String} : keyPath key = p ↔
    p ≠ [] ∧ (∀ part ∈ p, '.' ∉ part.toList) ∧ Text.join "." p = key :=
  Text.map_splitOn_eq_iff

theorem keyPath_ne_nil (key : String) : keyPath key ≠ [] := (keyPath_eq_iff.mp rfl).1

theorem apply_snoc : apply (os ++ [w]) es = assign (keyPath w.1) w.2 (apply os es) := by
  simp [apply]

/-- An override has to do with a path: one of it and the override's own path leads
through the other's end.
-/
def Concerns (q : List String) (w : String × Value) : Prop := ¬ Unrelated (keyPath w.1) q

/-- An override is written over what holds a path, or over what stands there. -/
def Covers (q : List String) (w : String × Value) : Prop := keyPath w.1 <+: q

instance : Decidable (Covers q w) := inferInstanceAs (Decidable (_ <+: _))

theorem concerns_iff : Concerns q w ↔ keyPath w.1 <+: q ∨ q <+: keyPath w.1 := by
  rw [Concerns, Unrelated]
  tauto

/-- What is found at a path by what overrides say: what was there before, the rest of the way in the
last value that concerns the path, or a mapping on the way to that value. -/
inductive Found (os : Overrides) (es : Entries) (q : List String) : Option Value → Prop where
  | kept : (∀ w ∈ os, Unrelated (keyPath w.1) q) → Found os es q (under q (.dict es))
  | written {w : String × Value} {rest : List String} : LastOf (Concerns q) os w →
      q = keyPath w.1 ++ rest → Found os es q (under rest w.2)
  | passed {w : String × Value} {rest : List String} {fs : Entries} : LastOf (Concerns q) os w →
      keyPath w.1 = q ++ rest → rest ≠ [] → Found os es q (some (.dict fs))

theorem Found.snoc_of_unrelated (h : Found os es q o) (hw : Unrelated (keyPath w.1) q) :
    Found (os ++ [w]) es q o := by
  have hc : ¬ Concerns q w := not_not_intro hw
  cases h with
  | kept ho => exact .kept (List.forall_mem_append.mpr ⟨ho, List.forall_mem_singleton.mpr hw⟩)
  | written hl hq => exact .written (hl.snoc_of_not hc) hq
  | passed hl hp hr => exact .passed (hl.snoc_of_not hc) hp hr

theorem found_apply (os : Overrides) (es : Entries) (q : List String) :
    Found os es q (under q (.dict (os.apply es))) := by
  induction os using List.reverseRecOn with
  | nil => exact .kept (List.forall_mem_nil _)
  | append_singleton os w ih =>
    rw [apply_snoc]
    by_cases hw : Unrelated (keyPath w.1) q
    · rw [under_assign_of_unrelated hw]
      exact ih.snoc_of_unrelated hw
    · have hl : LastOf (Concerns q) (os ++ [w]) w := .snoc hw
      by_cases hp : keyPath w.1 <+: q
      · obtain ⟨rest, rfl⟩ := hp
        rw [under_assign_append (keyPath_ne_nil w.1)]
        exact .written hl rfl
      · obtain ⟨rest, hr⟩ := (concerns_iff.mp hw).resolve_left hp
        have hn : rest ≠ [] := by
          rintro rfl
          rw [List.append_nil] at hr
          exact hp (hr ▸ List.prefix_rfl)
        have hs : ∃ fs, under q (.dict (assign (q ++ rest) w.2 (apply os es))) = some (.dict fs) :=
          under_assign_of_prefix hn
        obtain ⟨fs, hf⟩ := hs
        rw [← hr, hf]
        exact .passed hl hr.symm hn

/-- The entries under other keys that are found at a path are those of the last value that was
written over it, or those that were there before. -/
inductive Remaining (os : Overrides) (es : Entries) (q : List String) : Entries → Prop where
  | kept : (∀ w ∈ os, ¬ Covers q w) → Remaining os es q (othersOf (under q (.dict es)))
  | written {w : String × Value} {rest : List String} : LastOf (Covers q) os w →
      q = keyPath w.1 ++ rest → Remaining os es q (othersOf (under rest w.2))

theorem remaining_apply (os : Overrides) (es : Entries) (q : List String) :
    Remaining os es q (othersOf (under q (.dict (os.apply es)))) := by
  induction os using List.reverseRecOn with
  | nil => exact .kept (List.forall_mem_nil _)
  | append_singleton os w ih =>
    rw [apply_snoc]
    by_cases hw : Covers q w
    · obtain ⟨rest, rfl⟩ := hw
      rw [under_assign_append (keyPath_ne_nil w.1)]
      exact .written (.snoc ⟨rest, rfl⟩) rfl
    · rw [othersOf_assign hw]
      generalize othersOf (under q (.dict (apply os es))) = left at ih
      cases ih with
      | kept ho => exact .kept (List.forall_mem_append.mpr ⟨ho, List.forall_mem_singleton.mpr hw⟩)
      | written hl hq => exact .written (hl.snoc_of_not hw) hq

/-- What is found at a path is left there by the last override that concerns it, or else was there
before; and a mapping that nothing is written over keeps its entries under keys that are no text. -/
theorem last_related_write (os : Overrides) (es : Entries) (q : List String) :
    (∀ key p, keyPath key = p ↔
        p ≠ [] ∧ (∀ part ∈ p, '.' ∉ part.toList) ∧ Text.join "." p = key) ∧
      Found os es q (under q (.dict (os.apply es))) ∧
      ∀ fs, under q (.dict es) = some (.dict fs) → (∀ w ∈ os, ¬ Covers q w) →
        ∃ gs, under q (.dict (os.apply es)) = some (.dict gs) ∧ others gs = others fs := by
  refine ⟨fun _ _ => keyPath_eq_iff, found_apply os es q, ?_⟩
  intro fs hfs hw
  have hfound := found_apply os es q
  have hleft := remaining_apply os es q
  generalize under q (.dict (os.apply es)) = found at hfound hleft
  have hothers : othersOf found = others fs := by
    generalize othersOf found = left at hleft
    cases hleft with
    | kept _ => rw [hfs]; rfl
    | written hl _ => exact absurd hl.holds (hw _ hl.mem)
  cases hfound with
  | kept _ => exact ⟨fs, hfs, rfl⟩
  | written hl hq => exact absurd ⟨_, hq.symm⟩ (hw _ hl.mem)
  | passed _ _ _ => exact ⟨_, rfl, hothers⟩

/-- A mapping with keys of several kinds, in which one setting is no section yet. -/
def layeredEntries : Entries :=
  [(.int 1, .str "one"), (.str "theme", .dict [(.bool true, .null), (.str "preset", .str "aura")]),
    (.str "logging", .str "loud")]

def layeredOverrides : Overrides :=
  [("logging.level", .str "debug"), ("theme.preset.dark", .str "nord"), ("logging", .null),
    ("theme..", .int 0), ("logging.file", .str "a.log")]

theorem last_related_write_layered :
    under ["theme"] (.dict layeredEntries) =
        some (.dict [(.bool true, .null), (.str "preset", .str "aura")]) ∧
      (∀ w ∈ layeredOverrides, ¬ Covers ["theme"] w) ∧
      ∃ gs, under ["theme"] (.dict (layeredOverrides.apply layeredEntries)) = some (.dict gs) ∧
        others gs = [(.bool true, .null)] := by
  have hu : under ["theme"] (.dict layeredEntries) =
      some (.dict [(.bool true, .null), (.str "preset", .str "aura")]) := rfl
  have hc : ∀ w ∈ layeredOverrides, ¬ Covers ["theme"] w := by decide
  obtain ⟨-, -, h⟩ := last_related_write layeredOverrides layeredEntries ["theme"]
  exact ⟨hu, hc, h _ hu hc⟩

end Overrides

end AgentControl
