import Mathlib.Data.List.Nodup
import Mathlib.Data.List.Perm.Basic
import AgentControl.Proofs.Settings.LastWrite

/-! # Overrides again and in another order

Mappings are the same where each of their paths leads to the same, so what overrides make of a
mapping is known from the last of them that concerns each path. It does not change when all are
written once more, nor when they change places without one passing another that it has to do with.
-/

namespace AgentControl

open Value (Entries)

/-! ## Equality up to the order of keys -/

namespace Value

variable {k : String} {v w : Value} {es fs : Entries} {o : Option Value}

/-- Values that are equal but for the order in which mappings hold their text keys. -/
inductive Same : Value → Value → Prop where
  | refl {v : Value} : Same v v
  | dict {es fs : Entries} : others es = others fs →
      (∀ k, lookup k es = none ↔ lookup k fs = none) →
      (∀ k v w, lookup k es = some v → lookup k fs = some w → Same v w) →
      Same (.dict es) (.dict fs)

/-- What is found in two values at one path: the same, or mappings with the same
entries under other keys. -/
inductive AgreeAt : Option Value → Option Value → Prop where
  | same {o : Option Value} : AgreeAt o o
  | dicts {es fs : Entries} : others es = others fs → AgreeAt (some (.dict es)) (some (.dict fs))

theorem AgreeAt.eq_none_iff {o p : Option Value} (h : AgreeAt o p) : o = none ↔ p = none := by
  cases h <;> simp

theorem sizeOf_lt_of_mem (h : (.str k, v) ∈ es) : sizeOf v < sizeOf (Value.dict es) := by
  have h₁ := List.sizeOf_lt_of_mem h
  simp only [Prod.mk.sizeOf_spec] at h₁
  simp only [Value.dict.sizeOf_spec]
  omega

/-- Values are the same where all paths lead to the same in them. -/
theorem Same.of_under (h : ∀ q, AgreeAt (under q v) (under q w)) : Same v w := by
  generalize hn : sizeOf v = n
  induction n using Nat.strongRecOn generalizing v w with
  | _ n ih =>
    have h₀ := h []
    rw [under_nil, under_nil] at h₀
    generalize hv : some v = o at h₀
    generalize hw : some w = p at h₀
    cases h₀ with
    | same =>
      obtain rfl := Option.some.inj (hv.trans hw.symm)
      exact .refl
    | @dicts es fs ho =>
      obtain rfl := Option.some.inj hv
      obtain rfl := Option.some.inj hw
      refine .dict ho (fun k => ?_) fun k v w hv hw => ?_
      · have hk := (h [k]).eq_none_iff
        rwa [under_singleton, under_singleton] at hk
      · refine ih _ (hn ▸ sizeOf_lt_of_mem (mem_of_lookup hv)) (fun q => ?_) rfl
        have hq := h (k :: q)
        rwa [under_cons_dict, under_cons_dict, hv, hw] at hq

end Value

/-! ## The last of a list, and its place -/

namespace LastOf

variable {α : Type} {P : α → Prop} {xs ys : List α} {x y : α}

theorem eq_or_sublist (h : LastOf P xs x) (hm : y ∈ xs) (hy : P y) : y = x ∨ [y, x].Sublist xs := by
  obtain ⟨before, after, rfl, -, ha⟩ := h
  rcases List.mem_append.mp hm with hm | hm
  · right
    exact (List.singleton_sublist.mpr hm).append (List.singleton_sublist.mpr List.mem_cons_self)
  · rcases List.mem_cons.mp hm with rfl | hm
    · exact Or.inl rfl
    · exact absurd hy (ha y hm)

theorem not_sublist (hn : xs.Nodup) (h : LastOf P xs x) (hy : P y) : ¬ [x, y].Sublist xs := by
  obtain ⟨before, after, rfl, -, ha⟩ := h
  intro hs
  obtain ⟨-, -, hd⟩ := List.nodup_append.mp hn
  obtain ⟨l, r, he, hl, hr⟩ := List.sublist_append_iff.mp hs
  cases l with
  | nil =>
    rw [List.nil_append] at he
    rw [← he, List.cons_sublist_cons, List.singleton_sublist] at hr
    exact ha y hr hy
  | cons a l =>
    obtain ⟨rfl, -⟩ := List.cons.inj he
    exact hd x (hl.mem List.mem_cons_self) x List.mem_cons_self rfl

theorem append_left (h : LastOf P xs x) : LastOf P (ys ++ xs) x := by
  obtain ⟨before, after, rfl, hx, ha⟩ := h
  exact ⟨ys ++ before, after, by simp, hx, ha⟩

theorem unique (h : LastOf P xs x) (h' : LastOf P xs y) : x = y := by
  obtain ⟨before, after, rfl, hx, ha⟩ := h
  obtain ⟨before', after', he, hy, ha'⟩ := h'
  rcases List.append_eq_append_iff.mp he with ⟨l, rfl, hl⟩ | ⟨l, rfl, hl⟩
  · cases l with
    | nil => exact (List.cons.inj hl).1
    | cons a l =>
      obtain ⟨-, rfl⟩ := List.cons.inj hl
      exact absurd hy (ha y (by simp))
  · cases l with
    | nil => exact (List.cons.inj hl).1.symm
    | cons a l =>
      obtain ⟨-, rfl⟩ := List.cons.inj hl
      exact absurd hx (ha' x (by simp))

end LastOf

/-! ## Overrides that come to the same -/

namespace Overrides

open Value (under others othersOf Same AgreeAt)

variable {q : List String} {v w : String × Value} {es fs : Entries} {os ps : Overrides}

/-- Two overrides have to do with each other. -/
def Related (v w : String × Value) : Prop := ¬ Unrelated (keyPath v.1) (keyPath w.1)

instance : Decidable (Related v w) := inferInstanceAs (Decidable (¬ _))

theorem related_iff : Related v w ↔ keyPath v.1 <+: keyPath w.1 ∨ keyPath w.1 <+: keyPath v.1 := by
  rw [Related, Unrelated]
  tauto

theorem Related.symm (h : Related v w) : Related w v :=
  related_iff.mpr (related_iff.mp h).symm

/-- Whatever covers a path is related to all that concerns it. -/
theorem Covers.related (hv : Covers q v) (hw : Concerns q w) : Related v w := by
  rw [related_iff]
  rcases concerns_iff.mp hw with hw | hw
  · exact List.prefix_or_prefix_of_prefix hv hw
  · exact Or.inl (hv.trans hw)

theorem Covers.concerns (h : Covers q w) : Concerns q w := concerns_iff.mpr (Or.inl h)

/-- Overrides of which, by any rule, the same one is the last, unless the two are unrelated. -/
structure Interchangeable (os ps : Overrides) : Prop where
  mem_iff : ∀ w, w ∈ os ↔ w ∈ ps
  last_eq : ∀ (P : String × Value → Prop) v w, LastOf P os v → LastOf P ps w → Related v w → v = w

theorem Interchangeable.othersOf_eq (h : Interchangeable os ps) (es : Entries) (q : List String) :
    othersOf (under q (.dict (os.apply es))) = othersOf (under q (.dict (ps.apply es))) := by
  have ho := remaining_apply os es q
  have hp := remaining_apply ps es q
  generalize othersOf (under q (.dict (os.apply es))) = left at ho
  generalize othersOf (under q (.dict (ps.apply es))) = right at hp
  cases ho with
  | kept ho =>
    cases hp with
    | kept _ => rfl
    | written hl _ => exact absurd hl.holds (ho _ ((h.mem_iff _).mpr hl.mem))
  | written hl hq =>
    cases hp with
    | kept hp => exact absurd hl.holds (hp _ ((h.mem_iff _).mp hl.mem))
    | written hl' hq' =>
      obtain rfl := h.last_eq _ _ _ hl hl' (hl.holds.related hl'.holds.concerns)
      rw [List.append_cancel_left (hq.symm.trans hq')]

/-- What covers a path does not lead on from it. -/
theorem not_covers_of_eq_append {rest : List String} (h : keyPath w.1 = q ++ rest)
    (hr : rest ≠ []) :
    ¬ Covers q w := by
  intro hc
  have hl := hc.length_le
  rw [h, List.length_append] at hl
  have := List.length_pos_iff.mpr hr
  omega

theorem Interchangeable.agreeAt (h : Interchangeable os ps) (es : Entries) (q : List String) :
    AgreeAt (under q (.dict (os.apply es))) (under q (.dict (ps.apply es))) := by
  have hothers := h.othersOf_eq es q
  have ho := found_apply os es q
  have hp := found_apply ps es q
  generalize under q (.dict (os.apply es)) = left at ho hothers
  generalize under q (.dict (ps.apply es)) = right at hp hothers
  cases ho with
  | kept ho =>
    cases hp with
    | kept _ => exact .same
    | written hl _ => exact absurd (ho _ ((h.mem_iff _).mpr hl.mem)) hl.holds
    | passed hl _ _ => exact absurd (ho _ ((h.mem_iff _).mpr hl.mem)) hl.holds
  | written hl hq =>
    have hc : Covers q _ := ⟨_, hq.symm⟩
    cases hp with
    | kept hp => exact absurd (hp _ ((h.mem_iff _).mp hl.mem)) hl.holds
    | written hl' hq' =>
      obtain rfl := h.last_eq _ _ _ hl hl' (hc.related hl'.holds)
      rw [List.append_cancel_left (hq.symm.trans hq')]
      exact .same
    | passed hl' hq' hr =>
      obtain rfl := h.last_eq _ _ _ hl hl' (hc.related hl'.holds)
      exact absurd hc (not_covers_of_eq_append hq' hr)
  | passed hl hq hr =>
    cases hp with
    | kept hp => exact absurd (hp _ ((h.mem_iff _).mp hl.mem)) hl.holds
    | written hl' hq' =>
      have hc : Covers q _ := ⟨_, hq'.symm⟩
      obtain rfl := h.last_eq _ _ _ hl hl' (hc.related hl.holds).symm
      exact absurd hc (not_covers_of_eq_append hq hr)
    | passed _ _ _ => exact .dicts hothers

theorem Interchangeable.same (h : Interchangeable os ps) (es : Entries) :
    Same (.dict (os.apply es)) (.dict (ps.apply es)) :=
  .of_under (h.agreeAt es)

/-! ## Again -/

theorem apply_append : apply (os ++ ps) es = apply ps (apply os es) := List.foldl_append

theorem interchangeable_append_self (os : Overrides) : Interchangeable (os ++ os) os where
  mem_iff w := by simp
  last_eq P v w hv hw _ := hv.unique hw.append_left

/-! ## In another order -/

/-- The same overrides, in an order in which no two that are related have changed places. -/
structure Reordering (os ps : Overrides) : Prop where
  perm : ps.Perm os
  order : ∀ v w, Related v w → [v, w].Sublist os → [v, w].Sublist ps

theorem Reordering.interchangeable (hd : (os.map Prod.fst).Nodup) (h : Reordering os ps) :
    Interchangeable ps os where
  mem_iff w := h.perm.mem_iff
  last_eq P v w hv hw hr := by
    -- were they two, then `v` before `w` on one side and `w` before `v` on the other
    rcases hw.eq_or_sublist (h.perm.mem_iff.mp hv.mem) hv.holds with he | hs
    · exact he
    · have hn : ps.Nodup := h.perm.nodup_iff.mpr (hd.of_map _)
      exact absurd (h.order _ _ hr hs) (hv.not_sublist hn hw.holds)

/-- Overrides that are written once more change nothing, nor does it matter in which order they are
written as long as those that are related keep theirs. -/
theorem apply_again_or_reordered (os : Overrides) (es : Entries) :
    Same (.dict (os.apply (os.apply es))) (.dict (os.apply es)) ∧
      ∀ ps, (os.map Prod.fst).Nodup → Reordering os ps →
        Same (.dict (ps.apply es)) (.dict (os.apply es)) := by
  constructor
  · rw [← apply_append]
    exact (interchangeable_append_self os).same es
  · intro ps hd h
    exact (h.interchangeable hd).same es

def sectionOverrides : Overrides :=
  [("logging", .dict [(.str "file", .str "a.log")]), ("logging.level", .str "debug"),
    ("theme.preset", .str "nord")]

def movedOverrides : Overrides :=
  [("theme.preset", .str "nord"), ("logging", .dict [(.str "file", .str "a.log")]),
    ("logging.level", .str "debug")]

theorem apply_again_or_reordered_moved :
    (sectionOverrides.map Prod.fst).Nodup ∧ Reordering sectionOverrides movedOverrides ∧
      Same (.dict (movedOverrides.apply layeredEntries))
        (.dict (sectionOverrides.apply layeredEntries)) := by
  have hd : (sectionOverrides.map Prod.fst).Nodup := by decide
  have hp : sectionOverrides.Pairwise fun v w => Related v w → [v, w].Sublist movedOverrides := by
    simp only [sectionOverrides, List.pairwise_cons, List.forall_mem_cons]
    refine ⟨⟨fun _ => ?_, fun h => ?_, List.forall_mem_nil _⟩, ⟨fun h => ?_, List.forall_mem_nil _⟩,
      List.forall_mem_nil _, .nil⟩
    · exact List.sublist_cons_self _ _
    · exact absurd h (by decide)
    · exact absurd h (by decide)
  have hr : Reordering sectionOverrides movedOverrides :=
    ⟨(List.perm_append_singleton _ [_, _]).symm, fun _ _ hr hs =>
      List.pairwise_iff_forall_sublist.mp hp hs hr⟩
  exact ⟨hd, hr, (apply_again_or_reordered sectionOverrides layeredEntries).2 _ hd hr⟩

end Overrides

end AgentControl
