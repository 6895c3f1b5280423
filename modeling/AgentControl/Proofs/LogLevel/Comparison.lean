import Mathlib.Data.String.Basic
import AgentControl.LogLevel.Order

/-! # The order of levels and texts

Whichever side is asked first, a level stands to a text as their ranks do where the text is the name
of a level, and as the characters of its name do to those of the text where it is not. Nothing but a
text compares with a level.
-/

namespace AgentControl

variable {c : Comparison} {l m : LogLevel} {a b v : Value} {o : Ordering} {s : String}
  {cs ds : List Char} {gap : ℤ}

/-! ## Orderings -/

namespace Comparison

theorem holds_swap : c.holds o.swap = c.mirror.holds o := by
  cases c <;> cases o <;> rfl

theorem holds_mirror_swap : c.mirror.holds o.swap = c.holds o := by
  cases c <;> cases o <;> rfl

theorem holdsAt_of_neg (h : gap < 0) : c.holdsAt gap = c.holds .lt := by
  cases c with
  | lt => exact decide_eq_true h
  | le => exact decide_eq_true h.le
  | gt => exact decide_eq_false h.not_gt
  | ge => exact decide_eq_false h.not_ge

theorem holdsAt_of_pos (h : 0 < gap) : c.holdsAt gap = c.holds .gt := by
  cases c with
  | lt => exact decide_eq_false h.not_gt
  | le => exact decide_eq_false h.not_ge
  | gt => exact decide_eq_true h
  | ge => exact decide_eq_true h.le

theorem holdsAt_sub (m n : ℕ) : c.holdsAt ((m : ℤ) - n) = c.holds (compare m n) := by
  rcases Nat.lt_trichotomy m n with h | rfl | h
  · rw [Nat.compare_eq_lt.mpr h, holdsAt_of_neg (by omega)]
  · rw [Nat.compare_eq_eq.mpr rfl, Int.sub_self]
    cases c <;> rfl
  · rw [Nat.compare_eq_gt.mpr h, holdsAt_of_pos (by omega)]

end Comparison

theorem textOrder_swap (cs ds : List Char) : (textOrder cs ds).swap = textOrder ds cs := by
  induction cs generalizing ds with
  | nil => cases ds <;> rfl
  | cons c cs ih =>
    cases ds with
    | nil => rfl
    | cons d ds => rw [textOrder, textOrder, Ordering.swap_then, ih, Nat.compare_swap]

theorem textOrder_eq_eq_iff : textOrder cs ds = .eq ↔ cs = ds := by
  induction cs generalizing ds with
  | nil => cases ds <;> simp [textOrder]
  | cons c cs ih =>
    cases ds with
    | nil => simp [textOrder]
    | cons d ds => simp [textOrder, Ordering.then_eq_eq, ih, Char.toNat_inj]

theorem textOrder_eq_lt_iff : textOrder cs ds = .lt ↔ cs < ds := by
  induction cs generalizing ds with
  | nil => cases ds <;> simp [textOrder]
  | cons c cs ih =>
    cases ds with
    | nil => simp [textOrder]
    | cons d ds =>
      rw [textOrder, Ordering.then_eq_lt, ih, List.cons_lt_cons_iff, Nat.compare_eq_lt,
        Nat.compare_eq_eq, Char.toNat_inj]
      rfl

theorem textOrder_eq_gt_iff : textOrder cs ds = .gt ↔ ds < cs := by
  rw [← textOrder_eq_lt_iff, ← textOrder_swap, Ordering.swap_eq_gt]

/-! ## What is answered -/

theorem Value.text?_eq_some_iff :
    v.text? = some s ↔ v = .str s ∨ ∃ m : LogLevel, v = .level m ∧ m.name = s := by
  cases v <;> simp [Value.text?]

namespace LogLevel

theorem named?_of_text (h : v.text? = some s) : named? v = ofName? s := by
  rcases Value.text?_eq_some_iff.mp h with rfl | ⟨m, rfl, rfl⟩
  · rfl
  · exact (ofName?_name m).symm

theorem named?_of_none (h : v.text? = none) : named? v = none := by
  unfold named?
  split
  · cases h
  · cases h
  · rfl

theorem answer?_of_some (h : named? v = some m) :
    l.answer? c v = some (c.holds (compare l.rank m.rank)) := by
  rw [answer?, gap?, h, Option.map_some, Option.map_some, Comparison.holdsAt_sub]

theorem answer?_of_none (h : named? v = none) : l.answer? c v = none := by
  rw [answer?, gap?, h]
  rfl

/-- How a level stands to a text. -/
def standing (l : LogLevel) (s : String) : Ordering :=
  match ofName? s with
  | some m => compare l.rank m.rank
  | none => textOrder l.name.toList s.toList

theorem standing_name : l.standing m.name = compare l.rank m.rank := by
  rw [standing, ofName?_name]

theorem standing_of_ne (h : ∀ m : LogLevel, m.name ≠ s) :
    l.standing s = textOrder l.name.toList s.toList := by
  have hn : ofName? s = none :=
    Option.eq_none_iff_forall_ne_some.mpr fun m hm => h m (ofName?_eq_some_iff.mp hm)
  rw [standing, hn]

theorem standing_eq_eq_iff : l.standing s = .eq ↔ l.name = s := by
  by_cases h : ∃ m : LogLevel, m.name = s
  · obtain ⟨m, rfl⟩ := h
    rw [standing_name, Nat.compare_eq_eq]
    exact ⟨fun h => congrArg name (rank_injective h), fun h => congrArg rank (name_injective h)⟩
  · rw [standing_of_ne (not_exists.mp h), textOrder_eq_eq_iff, String.toList_inj]

theorem compareBy_level_left (h : v.text? = some s) :
    (Value.level l).compareBy c v = .ok (c.holds (l.standing s)) := by
  have hy : (Value.level l).yields v = false := rfl
  have hl : (Value.level l).answer? c v = l.answer? c v := rfl
  cases hn : ofName? s with
  | some m =>
    simp only [Value.compareBy, hy, hl, answer?_of_some ((named?_of_text h).trans hn), standing, hn]
    rfl
  | none =>
    -- the text is no name, so the level leaves the answer to it
    rcases Value.text?_eq_some_iff.mp h with rfl | ⟨m, rfl, rfl⟩
    · have hr : (Value.str s).answer? c.mirror (.level l) =
          some (c.mirror.holds (textOrder s.toList l.name.toList)) := rfl
      simp only [Value.compareBy, hy, hl, answer?_of_none ((named?_of_text h).trans hn), hr,
        standing, hn, ← textOrder_swap l.name.toList, Comparison.holds_mirror_swap]
      rfl
    · rw [ofName?_name] at hn
      cases hn

theorem compareBy_level_right (h : v.text? = some s) :
    v.compareBy c (.level l) = .ok (c.mirror.holds (l.standing s)) := by
  rcases Value.text?_eq_some_iff.mp h with rfl | ⟨m, rfl, rfl⟩
  · have hy : (Value.str s).yields (.level l) = true := rfl
    have hr : (Value.level l).answer? c.mirror (.str s) = l.answer? c.mirror (.str s) := rfl
    cases hn : ofName? s with
    | some m =>
      simp only [Value.compareBy, hy, hr, answer?_of_some ((named?_of_text h).trans hn),
        standing, hn]
      rfl
    | none =>
      have hl : (Value.str s).answer? c (.level l) =
          some (c.holds (textOrder s.toList l.name.toList)) := rfl
      simp only [Value.compareBy, hy, hr, hl, answer?_of_none ((named?_of_text h).trans hn),
        standing, hn, ← textOrder_swap l.name.toList, Comparison.holds_swap]
      rfl
  · rw [compareBy_level_left rfl, standing_name, standing_name, ← Nat.compare_swap,
      Comparison.holds_swap]

theorem compareBy_of_no_text (h : v.text? = none) :
    (Value.level l).compareBy c v = .error ⟨c, "LogLevel", v.typeName⟩ ∧
      v.compareBy c (.level l) = .error ⟨c, v.typeName, "LogLevel"⟩ := by
  have hy : v.yields (.level l) = false := by
    unfold Value.yields
    split
    · cases h
    · rfl
  have hl (c : Comparison) : (Value.level l).answer? c v = none :=
    answer?_of_none (named?_of_none h)
  have hr (c : Comparison) : v.answer? c (.level l) = none := by
    unfold Value.answer?
    split
    · cases h
    · cases h
    · split
      · next hw => cases hw
      · rfl
  constructor
  · have hy : (Value.level l).yields v = false := rfl
    simp only [Value.compareBy, hy, hl, hr]
    rfl
  · simp only [Value.compareBy, hy, hl, hr]
    rfl

end LogLevel

/-! ## Coherence -/

/-- The comparison is answered, and holds. -/
def Comparison.Holds (c : Comparison) (a b : Value) : Prop := a.compareBy c b = .ok true

open Comparison (Holds)

/-- The answers to all comparisons of two operands, asked from either side, belong to one order. -/
structure Coherent (a b : Value) : Prop where
  answered : ∀ c : Comparison, (∃ r, a.compareBy c b = .ok r) ∧ ∃ r, b.compareBy c a = .ok r
  exactly_one :
    (Holds .lt a b ∧ ¬ a.sameText b ∧ ¬ Holds .gt a b) ∨
      (¬ Holds .lt a b ∧ a.sameText b ∧ ¬ Holds .gt a b) ∨
        (¬ Holds .lt a b ∧ ¬ a.sameText b ∧ Holds .gt a b)
  le_iff : Holds .le a b ↔ Holds .lt a b ∨ a.sameText b
  ge_iff : Holds .ge a b ↔ Holds .gt a b ∨ a.sameText b
  lt_mirror : Holds .lt b a ↔ Holds .gt a b
  le_mirror : Holds .le b a ↔ Holds .ge a b
  gt_mirror : Holds .gt b a ↔ Holds .lt a b
  ge_mirror : Holds .ge b a ↔ Holds .le a b
  same_mirror : b.sameText a = a.sameText b

theorem coherent_of_order (ha : ∀ c : Comparison, a.compareBy c b = .ok (c.holds o))
    (hb : ∀ c : Comparison, b.compareBy c a = .ok (c.mirror.holds o))
    (hs : a.sameText b = (o == .eq)) (hs' : b.sameText a = a.sameText b) : Coherent a b := by
  have hl (c : Comparison) : Holds c a b ↔ c.holds o = true := by
    rw [Holds, ha, Except.ok.injEq]
  have hr (c : Comparison) : Holds c b a ↔ c.mirror.holds o = true := by
    rw [Holds, hb, Except.ok.injEq]
  constructor
  · exact fun c => ⟨⟨_, ha c⟩, _, hb c⟩
  · rw [hl, hl, hs]
    cases o <;> decide
  · rw [hl, hl, hs]
    cases o <;> decide
  · rw [hl, hl, hs]
    cases o <;> decide
  · rw [hl, hr, Comparison.mirror]
  · rw [hl, hr, Comparison.mirror]
  · rw [hl, hr, Comparison.mirror]
  · rw [hl, hr, Comparison.mirror]
  · exact hs'

namespace LogLevel

/-- How a level stands to a value that is the text `s`: by the ranks if `s` is the name of a level,
by the characters if not. -/
structure Placed (l : LogLevel) (v : Value) (s : String) : Prop where
  by_rank : ∀ m : LogLevel, m.name = s →
    (Holds .lt (.level l) v ↔ l.rank < m.rank) ∧ ((Value.level l).sameText v ↔ l.rank = m.rank) ∧
      (Holds .gt (.level l) v ↔ m.rank < l.rank)
  by_text : (∀ m : LogLevel, m.name ≠ s) →
    (Holds .lt (.level l) v ↔ l.name < s) ∧ ¬ (Value.level l).sameText v ∧
      (Holds .gt (.level l) v ↔ s < l.name)

theorem sameText_of_text (h : v.text? = some s) :
    (Value.level l).sameText v = (l.standing s == .eq) ∧
      v.sameText (.level l) = (l.standing s == .eq) := by
  have he : (l.standing s == .eq) = (l.name == s) := by
    rw [Bool.eq_iff_iff, beq_iff_eq, beq_iff_eq, standing_eq_eq_iff]
  have hl : (Value.level l).text? = some l.name := rfl
  simp only [Value.sameText, h, hl, he, BEq.comm (a := s), and_self]

theorem placed_of_text (h : v.text? = some s) : Placed l v s := by
  have hc (c : Comparison) : Holds c (.level l) v ↔ c.holds (l.standing s) = true := by
    rw [Holds, compareBy_level_left h, Except.ok.injEq]
  have hs : (Value.level l).sameText v ↔ l.standing s = .eq := by
    rw [(sameText_of_text h).1, beq_iff_eq]
  constructor
  · rintro m rfl
    rw [hc, hc, hs, standing_name]
    simp only [Comparison.holds, beq_iff_eq, Nat.compare_eq_lt, Nat.compare_eq_eq,
      Nat.compare_eq_gt, and_self]
  · intro hn
    rw [hc, hc, hs, standing_eq_eq_iff, standing_of_ne hn]
    simp only [Comparison.holds, beq_iff_eq, textOrder_eq_lt_iff, textOrder_eq_gt_iff,
      String.lt_iff_toList_lt, hn l, not_false_eq_true, and_self]

/-- A level compares coherently with every text, plain or a level, and with nothing else. -/
theorem comparisons_coherent (l : LogLevel) (v : Value) :
    (∀ s, v.text? = some s → Coherent (.level l) v ∧ Placed l v s) ∧
      (v.text? = none → ∀ c : Comparison,
        (Value.level l).compareBy c v = .error ⟨c, "LogLevel", v.typeName⟩ ∧
          v.compareBy c (.level l) = .error ⟨c, v.typeName, "LogLevel"⟩) := by
  refine ⟨fun s h => ⟨?_, placed_of_text h⟩, fun h c => compareBy_of_no_text h⟩
  obtain ⟨hl, hr⟩ := @sameText_of_text l v s h
  exact coherent_of_order (fun _ => compareBy_level_left h) (fun _ => compareBy_level_right h) hl
    (hr.trans hl.symm)

/-- By rank `INFO` is below `DEBUG`, by text it is above, and what is no name goes by text. -/
theorem comparisons_coherent_info :
    (Value.str "DEBUG").text? = some "DEBUG" ∧ (Value.str "DEBUGGING").text? = some "DEBUGGING" ∧
      (Value.list []).text? = none ∧
      Holds .lt (.level .info) (.str "DEBUG") ∧ Holds .gt (.level .info) (.str "DEBUGGING") ∧
      Holds .ge (.str "DEBUG") (.level .info) ∧
      (Value.list []).compareBy .le (.level .info) = .error ⟨.le, "list", "LogLevel"⟩ := by
  obtain ⟨hc, hp⟩ := (comparisons_coherent .info (.str "DEBUG")).1 "DEBUG" rfl
  obtain ⟨-, hp'⟩ := (comparisons_coherent .info (.str "DEBUGGING")).1 "DEBUGGING" rfl
  have hn : ∀ m : LogLevel, m.name ≠ "DEBUGGING" := by
    intro m
    cases m <;> decide
  have hlt : Holds .lt (.level .info) (.str "DEBUG") := (hp.by_rank .debug rfl).1.mpr (by decide)
  exact ⟨rfl, rfl, rfl, hlt, (hp'.by_text hn).2.2.mpr (by decide),
    hc.ge_mirror.mpr (hc.le_iff.mpr (Or.inl hlt)),
    ((comparisons_coherent .info (.list [])).2 rfl .le).2⟩

end LogLevel
end AgentControl
