import Mathlib.Order.OrderDual
import AgentControl.Proofs.LogLevel.Comparison
import AgentControl.Proofs.LogLevel.Sorting

/-! # Sorting levels

Levels and names of levels sort by rank where the names alone would. A level takes a name as what it
names, so the only comparisons that go by text are those of two names.
-/

namespace AgentControl.LogLevel

open OrderDual (toDual)

variable {c : Comparison} {l m : LogLevel} {a b v : Value} {xs : List Value}

/-- The value is a level or the name of one. -/
inductive StandsFor : Value → LogLevel → Prop where
  | level {l : LogLevel} : StandsFor (.level l) l
  | name {l : LogLevel} : StandsFor (.str l.name) l

/-- Two names of levels among the elements are in the same order by text as by rank. -/
def Consonant (xs : List Value) : Prop :=
  ∀ l m : LogLevel, .str l.name ∈ xs → .str m.name ∈ xs → (l.name < m.name ↔ l.rank < m.rank)

/-- The rank of a level and of its name: its place among the names of all levels. -/
def rankOf (v : Value) : ℕ := (v.text?.map fun s => (all.map name).idxOf s).getD 0

theorem StandsFor.rankOf_eq (h : StandsFor v l) : rankOf v = l.rank := by
  cases h <;> cases l <;> decide

theorem consonant_of_one_name (h : ∀ l m : LogLevel, .str l.name ∈ xs → .str m.name ∈ xs → l = m) :
    Consonant xs := by
  intro l m hl hm
  obtain rfl := h l m hl hm
  exact iff_of_false (lt_irrefl _) (lt_irrefl _)

theorem Consonant.textOrder_eq (h : Consonant xs) (hl : .str l.name ∈ xs) (hm : .str m.name ∈ xs) :
    textOrder l.name.toList m.name.toList = compare l.rank m.rank := by
  rcases Nat.lt_trichotomy l.rank m.rank with hr | hr | hr
  · rw [Nat.compare_eq_lt.mpr hr, textOrder_eq_lt_iff, ← String.lt_iff_toList_lt]
    exact (h l m hl hm).mpr hr
  · rw [Nat.compare_eq_eq.mpr hr, textOrder_eq_eq_iff, rank_injective hr]
  · rw [Nat.compare_eq_gt.mpr hr, textOrder_eq_gt_iff, ← String.lt_iff_toList_lt]
    exact (h m l hm hl).mpr hr

theorem Consonant.compareBy_eq (h : Consonant xs) (ha : StandsFor a l) (hb : StandsFor b m)
    (hax : a ∈ xs) (hbx : b ∈ xs) : a.compareBy c b = .ok (c.holds (compare l.rank m.rank)) := by
  cases ha with
  | level =>
    cases hb with
    | level | name => rw [compareBy_level_left rfl, standing_name]
  | name =>
    cases hb with
    | level =>
      rw [compareBy_level_right rfl, standing_name, ← Nat.compare_swap,
        Comparison.holds_mirror_swap]
    | name =>
      rw [← h.textOrder_eq hax hbx]
      rfl

theorem Consonant.decides_less (h : Consonant xs) (hs : ∀ v ∈ xs, ∃ l, StandsFor v l) :
    Decides less rankOf xs := by
  intro a ha b hb
  obtain ⟨l, hl⟩ := hs a ha
  obtain ⟨m, hm⟩ := hs b hb
  have hd : Comparison.lt.holds (compare l.rank m.rank) = decide (l.rank < m.rank) := by
    rw [Bool.eq_iff_iff, decide_eq_true_iff, Comparison.holds, beq_iff_eq, Nat.compare_eq_lt]
  rw [less, h.compareBy_eq hl hm ha hb, hd, hl.rankOf_eq, hm.rankOf_eq]
  rfl

theorem Consonant.decides_greater (h : Consonant xs) (hs : ∀ v ∈ xs, ∃ l, StandsFor v l) :
    Decides greater (fun v => toDual (rankOf v)) xs := by
  intro a ha b hb
  obtain ⟨l, hl⟩ := hs a ha
  obtain ⟨m, hm⟩ := hs b hb
  have hd : Comparison.gt.holds (compare l.rank m.rank) =
      decide (toDual l.rank < toDual m.rank) := by
    rw [Bool.eq_iff_iff, decide_eq_true_iff, Comparison.holds, beq_iff_eq, Nat.compare_eq_gt,
      OrderDual.toDual_lt_toDual]
  simp only [greater, h.compareBy_eq hl hm ha hb, hd, hl.rankOf_eq, hm.rankOf_eq]
  rfl

/-- Levels whose names are consonant are sorted by rank either way, those of one rank in their
order, and the extremes are the first of their rank. Names are consonant if all are the same one. -/
theorem sorted_by_rank (hn : xs ≠ []) (hs : ∀ v ∈ xs, ∃ l, StandsFor v l) :
    ((∀ l m : LogLevel, .str l.name ∈ xs → .str m.name ∈ xs → l = m) → Consonant xs) ∧
      (Consonant xs → ∃ rising falling least greatest,
        sorted xs = .ok rising ∧ Arranged (· ≤ ·) rankOf xs rising ∧
        sortedDown xs = .ok falling ∧ Arranged (· ≥ ·) rankOf xs falling ∧
        LogLevel.least xs = .ok least ∧ FirstBest (· < ·) rankOf xs least ∧
        LogLevel.greatest xs = .ok greatest ∧ FirstBest (· > ·) rankOf xs greatest) := by
  refine ⟨consonant_of_one_name, fun h => ?_⟩
  have hl : Decides less rankOf xs := h.decides_less hs
  obtain ⟨rising, hr, har⟩ := sortBy_arranged hl
  obtain ⟨falling, hf, haf⟩ := sortBy_arranged (hl.mono (List.reverse_perm xs).subset)
  obtain ⟨x, xs, rfl⟩ := List.exists_cons_of_ne_nil hn
  obtain ⟨least, hm, hfl⟩ := bestFrom_eq hl
  obtain ⟨greatest, hg, hfg⟩ := bestFrom_eq (h.decides_greater hs)
  refine ⟨rising, falling.reverse, least, greatest, hr, har, ?_, haf.reverse, hm, hfl, hg, hfg⟩
  rw [sortedDown, hf]
  rfl

/-- Levels and names mixed, some of one rank. -/
def mixedLevels : List Value :=
  [.str "INFO", .level .trace, .str "ERROR", .level .info, .str "TRACE", .level .off, .str "INFO"]

theorem consonant_mixed : Consonant mixedLevels := by
  have hm : ∀ l : LogLevel, .str l.name ∈ mixedLevels → l ∈ [error, info, trace] := by
    intro l
    cases l <;> simp [mixedLevels, name]
  have hd : ∀ l ∈ [error, info, trace], ∀ m ∈ [error, info, trace],
      (l.name < m.name ↔ l.rank < m.rank) := by
    decide
  exact fun l m hl hm' => hd l (hm l hl) m (hm m hm')

/-- The names stand among the levels of their rank as they were given, and the first of the two of
the greatest rank is a level. -/
theorem sorted_by_rank_mixed :
    mixedLevels ≠ [] ∧ (∀ v ∈ mixedLevels, ∃ l, StandsFor v l) ∧ Consonant mixedLevels ∧
      (∃ rising, sorted mixedLevels = .ok rising ∧
        rising.filter (fun v => rankOf v = 3) = [.str "INFO", .level .info, .str "INFO"]) ∧
      LogLevel.greatest mixedLevels = .ok (.level .trace) := by
  have hs : ∀ v ∈ mixedLevels, ∃ l, StandsFor v l := by
    have hl (l : LogLevel) : ∃ m, StandsFor (.level l) m := ⟨l, .level⟩
    have hn (l : LogLevel) : ∃ m, StandsFor (.str l.name) m := ⟨l, .name⟩
    simp only [mixedLevels, List.forall_mem_cons]
    exact ⟨hn info, hl trace, hn error, hl info, hn trace, hl off, hn info, List.forall_mem_nil _⟩
  have hn : mixedLevels ≠ [] := List.cons_ne_nil _ _
  obtain ⟨rising, -, -, -, hr, har, -⟩ := (sorted_by_rank hn hs).2 consonant_mixed
  exact ⟨hn, hs, consonant_mixed, ⟨rising, hr, har.stable 3⟩, rfl⟩

end AgentControl.LogLevel
