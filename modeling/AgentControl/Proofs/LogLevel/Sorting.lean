import Mathlib.Order.Lattice
import AgentControl.LogLevel.Sorting

/-! # Sorting by a key

Where a comparison tells the keys of elements apart, sorting by it puts the elements in the order of
their keys and leaves those of one key as they were.
-/

namespace AgentControl

variable {α ε κ : Type} {key : α → κ} {x last best : α} {xs ys zs run : List α}

/-- The elements of `xs` with their keys in order, those with the same key as they stood. -/
structure Arranged (r : κ → κ → Prop) [DecidableEq κ] (key : α → κ) (xs ys : List α) : Prop where
  perm : ys.Perm xs
  ordered : ys.Pairwise fun a b => r (key a) (key b)
  stable : ∀ k, ys.filter (fun a => key a = k) = xs.filter fun a => key a = k

section Arranged

variable {r : κ → κ → Prop} [DecidableEq κ]

theorem Arranged.refl (h : xs.Pairwise fun a b => r (key a) (key b)) : Arranged r key xs xs :=
  ⟨.refl _, h, fun _ => rfl⟩

/-- What is arranged together with more may be put in place of what it was arranged from. -/
theorem Arranged.append_trans (h : Arranged r key xs ys) (h' : Arranged r key (ys ++ run) zs) :
    Arranged r key (xs ++ run) zs where
  perm := h'.perm.trans (h.perm.append_right run)
  ordered := h'.ordered
  stable k := by rw [h'.stable k, List.filter_append, List.filter_append, h.stable k]

theorem Arranged.reverse (h : Arranged r key xs.reverse ys) :
    Arranged (fun a b => r b a) key xs ys.reverse where
  perm := ys.reverse_perm.trans (h.perm.trans xs.reverse_perm)
  ordered := List.pairwise_reverse.mpr h.ordered
  stable k := by rw [List.filter_reverse, h.stable k, List.filter_reverse, List.reverse_reverse]

end Arranged

variable [LinearOrder κ] {lt : α → α → Except ε Bool}

/-- The comparison tells which of two elements has the lower key. -/
def Decides (lt : α → α → Except ε Bool) (key : α → κ) (xs : List α) : Prop :=
  ∀ a ∈ xs, ∀ b ∈ xs, lt a b = .ok (decide (key a < key b))

theorem Decides.mono (h : Decides lt key ys) (hs : xs ⊆ ys) : Decides lt key xs :=
  fun a ha b hb => h a (hs ha) b (hs hb)

/-! ## The first run -/

/-- An element that is related to the first of a list in order may be put before it. -/
theorem pairwise_cons_of_head {r : α → α → Prop} (ht : ∀ {a b c : α}, r a b → r b c → r a c)
    (hx : r x last) (ho : (last :: run).Pairwise r) : (x :: last :: run).Pairwise r := by
  refine List.pairwise_cons.mpr ⟨List.forall_mem_cons.mpr ⟨hx, fun b hb => ?_⟩, ho⟩
  exact ht hx ((List.pairwise_cons.mp ho).1 b hb)

/-- A falling run has no two elements of one key, so it may be turned round. -/
theorem arranged_reverse (h : ys.Pairwise fun a b => key a < key b) :
    Arranged (· ≤ ·) key ys.reverse ys where
  perm := ys.reverse_perm.symm
  ordered := h.imp le_of_lt
  stable k := by
    rw [List.filter_reverse]
    induction ys with
    | nil => rfl
    | cons a ys ih =>
      obtain ⟨ha, hys⟩ := List.pairwise_cons.mp h
      by_cases hk : key a = k
      · have hn : ys.filter (fun b => key b = k) = [] :=
          List.filter_eq_nil_iff.mpr fun b hb => by simpa using hk ▸ (ha b hb).ne'
        simp [hk, hn]
      · simpa [hk] using ih hys

theorem fallingRun_eq (hd : Decides lt key (last :: run ++ xs))
    (h : (last :: run).Pairwise fun a b => key a < key b) :
    ∃ taken rest, xs = taken ++ rest ∧
      fallingRun lt last run xs = .ok (taken.reverse ++ last :: run, rest) ∧
        (taken.reverse ++ last :: run).Pairwise fun a b => key a < key b := by
  induction xs generalizing last run with
  | nil => exact ⟨[], [], rfl, rfl, h⟩
  | cons x xs ih =>
    have hx : lt x last = .ok (decide (key x < key last)) := hd x (by simp) last (by simp)
    by_cases hk : key x < key last
    · have hr : (x :: last :: run).Pairwise fun a b => key a < key b :=
        pairwise_cons_of_head lt_trans hk h
      have hs : x :: last :: run ++ xs ⊆ last :: run ++ x :: xs := List.perm_middle.symm.subset
      obtain ⟨taken, rest, rfl, hf, ho⟩ := ih (hd.mono hs) hr
      refine ⟨x :: taken, rest, rfl, ?_, by simpa using ho⟩
      rw [fallingRun, hx, decide_eq_true hk, List.reverse_cons, List.append_assoc]
      exact hf
    · refine ⟨[], x :: xs, rfl, ?_, h⟩
      rw [fallingRun, hx, decide_eq_false hk]
      rfl

theorem risingRun_eq (hd : Decides lt key (last :: xs)) :
    ∃ taken rest, xs = taken ++ rest ∧ risingRun lt last xs = .ok (last :: taken, rest) ∧
      (last :: taken).Pairwise fun a b => key a ≤ key b := by
  induction xs generalizing last with
  | nil => exact ⟨[], [], rfl, rfl, List.pairwise_singleton ..⟩
  | cons x xs ih =>
    have hx : lt x last = .ok (decide (key x < key last)) := hd x (by simp) last (by simp)
    by_cases hk : key x < key last
    · refine ⟨[], x :: xs, rfl, ?_, List.pairwise_singleton ..⟩
      rw [risingRun, hx, decide_eq_true hk]
      rfl
    · obtain ⟨taken, rest, rfl, hr, ho⟩ := ih (hd.mono (List.subset_cons_self ..))
      refine ⟨x :: taken, rest, rfl, ?_, ?_⟩
      · rw [risingRun, hx, decide_eq_false hk]
        simp only [hr]
        rfl
      · have hl : key last ≤ key x := le_of_not_gt hk
        exact pairwise_cons_of_head le_trans hl ho

/-! ## Insertion -/

/-- The place of `x` in `xs` is not before `lo` and not behind `hi`. -/
structure Brackets (key : α → κ) (x : α) (xs : List α) (lo hi : ℕ) : Prop where
  le : lo ≤ hi
  le_length : hi ≤ xs.length
  before : ∀ a ∈ xs.take lo, key a ≤ key x
  behind : ∀ a ∈ xs.drop hi, key x < key a

variable {fuel lo hi mid i : ℕ}

theorem Brackets.lower (h : Brackets key x xs lo hi) (ho : xs.Pairwise fun a b => key a ≤ key b)
    (hl : lo ≤ mid) (hm : mid < xs.length) (hx : key x < key xs[mid]) :
    Brackets key x xs lo mid := by
  refine ⟨hl, Nat.le_of_lt hm, h.before, ?_⟩
  have hp := ho.drop (i := mid)
  rw [List.drop_eq_getElem_cons hm] at hp ⊢
  exact List.forall_mem_cons.mpr ⟨hx, fun a ha => hx.trans_le ((List.pairwise_cons.mp hp).1 a ha)⟩

theorem Brackets.upper (h : Brackets key x xs lo hi) (ho : xs.Pairwise fun a b => key a ≤ key b)
    (hm : mid < xs.length) (hh : mid < hi) (hx : key xs[mid] ≤ key x) :
    Brackets key x xs (mid + 1) hi := by
  refine ⟨hh, h.le_length, ?_, h.behind⟩
  have hp := ho.take (i := mid + 1)
  rw [List.take_succ_eq_append_getElem hm] at hp ⊢
  have hb := (List.pairwise_append.mp hp).2.2
  refine List.forall_mem_append.mpr ⟨fun a ha => ?_, List.forall_mem_singleton.mpr hx⟩
  exact (hb a ha _ (List.mem_singleton_self _)).trans hx

theorem slot_eq (hd : ∀ a ∈ xs, lt x a = .ok (decide (key x < key a)))
    (ho : xs.Pairwise fun a b => key a ≤ key b) (h : Brackets key x xs lo hi)
    (hf : hi - lo ≤ fuel) :
    ∃ i, slot lt x xs fuel lo hi = .ok i ∧ Brackets key x xs i i := by
  induction fuel generalizing lo hi with
  | zero =>
    obtain rfl : lo = hi := Nat.le_antisymm h.le (Nat.le_of_sub_eq_zero (Nat.le_zero.mp hf))
    exact ⟨lo, rfl, h⟩
  | succ fuel ih =>
    by_cases hlt : lo < hi
    · have hl := h.le_length
      have hm : lo + (hi - lo) / 2 < xs.length := by omega
      have hx := hd _ (List.getElem_mem hm)
      by_cases hk : key x < key xs[lo + (hi - lo) / 2]
      · obtain ⟨i, hs, hb⟩ := ih (h.lower ho (by omega) hm hk) (by omega)
        refine ⟨i, ?_, hb⟩
        simp only [slot, if_pos hlt, List.getElem?_eq_getElem hm, hx, decide_eq_true hk]
        exact hs
      · obtain ⟨i, hs, hb⟩ := ih (h.upper ho hm (by omega) (le_of_not_gt hk)) (by omega)
        refine ⟨i, ?_, hb⟩
        simp only [slot, if_pos hlt, List.getElem?_eq_getElem hm, hx, decide_eq_false hk]
        exact hs
    · obtain rfl : lo = hi := Nat.le_antisymm h.le (Nat.le_of_not_lt hlt)
      exact ⟨lo, by rw [slot, if_neg hlt], h⟩

theorem Brackets.arranged (h : Brackets key x xs i i) (ho : xs.Pairwise fun a b => key a ≤ key b) :
    Arranged (· ≤ ·) key (xs ++ [x]) (xs.take i ++ x :: xs.drop i) where
  perm := by
    have hp : (xs.take i ++ x :: xs.drop i).Perm (x :: (xs.take i ++ xs.drop i)) := List.perm_middle
    rw [List.take_append_drop] at hp
    exact hp.trans (List.perm_append_singleton x xs).symm
  ordered := by
    refine List.pairwise_append.mpr
      ⟨ho.take, List.pairwise_cons.mpr ⟨fun b hb => (h.behind b hb).le, ho.drop⟩, ?_⟩
    intro a ha b hb
    rcases List.mem_cons.mp hb with rfl | hb
    · exact h.before a ha
    · exact (h.before a ha).trans (h.behind b hb).le
  stable k := by
    have hs : xs.filter (fun a => key a = k) =
        (xs.take i).filter (fun a => key a = k) ++ (xs.drop i).filter fun a => key a = k := by
      rw [← List.filter_append, List.take_append_drop]
    by_cases hk : key x = k
    · have hn : (xs.drop i).filter (fun a => key a = k) = [] :=
        List.filter_eq_nil_iff.mpr fun a ha => by simpa using hk ▸ (h.behind a ha).ne'
      simp [hs, hk, hn]
    · simp [hs, hk]

theorem insertSorted_arranged (hd : Decides lt key (x :: xs))
    (ho : xs.Pairwise fun a b => key a ≤ key b) :
    ∃ ys, insertSorted lt x xs = .ok ys ∧ Arranged (· ≤ ·) key (xs ++ [x]) ys := by
  have hx : ∀ a ∈ xs, lt x a = .ok (decide (key x < key a)) := fun a ha =>
    hd x List.mem_cons_self a (List.mem_cons_of_mem x ha)
  have hb : Brackets key x xs 0 xs.length := ⟨Nat.zero_le _, Nat.le_refl _, by simp, by simp⟩
  have hf : xs.length - 0 ≤ xs.length := Nat.sub_le ..
  obtain ⟨i, hs, hi⟩ := slot_eq hx ho hb hf
  refine ⟨_, ?_, hi.arranged ho⟩
  rw [insertSorted, hs]
  rfl

theorem insertAll_arranged (hd : Decides lt key (ys ++ xs))
    (ho : ys.Pairwise fun a b => key a ≤ key b) :
    ∃ zs, insertAll lt ys xs = .ok zs ∧ Arranged (· ≤ ·) key (ys ++ xs) zs := by
  induction xs generalizing ys with
  | nil => exact ⟨ys, rfl, by simpa using Arranged.refl ho⟩
  | cons x xs ih =>
    have hx : x :: ys ⊆ ys ++ x :: xs := List.cons_subset.mpr ⟨by simp, List.subset_append_left ..⟩
    obtain ⟨ys', hi, ha⟩ := insertSorted_arranged (hd.mono hx) ho
    have hs : ys' ++ xs ⊆ ys ++ x :: xs := by
      have hp := (ha.perm.append_right xs).subset
      simpa using hp
    obtain ⟨zs, hz, hza⟩ := ih (hd.mono hs) ha.ordered
    refine ⟨zs, ?_, by simpa using ha.append_trans hza⟩
    rw [insertAll, hi]
    exact hz

/-- Sorting succeeds where the comparison tells the keys apart, and arranges the elements by
them. -/
theorem sortBy_arranged (hd : Decides lt key xs) :
    ∃ ys, sortBy lt xs = .ok ys ∧ Arranged (· ≤ ·) key xs ys := by
  match xs with
  | [] => exact ⟨[], rfl, .refl .nil⟩
  | [x] => exact ⟨[x], rfl, .refl (List.pairwise_singleton ..)⟩
  | x :: y :: xs =>
    have hy : lt y x = .ok (decide (key y < key x)) := hd y (by simp) x (by simp)
    by_cases hk : key y < key x
    · have hp : [y, x].Pairwise fun a b => key a < key b := by simpa using hk
      have hs : [y, x] ++ xs ⊆ x :: y :: xs := (List.Perm.swap x y xs).subset
      obtain ⟨taken, rest, rfl, hf, ho⟩ := fallingRun_eq (hd.mono hs) hp
      have ha : Arranged (· ≤ ·) key (x :: y :: taken) (taken.reverse ++ [y, x]) := by
        simpa using arranged_reverse ho
      obtain ⟨zs, hz, hza⟩ :=
        insertAll_arranged (hd.mono (ha.perm.append_right rest).subset) ha.ordered
      refine ⟨zs, ?_, ha.append_trans hza⟩
      rw [sortBy, hy, decide_eq_true hk]
      simp only [hf]
      exact hz
    · obtain ⟨taken, rest, rfl, hr, ho⟩ := risingRun_eq (hd.mono (List.subset_cons_self x _))
      have hl : key x ≤ key y := le_of_not_gt hk
      have hp : (x :: y :: taken).Pairwise fun a b => key a ≤ key b :=
        pairwise_cons_of_head le_trans hl ho
      have hd' : Decides lt key ((x :: y :: taken) ++ rest) := hd
      obtain ⟨zs, hz, hza⟩ := insertAll_arranged hd' hp
      refine ⟨zs, ?_, hza⟩
      rw [sortBy, hy, decide_eq_false hk]
      simp only [hr]
      exact hz

/-! ## Extremes -/

/-- The first of the elements whose keys none among the others comes before. -/
def FirstBest (r : κ → κ → Prop) (key : α → κ) (xs : List α) (best : α) : Prop :=
  ∃ before after, xs = before ++ best :: after ∧ (∀ b ∈ before, r (key best) (key b)) ∧
    ∀ a ∈ after, ¬ r (key a) (key best)

theorem FirstBest.le_of_mem (h : FirstBest (· < ·) key xs best) (hx : x ∈ xs) :
    key best ≤ key x := by
  obtain ⟨before, after, rfl, hb, ha⟩ := h
  rcases List.mem_append.mp hx with hx | hx
  · exact (hb x hx).le
  · rcases List.mem_cons.mp hx with rfl | hx
    · exact le_rfl
    · exact le_of_not_gt (ha x hx)

/-- An element that one behind it beats does not count. -/
theorem FirstBest.cons_of_lt (h : FirstBest (· < ·) key (x :: xs) best) (hx : key x < key last) :
    FirstBest (· < ·) key (last :: x :: xs) best := by
  have hl : key best < key last := (h.le_of_mem List.mem_cons_self).trans_lt hx
  obtain ⟨before, after, he, hb, ha⟩ := h
  exact ⟨last :: before, after, by rw [he, List.cons_append], List.forall_mem_cons.mpr ⟨hl, hb⟩, ha⟩

/-- An element that does not beat the one before it does not count. -/
theorem FirstBest.insert_of_le (h : FirstBest (· < ·) key (last :: xs) best)
    (hx : key last ≤ key x) :
    FirstBest (· < ·) key (last :: x :: xs) best := by
  obtain ⟨before, after, he, hb, ha⟩ := h
  cases before with
  | nil =>
    obtain ⟨rfl, rfl⟩ := List.cons.inj he
    exact ⟨[], x :: xs, rfl, List.forall_mem_nil _, List.forall_mem_cons.mpr ⟨hx.not_gt, ha⟩⟩
  | cons b before =>
    obtain ⟨rfl, rfl⟩ := List.cons.inj he
    obtain ⟨hl, hb⟩ := List.forall_mem_cons.mp hb
    exact ⟨last :: x :: before, after, rfl,
      List.forall_mem_cons.mpr ⟨hl, List.forall_mem_cons.mpr ⟨hl.trans_le hx, hb⟩⟩, ha⟩

theorem bestFrom_eq (hd : Decides lt key (last :: xs)) :
    ∃ best, bestFrom lt last xs = .ok best ∧ FirstBest (· < ·) key (last :: xs) best := by
  induction xs generalizing last with
  | nil => exact ⟨last, rfl, [], [], rfl, List.forall_mem_nil _, List.forall_mem_nil _⟩
  | cons x xs ih =>
    have hx : lt x last = .ok (decide (key x < key last)) := hd x (by simp) last (by simp)
    by_cases hk : key x < key last
    · obtain ⟨best, hb, hf⟩ := ih (hd.mono (List.subset_cons_self ..))
      refine ⟨best, ?_, hf.cons_of_lt hk⟩
      rw [bestFrom, hx, decide_eq_true hk]
      exact hb
    · obtain ⟨best, hb, hf⟩ := ih (hd.mono (List.cons_subset_cons last (List.subset_cons_self ..)))
      refine ⟨best, ?_, hf.insert_of_le (le_of_not_gt hk)⟩
      rw [bestFrom, hx, decide_eq_false hk]
      exact hb

end AgentControl
