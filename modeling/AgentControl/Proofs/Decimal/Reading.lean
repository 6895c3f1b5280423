import Mathlib.Algebra.Group.Nat.Defs
import Mathlib.Data.Int.Notation
import Mathlib.Data.List.Induction
import AgentControl.Decimal.Integer
import AgentControl.Proofs.Text.Trimming

/-! # Decimal text

The digits that a number is written with write that number, and reading takes them back whole:
nothing is trimmed, no sign or mark stands before them, and each is a digit of the first script.
What is read has no more digits than are allowed, and with no more a number is put into a text.
-/

namespace AgentControl

variable {m n : ℕ}

/-- A number of no more digits than may be read and shown. -/
def Legible (n : ℕ) : Prop := (Nat.toDigits 10 n).length ≤ Decimal.maxDigits

instance : Decidable (Legible n) := inferInstanceAs (Decidable (_ ≤ _))

theorem legible_iff_lt : Legible n ↔ n < 10 ^ Decimal.maxDigits :=
  Nat.length_toDigits_le_iff (by decide) (by decide)

theorem legible_of_natAbs_lt (h : (n : ℤ).natAbs < 10 ^ Decimal.maxDigits) : Legible n := by
  rw [Int.natAbs_natCast] at h
  exact legible_iff_lt.mpr h

theorem legible_pow_iff {k : ℕ} : Legible (10 ^ k) ↔ k < Decimal.maxDigits :=
  legible_iff_lt.trans (Nat.pow_lt_pow_iff_right (by decide))

namespace Decimal

variable {c : Char} {cs rest : List Char} {ds : List ℕ}

/-! ## Digits of a number -/

theorem digit_range (h : c ∈ Nat.toDigits 10 n) : 0x30 ≤ c.toNat ∧ c.toNat ≤ 0x39 := by
  have hd := Nat.isDigit_of_mem_toDigits (by decide) (by decide) h
  simpa [Char.isDigit, UInt32.le_iff_toNat_le] using hd

theorem ofDigits_toDigits (n : ℕ) :
    ofDigits 10 ((Nat.toDigits 10 n).map fun c => c.toNat - 0x30) = n := by
  calc ofDigits 10 ((Nat.toDigits 10 n).map fun c => c.toNat - 0x30)
      = (Nat.toDigits 10 n).foldl (fun m c => m * 10 + (c.toNat - 0x30)) 0 := by
        rw [ofDigits, List.foldl_map]
    _ = Nat.ofDigitChars 10 (Nat.toDigits 10 n) 0 := by
        simp only [Nat.ofDigitChars_eq_foldl, Nat.mul_comm 10]
        rfl
    _ = n := Nat.ofDigitChars_ten_toDigits

theorem toDigits_inj (h : Nat.toDigits 10 m = Nat.toDigits 10 n) : m = n := by
  rw [← ofDigits_toDigits m, h, ofDigits_toDigits]

theorem ofInt_natCast (n : ℕ) : (ofInt (n : ℤ)).toList = Nat.toDigits 10 n := by
  rw [ofInt, Int.toString_eq_repr, Int.repr_eq_if, if_pos (by omega)]
  simp

theorem ofInt_neg (h : 0 < n) : (ofInt (-(n : ℤ))).toList = '-' :: Nat.toDigits 10 n := by
  rw [ofInt, Int.toString_eq_repr, Int.repr_eq_if, if_neg (by omega)]
  simp

theorem ofInt_natCast_inj : ofInt (m : ℤ) = ofInt (n : ℤ) ↔ m = n := by
  constructor
  · intro h
    apply toDigits_inj
    rw [← ofInt_natCast, h, ofInt_natCast]
  · intro h
    rw [h]

/-- A number is put into a text by its digits, if it is put into one. -/
theorem text_natCast (n : ℕ) :
    text (n : ℤ) = if Legible n then .ok (ofInt (n : ℤ)) else .error ⟨⟩ := by
  have ho : overLong 10 (Nat.toDigits 10 n).length = true ↔ ¬ Legible n := by
    simp [overLong, Legible]
  by_cases h : Legible n
  · rw [text, Int.natAbs_natCast, if_neg (mt ho.mp (not_not.mpr h)), if_pos h]
  · rw [text, Int.natAbs_natCast, if_pos (ho.mpr h), if_neg h]

theorem text_of_legible (h : Legible n) : text (n : ℤ) = .ok (ofInt (n : ℤ)) := by
  rw [text_natCast, if_pos h]

theorem legible_of_text {s : String} (h : text (n : ℤ) = .ok s) : Legible n := by
  by_contra hn
  rw [text_natCast, if_neg hn] at h
  cases h

/-! ## Reading -/

theorem isSpace_of_range (h : 0x30 ≤ c.toNat ∧ c.toNat ≤ 0x39) : Text.isSpace c = false := by
  simp [Text.isSpace]
  omega

theorem isBlank_of_range (h : 0x30 ≤ c.toNat ∧ c.toNat ≤ 0x39) : Text.isBlank c = false := by
  simp [Text.isBlank, isSpace_of_range h]
  omega

theorem digit?_of_range (h : 0x30 ≤ c.toNat ∧ c.toNat ≤ 0x39) :
    digit? c = some (c.toNat - 0x30) := by
  rw [digit?, zeros, List.findSome?_cons, if_pos ⟨h.1, by omega⟩]

theorem digitBelow?_of_range (h : 0x30 ≤ c.toNat ∧ c.toNat ≤ 0x39) :
    digitBelow? 10 c = some (c.toNat - 0x30) := by
  have hs : ¬ (0x61 ≤ c.toNat ∧ c.toNat ≤ 0x7A) := by omega
  have hl : ¬ (0x41 ≤ c.toNat ∧ c.toNat ≤ 0x5A) := by omega
  have hv : c.toNat - 0x30 < 10 := by omega
  simp only [digitBelow?, if_neg hs, if_neg hl, digit?_of_range h, Option.filter_some, hv,
    decide_true, ite_true]

theorem scanDigits_of_range (h : ∀ c ∈ cs, 0x30 ≤ c.toNat ∧ c.toNat ≤ 0x39) :
    scanDigits 10 false cs = some (cs.map fun c => c.toNat - 0x30, []) := by
  induction cs with
  | nil => rfl
  | cons c cs ih =>
    obtain ⟨hc, hcs⟩ := List.forall_mem_cons.mp h
    have hu : c ≠ '_' := by
      rintro rfl
      exact absurd hc (by decide)
    simp only [scanDigits, if_neg hu, digitBelow?_of_range hc, ih hcs, Option.map_some,
      List.map_cons]

theorem sign_of_range (h : ∀ c ∈ cs, 0x30 ≤ c.toNat ∧ c.toNat ≤ 0x39) : sign cs = (false, cs) := by
  unfold sign
  split
  · exact absurd (h '-' List.mem_cons_self) (by decide)
  · exact absurd (h '+' List.mem_cons_self) (by decide)
  · rfl

theorem dropMark_ten : dropMark 10 cs = cs := by
  unfold dropMark
  split <;> rfl

/-- The digits of a number that are not too many are read as that number. -/
theorem parse_toDigits (h : (Nat.toDigits 10 n).length ≤ maxDigits) :
    parse 10 (Nat.toDigits 10 n) = .ok (n : ℤ) := by
  have hr : ∀ c ∈ Nat.toDigits 10 n, 0x30 ≤ c.toNat ∧ c.toNat ≤ 0x39 := fun _ => digit_range
  have ht := Text.trimBy_of_forall fun c hc => isSpace_of_range (hr c hc)
  have hn := @Nat.toDigits_ne_nil n 10
  have hl : overLong 10 (Nat.toDigits 10 n).length = false := by
    simpa [overLong] using h
  have hv := ofDigits_toDigits n
  have he : ((Nat.toDigits 10 n).map fun c => c.toNat - 0x30).isEmpty = false := by
    rw [List.isEmpty_map, List.isEmpty_eq_false_iff]
    exact hn
  simp only [parse, ht, sign_of_range hr, dropMark_ten]
  split
  · next tail hu =>
    rw [hu] at hr
    exact absurd (hr '_' List.mem_cons_self) (by decide)
  · simp only [scanDigits_of_range hr, List.length_map, hl, hv, he, List.isEmpty_nil, Bool.not_true,
      Bool.or_self, Bool.false_eq_true, ite_false]

/-! ## How large a number can be read -/

theorem lt_of_digitBelow? {base d : ℕ} (h : digitBelow? base c = some d) : d < base := by
  simp only [digitBelow?, Option.filter_eq_some_iff, decide_eq_true_eq] at h
  exact h.2

theorem lt_of_scanDigits {base : ℕ} {after : Bool}
    (h : scanDigits base after cs = some (ds, rest)) :
    ∀ d ∈ ds, d < base := by
  fun_induction scanDigits base after cs generalizing ds rest with
  | case1 => cases h
  | case2 =>
    cases h
    exact List.forall_mem_nil _
  | case3 => cases h
  | case4 _ _ _ ih => exact ih h
  | case5 after c cs hc d hd ih =>
    obtain ⟨⟨ds', rest'⟩, hs, he⟩ := Option.map_eq_some_iff.mp h
    obtain ⟨rfl, rfl⟩ := Prod.mk.inj he
    exact List.forall_mem_cons.mpr ⟨lt_of_digitBelow? hd, ih hs⟩
  | case6 => cases h
  | case7 =>
    cases h
    exact List.forall_mem_nil _

theorem ofDigits_lt {base : ℕ} (h : ∀ d ∈ ds, d < base) : ofDigits base ds < base ^ ds.length := by
  induction ds using List.reverseRecOn with
  | nil => exact Nat.one_pos
  | append_singleton ds d ih =>
    have hd : d < base := h d (by simp)
    have hds := ih fun e he => h e (List.mem_append_left _ he)
    have hs : ofDigits base (ds ++ [d]) = ofDigits base ds * base + d := by
      simp only [ofDigits, List.foldl_append, List.foldl_cons, List.foldl_nil]
    calc ofDigits base (ds ++ [d]) = ofDigits base ds * base + d := hs
      _ < (ofDigits base ds + 1) * base := by rw [Nat.add_one_mul]; omega
      _ ≤ base ^ ds.length * base := Nat.mul_le_mul_right base hds
      _ = base ^ (ds ++ [d]).length := by
        rw [List.length_append, List.length_singleton, Nat.pow_succ]

theorem natAbs_lt_of_parse {m : ℤ} (h : parse 10 cs = .ok m) : m.natAbs < 10 ^ maxDigits := by
  unfold parse at h
  dsimp only at h
  split at h
  · cases h
  split at h
  · cases h
  · next ds rest hs =>
    split at h
    · cases h
    · next hl =>
      have hlen : ds.length ≤ maxDigits := by simpa [overLong] using hl
      have hv : ofDigits 10 ds < 10 ^ maxDigits :=
        Nat.lt_of_lt_of_le (ofDigits_lt (lt_of_scanDigits hs))
          (Nat.pow_le_pow_right (by decide) hlen)
      split at h
      · cases h
      · obtain rfl := Except.ok.inj h
        split
        · rwa [Int.natAbs_neg, Int.natAbs_natCast]
        · rwa [Int.natAbs_natCast]

end Decimal

end AgentControl
