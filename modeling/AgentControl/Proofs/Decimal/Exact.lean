import Mathlib.Algebra.Order.Field.Rat
import Mathlib.Data.Rat.Cast.Order
import Mathlib.Tactic.FieldSimp
import Mathlib.Tactic.NormNum
import Mathlib.Tactic.Positivity
import Mathlib.Tactic.Ring
import AgentControl.Decimal.Lenient

/-! # Floats that are integers

The number that the bits of a finite float stand for, and the floats for which it is an integer.
-/

namespace AgentControl.Decimal

variable {x : Float} {negative : Bool} {biased fraction m : ℕ} {e : ℤ} {n : ℤ}

/-- The sign, the exponent and the fraction in the bits of a finite float. -/
structure Bits (x : Float) (negative : Bool) (biased fraction : ℕ) : Prop where
  bits : x.toBits.toNat = (if negative then 2 ^ 63 else 0) + biased * 2 ^ 52 + fraction
  biased_lt : biased < 2047
  fraction_lt : fraction < 2 ^ 52

/-- The size that an exponent and a fraction stand for; the smallest exponent has no leading one. -/
def magnitude (biased fraction : ℕ) : ℚ :=
  if biased = 0 then 2 ^ (-1022 : ℤ) * (fraction / 2 ^ 52)
  else 2 ^ ((biased : ℤ) - 1023) * (1 + fraction / 2 ^ 52)

/-- A float is finite, and exactly this integer. -/
def IsExactly (x : Float) (n : ℤ) : Prop :=
  ∃ negative biased fraction, Bits x negative biased fraction ∧
    (n : ℚ) = if negative then -magnitude biased fraction else magnitude biased fraction

theorem magnitude_zero : magnitude 0 fraction = fraction * 2 ^ (-1074 : ℤ) := by
  have h : (2 : ℚ) ^ (-1022 : ℤ) = 2 ^ (-1074 : ℤ) * 2 ^ (52 : ℕ) := by
    rw [← zpow_natCast, ← zpow_add₀ two_ne_zero]
    norm_num
  rw [magnitude, if_pos rfl, h]
  field_simp

theorem magnitude_of_pos (hb : 0 < biased) :
    magnitude biased fraction = ((fraction + 2 ^ 52 : ℕ) : ℚ) * 2 ^ ((biased : ℤ) - 1075) := by
  have h : (2 : ℚ) ^ ((biased : ℤ) - 1023) = 2 ^ ((biased : ℤ) - 1075) * 2 ^ (52 : ℕ) := by
    rw [← zpow_natCast, ← zpow_add₀ two_ne_zero]
    congr 1
    omega
  rw [magnitude, if_neg hb.ne', h]
  push_cast
  field_simp
  ring

/-- The bits of a finite float give its parts, and these its size. -/
theorem Bits.parts_eq (h : Bits x negative biased fraction) :
    ∃ m e, parts x = .finite negative m e ∧ magnitude biased fraction = m * 2 ^ e := by
  obtain ⟨hbits, hb, hf⟩ := h
  have hs : (x.toBits.toNat / Nat.pow 2 63 == 1) = negative := by
    cases negative with
    | false =>
      rw [beq_eq_false_iff_ne]
      simp only [Bool.false_eq_true, if_false, Nat.pow_eq] at hbits ⊢
      omega
    | true =>
      rw [beq_iff_eq]
      simp only [if_true, Nat.pow_eq] at hbits ⊢
      omega
  have hbi : x.toBits.toNat / Nat.pow 2 52 % Nat.pow 2 11 = biased := by
    simp only [Nat.pow_eq]
    split at hbits <;> omega
  have hfr : x.toBits.toNat % Nat.pow 2 52 = fraction := by
    simp only [Nat.pow_eq]
    split at hbits <;> omega
  simp only [parts, hs, hbi, hfr, beq_iff_eq, if_neg hb.ne]
  by_cases h0 : biased = 0
  · obtain rfl := h0
    exact ⟨_, _, rfl, magnitude_zero⟩
  · rw [if_neg h0]
    exact ⟨_, _, rfl, magnitude_of_pos (Nat.pos_of_ne_zero h0)⟩

theorem exists_bits (h : parts x = .finite negative m e) :
    ∃ biased fraction, Bits x negative biased fraction := by
  have hx : x.toBits.toNat < 2 ^ 64 := x.toBits.toNat_lt
  refine ⟨x.toBits.toNat / 2 ^ 52 % 2 ^ 11, x.toBits.toNat % 2 ^ 52, ?_⟩
  have hn : negative = (x.toBits.toNat / Nat.pow 2 63 == 1) ∧
      x.toBits.toNat / 2 ^ 52 % 2 ^ 11 ≠ 2047 := by
    unfold parts at h
    simp only [beq_iff_eq] at h
    split at h
    · split at h <;> cases h
    · next hb =>
      refine ⟨?_, hb⟩
      split at h <;> exact (Parts.finite.inj h).1.symm
  obtain ⟨rfl, hb⟩ := hn
  refine ⟨?_, by omega, Nat.mod_lt _ (by decide)⟩
  simp only [beq_iff_eq, Nat.pow_eq]
  split <;> omega

/-- A number is divided without remainder where the quotient times the divisor gives it back. -/
theorem dvd_and_div_eq_iff {d : ℕ} (hd : 0 < d) : (d ∣ m ∧ ((m / d : ℕ) : ℤ) = n) ↔ n * d = m := by
  constructor
  · rintro ⟨⟨q, rfl⟩, rfl⟩
    rw [Nat.mul_div_cancel_left q hd, Nat.cast_mul, mul_comm]
  · intro h
    obtain ⟨q, rfl⟩ : d ∣ m := Int.natCast_dvd_natCast.mp ⟨n, by rw [← h, mul_comm]⟩
    refine ⟨⟨q, rfl⟩, ?_⟩
    rw [Nat.mul_div_cancel_left q hd]
    refine mul_right_cancel₀ (b := (d : ℤ)) (by exact_mod_cast hd.ne') ?_
    rw [h, Nat.cast_mul, mul_comm]

theorem integral?_eq_some_iff_of_parts (h : parts x = .finite negative m e) :
    integral? x = some n ↔ (n : ℚ) = if negative then -(m * 2 ^ e : ℚ) else m * 2 ^ e := by
  unfold integral?
  simp only [h]
  split
  · next he =>
    obtain ⟨k, rfl⟩ := Int.eq_ofNat_of_zero_le he
    have hk : Nat.pow 2 (k : ℤ).toNat = 2 ^ k := rfl
    rw [hk, Option.some.injEq, zpow_natCast]
    cases negative <;> norm_cast <;> exact eq_comm
  · next he =>
    obtain ⟨k, rfl⟩ : ∃ k : ℕ, e = -k := ⟨(-e).toNat, by omega⟩
    have hk : Nat.pow 2 (-(-(k : ℤ))).toNat = 2 ^ k := by
      rw [neg_neg]
      rfl
    have hq (i : ℤ) : (i : ℚ) = m * 2 ^ (-(k : ℤ)) ↔ i * (2 ^ k : ℕ) = m := by
      rw [zpow_neg, zpow_natCast, eq_mul_inv_iff_mul_eq₀ (by positivity)]
      exact_mod_cast Iff.rfl
    rw [hk, Option.ite_none_right_eq_some, Option.some.injEq, beq_iff_eq, ← Nat.dvd_iff_mod_eq_zero]
    cases negative with
    | false => exact (dvd_and_div_eq_iff (by positivity)).trans (hq n).symm
    | true =>
      have hn := (dvd_and_div_eq_iff (m := m) (n := -n) (by positivity)).trans (hq (-n)).symm
      simp only [if_true, neg_eq_iff_eq_neg, Int.cast_neg] at hn ⊢
      exact hn

/-- A float has an integer if it is exactly one. -/
theorem integral?_eq_some_iff : integral? x = some n ↔ IsExactly x n := by
  constructor
  · intro h
    cases hp : parts x with
    | nan | infinite =>
      rw [integral?, hp] at h
      cases h
    | finite negative m e =>
      obtain ⟨biased, fraction, hb⟩ := exists_bits hp
      obtain ⟨m', e', hp', he⟩ := hb.parts_eq
      refine ⟨negative, biased, fraction, hb, ?_⟩
      rw [he]
      exact (integral?_eq_some_iff_of_parts hp').mp h
  · rintro ⟨negative, biased, fraction, hb, hn⟩
    obtain ⟨m, e, hp, he⟩ := hb.parts_eq
    rw [he] at hn
    exact (integral?_eq_some_iff_of_parts hp).mpr hn

namespace Lenient

/-- An integer is read from a float that is exactly it, below two to the sixty-third in size. -/
theorem ofFloat_eq_ok_iff : ofFloat x = .ok n ↔ IsExactly x n ∧ n.natAbs < 2 ^ 63 := by
  rw [← integral?_eq_some_iff]
  unfold ofFloat
  cases hp : parts x with
  | nan | infinite =>
    have hi : integral? x = none := by rw [integral?, hp]
    simp [hi]
  | finite negative m e =>
    cases integral? x with
    | none => simp
    | some k =>
      simp only [Option.some.injEq]
      constructor
      · intro h
        split at h
        · next hk => exact ⟨Except.ok.inj h, Except.ok.inj h ▸ hk⟩
        · cases h
      · rintro ⟨rfl, hk⟩
        exact if_pos hk

end Lenient

end AgentControl.Decimal
