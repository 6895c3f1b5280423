import Mathlib.Tactic.IntervalCases
import AgentControl.Text.Utf8

/-! # Characters from their own bytes

The bytes of a text decode to that text, whatever stands behind a character. A character of ASCII is
a single byte, and no byte of any other character is below 0x80.
-/

namespace AgentControl.Utf8

variable {pos x y : ℕ}

theorem lead_two (hx : 2 ≤ x) (hx' : x < 32) :
    lead pos (UInt8.ofNat (x + 0xC0)) =
      some ⟨pos, UInt8.ofNat (x + 0xC0), x, 1, 0x80, 0xBF⟩ := by
  interval_cases x <;> rfl

/-- The second byte of a long form must not spell a shorter form or a surrogate. -/
theorem lead_three (hx : x < 16) :
    lead pos (UInt8.ofNat (x + 0xE0)) =
      some ⟨pos, UInt8.ofNat (x + 0xE0), x, 2, if x = 0 then 0xA0 else 0x80,
        if x = 13 then 0x9F else 0xBF⟩ := by
  interval_cases x <;> rfl

theorem lead_four (hx : x < 5) :
    lead pos (UInt8.ofNat (x + 0xF0)) =
      some ⟨pos, UInt8.ofNat (x + 0xF0), x, 3, if x = 0 then 0x90 else 0x80,
        if x = 4 then 0x8F else 0xBF⟩ := by
  interval_cases x <;> rfl

theorem not_lt_lead (hx : 0x80 ≤ x) (hx' : x < 256) : ¬ UInt8.ofNat x < 0x80 := by
  rw [UInt8.lt_iff_toNat_lt, UInt8.toNat_ofNat', Nat.mod_eq_of_lt (by omega)]
  exact Nat.not_lt.mpr hx

theorem toNat_ofNat_of_lt (hx : x < 256) : (UInt8.ofNat x).toNat = x := by
  rw [UInt8.toNat_ofNat', Nat.mod_eq_of_lt (by omega)]

theorem decodeFrom_lead {p : Pending} {bs : List UInt8} (hx : 0x80 ≤ x) (hx' : x < 256)
    (h : lead pos (UInt8.ofNat x) = some p) :
    decodeFrom pos none (UInt8.ofNat x :: bs) = decodeFrom (pos + 1) (some p) bs := by
  rw [decodeFrom, if_neg (not_lt_lead hx hx'), h]

section Continuation

variable {p : Pending} {bs : List UInt8}

theorem within_continuation (hy : y < 64) (hl : p.low.toNat ≤ y + 0x80)
    (hh : y + 0x80 ≤ p.high.toNat) :
    p.low ≤ UInt8.ofNat (y + 0x80) ∧ UInt8.ofNat (y + 0x80) ≤ p.high := by
  rw [UInt8.le_iff_toNat_le, UInt8.le_iff_toNat_le, toNat_ofNat_of_lt (by omega)]
  exact ⟨hl, hh⟩

theorem decodeFrom_last (hm : p.missing = 1) (hy : y < 64) (hl : p.low.toNat ≤ y + 0x80)
    (hh : y + 0x80 ≤ p.high.toNat) :
    decodeFrom pos (some p) (UInt8.ofNat (y + 0x80) :: bs) =
      (do
        let cs ← decodeFrom (pos + 1) none bs
        return Char.ofNat (p.value * 64 + y) :: cs) := by
  have hv : (UInt8.ofNat (y + 0x80)).toNat % 64 = y := by
    rw [toNat_ofNat_of_lt (by omega)]
    omega
  rw [decodeFrom, if_pos (within_continuation hy hl hh)]
  simp only [hm, hv, le_refl, ite_true]

theorem decodeFrom_more (hm : 1 < p.missing) (hy : y < 64) (hl : p.low.toNat ≤ y + 0x80)
    (hh : y + 0x80 ≤ p.high.toNat) :
    decodeFrom pos (some p) (UInt8.ofNat (y + 0x80) :: bs) =
      decodeFrom (pos + 1)
        (some ⟨p.start, p.byte, p.value * 64 + y, p.missing - 1, 0x80, 0xBF⟩) bs := by
  have hv : (UInt8.ofNat (y + 0x80)).toNat % 64 = y := by
    rw [toNat_ofNat_of_lt (by omega)]
    omega
  rw [decodeFrom, if_pos (within_continuation hy hl hh)]
  simp only [hv, if_neg (Nat.not_le.mpr hm)]

end Continuation

/-! ## Whole characters -/

theorem toNat_lt (c : Char) : c.toNat < 0x110000 := by
  rcases c.valid with h | ⟨_, h⟩
  · exact Nat.lt_trans h (by decide)
  · exact h

/-- A character is no surrogate. -/
theorem toNat_not_surrogate (c : Char) : c.toNat < 0xD800 ∨ 0xE000 ≤ c.toNat := by
  rcases c.valid with h | ⟨h, _⟩
  · exact Or.inl h
  · exact Or.inr h

theorem encodeChar_one {c : Char} (h : c.toNat < 0x80) :
    String.utf8EncodeChar c = [UInt8.ofNat c.toNat] := by
  have h' : c.val.toNat ≤ 0x7f := Nat.le_of_lt_succ h
  rw [String.utf8EncodeChar]
  simp only [h', ite_true]
  rfl

theorem encodeChar_two {c : Char} (h : 0x80 ≤ c.toNat) (h' : c.toNat < 0x800) :
    String.utf8EncodeChar c =
      [UInt8.ofNat (c.toNat / 64 + 0xC0), UInt8.ofNat (c.toNat % 64 + 0x80)] := by
  have h₁ : ¬ c.val.toNat ≤ 0x7f := Nat.not_le.mpr h
  have h₂ : c.val.toNat ≤ 0x7ff := Nat.le_of_lt_succ h'
  have h₃ : c.val.toNat / 64 % 0x20 = c.toNat / 64 := Nat.mod_eq_of_lt (by omega)
  rw [String.utf8EncodeChar]
  simp only [h₁, h₂, h₃, ite_true, ite_false]
  rfl

theorem encodeChar_three {c : Char} (h : 0x800 ≤ c.toNat) (h' : c.toNat < 0x10000) :
    String.utf8EncodeChar c =
      [UInt8.ofNat (c.toNat / 4096 + 0xE0), UInt8.ofNat (c.toNat / 64 % 64 + 0x80),
        UInt8.ofNat (c.toNat % 64 + 0x80)] := by
  have h₁ : ¬ c.val.toNat ≤ 0x7f := Nat.not_le.mpr (by unfold Char.toNat at h; omega)
  have h₂ : ¬ c.val.toNat ≤ 0x7ff := Nat.not_le.mpr h
  have h₃ : c.val.toNat ≤ 0xffff := Nat.le_of_lt_succ h'
  have h₄ : c.val.toNat / 4096 % 0x10 = c.toNat / 4096 := Nat.mod_eq_of_lt (by omega)
  rw [String.utf8EncodeChar]
  simp only [h₁, h₂, h₃, h₄, ite_true, ite_false]
  rfl

theorem encodeChar_four {c : Char} (h : 0x10000 ≤ c.toNat) :
    String.utf8EncodeChar c =
      [UInt8.ofNat (c.toNat / 262144 + 0xF0), UInt8.ofNat (c.toNat / 4096 % 64 + 0x80),
        UInt8.ofNat (c.toNat / 64 % 64 + 0x80), UInt8.ofNat (c.toNat % 64 + 0x80)] := by
  have hc : c.val.toNat < 0x110000 := toNat_lt c
  have h₁ : ¬ c.val.toNat ≤ 0x7f := Nat.not_le.mpr (by unfold Char.toNat at h; omega)
  have h₂ : ¬ c.val.toNat ≤ 0x7ff := Nat.not_le.mpr (by unfold Char.toNat at h; omega)
  have h₃ : ¬ c.val.toNat ≤ 0xffff := Nat.not_le.mpr h
  have h₄ : c.val.toNat / 262144 % 0x08 = c.toNat / 262144 := Nat.mod_eq_of_lt (by omega)
  rw [String.utf8EncodeChar]
  simp only [h₁, h₂, h₃, h₄, ite_false]
  rfl

/-- The four lengths of a character in bytes. -/
theorem size_cases (c : Char) : c.toNat < 0x80 ∨ (0x80 ≤ c.toNat ∧ c.toNat < 0x800) ∨
    (0x800 ≤ c.toNat ∧ c.toNat < 0x10000) ∨ 0x10000 ≤ c.toNat := by
  omega

theorem decodeFrom_ascii {c : Char} {bs : List UInt8} (h : c.toNat < 0x80) :
    decodeFrom pos none (UInt8.ofNat c.toNat :: bs) =
      (do
        let cs ← decodeFrom (pos + 1) none bs
        return c :: cs) := by
  have hn : (UInt8.ofNat c.toNat).toNat = c.toNat := toNat_ofNat_of_lt (by omega)
  have hb : UInt8.ofNat c.toNat < 0x80 := by
    rw [UInt8.lt_iff_toNat_lt, hn]
    exact h
  rw [decodeFrom, if_pos hb, hn, Char.ofNat_toNat]

theorem decodeFrom_two {c : Char} {bs : List UInt8} (h : 0x80 ≤ c.toNat) (h' : c.toNat < 0x800) :
    decodeFrom pos none (String.utf8EncodeChar c ++ bs) =
      (do
        let cs ← decodeFrom (pos + 2) none bs
        return c :: cs) := by
  have hc : c.toNat / 64 * 64 + c.toNat % 64 = c.toNat := by omega
  rw [encodeChar_two h h', List.cons_append, List.cons_append, List.nil_append,
    decodeFrom_lead (by omega) (by omega) (lead_two (by omega) (by omega)),
    decodeFrom_last rfl (by omega) (Nat.le_add_left _ _) (by simp; omega), hc, Char.ofNat_toNat]

theorem decodeFrom_three {c : Char} {bs : List UInt8} (h : 0x800 ≤ c.toNat)
    (h' : c.toNat < 0x10000) :
    decodeFrom pos none (String.utf8EncodeChar c ++ bs) =
      (do
        let cs ← decodeFrom (pos + 3) none bs
        return c :: cs) := by
  have hs := toNat_not_surrogate c
  have hc : (c.toNat / 4096 * 64 + c.toNat / 64 % 64) * 64 + c.toNat % 64 = c.toNat := by omega
  rw [encodeChar_three h h', List.cons_append, List.cons_append, List.cons_append,
    List.nil_append, decodeFrom_lead (by omega) (by omega) (lead_three (by omega)),
    decodeFrom_more Nat.one_lt_two (by omega) (by dsimp only; split <;> simp; omega)
      (by dsimp only; split <;> simp <;> omega),
    decodeFrom_last rfl (by omega) (Nat.le_add_left _ _) (by simp; omega), hc, Char.ofNat_toNat]

theorem decodeFrom_four {c : Char} {bs : List UInt8} (h : 0x10000 ≤ c.toNat) :
    decodeFrom pos none (String.utf8EncodeChar c ++ bs) =
      (do
        let cs ← decodeFrom (pos + 4) none bs
        return c :: cs) := by
  have hl := toNat_lt c
  have hc : ((c.toNat / 262144 * 64 + c.toNat / 4096 % 64) * 64 + c.toNat / 64 % 64) * 64 +
      c.toNat % 64 = c.toNat := by omega
  rw [encodeChar_four h, List.cons_append, List.cons_append, List.cons_append, List.cons_append,
    List.nil_append, decodeFrom_lead (by omega) (by omega) (lead_four (by omega)),
    decodeFrom_more (by simp) (by omega) (by dsimp only; split <;> simp; omega)
      (by dsimp only; split <;> simp <;> omega),
    decodeFrom_more Nat.one_lt_two (by omega) (Nat.le_add_left _ _) (by simp; omega),
    decodeFrom_last rfl (by omega) (Nat.le_add_left _ _) (by simp; omega), hc, Char.ofNat_toNat]

/-- A character is read off the front, and what follows decides the rest. -/
theorem decodeFrom_encodeChar (c : Char) (bs : List UInt8) :
    ∃ pos', decodeFrom pos none (String.utf8EncodeChar c ++ bs) =
      (do
        let cs ← decodeFrom pos' none bs
        return c :: cs) := by
  rcases size_cases c with h | ⟨h, h'⟩ | ⟨h, h'⟩ | h
  · rw [encodeChar_one h]
    exact ⟨_, decodeFrom_ascii h⟩
  · exact ⟨_, decodeFrom_two h h'⟩
  · exact ⟨_, decodeFrom_three h h'⟩
  · exact ⟨_, decodeFrom_four h⟩

theorem decodeFrom_encode (cs : List Char) : decodeFrom pos none (encode cs) = .ok cs := by
  induction cs generalizing pos with
  | nil => rfl
  | cons c cs ih =>
    obtain ⟨pos', h⟩ := @decodeFrom_encodeChar pos c (encode cs)
    rw [encode_cons, h, ih]
    rfl

/-- Every text is read back from its bytes. -/
theorem decode_encode (cs : List Char) : decode (encode cs) = .ok cs := decodeFrom_encode cs

/-- Beyond ASCII no byte can be taken for a character of ASCII. -/
theorem le_of_mem_encodeChar {c : Char} (h : 0x80 ≤ c.toNat) :
    ∀ b ∈ String.utf8EncodeChar c, 0x80 ≤ b.toNat := by
  have hl := toNat_lt c
  rcases size_cases c with h₁ | ⟨h₁, h₂⟩ | ⟨h₁, h₂⟩ | h₁
  · omega
  · rw [encodeChar_two h₁ h₂]
    simp only [List.forall_mem_cons, List.not_mem_nil, false_imp_iff, implies_true, and_true]
    rw [toNat_ofNat_of_lt (by omega), toNat_ofNat_of_lt (by omega)]
    omega
  · rw [encodeChar_three h₁ h₂]
    simp only [List.forall_mem_cons, List.not_mem_nil, false_imp_iff, implies_true, and_true]
    rw [toNat_ofNat_of_lt (by omega), toNat_ofNat_of_lt (by omega), toNat_ofNat_of_lt (by omega)]
    omega
  · rw [encodeChar_four h₁]
    simp only [List.forall_mem_cons, List.not_mem_nil, false_imp_iff, implies_true, and_true]
    rw [toNat_ofNat_of_lt (by omega), toNat_ofNat_of_lt (by omega), toNat_ofNat_of_lt (by omega),
      toNat_ofNat_of_lt (by omega)]
    omega

end AgentControl.Utf8
