import Mathlib.Tactic.IntervalCases
import Mathlib.Data.List.Basic
import AgentControl.Json.Printer
import AgentControl.Json.Reader
import AgentControl.Proofs.Decimal.Reading
import AgentControl.Proofs.Text.Encoding

/-! # Strings and numbers in JSON text

What the printer writes for a string or an integer is taken off the front of a text by the reader,
whole and unchanged. A string needs nothing of what follows its closing quote; a number must not be
continued by what follows it.
-/

namespace AgentControl.Json

open Utf8

variable {bs rest : Bytes}

theorem encode_ascii {c : Char} (h : c.toNat < 0x80) : encode [c] = [ascii c] := by
  rw [encode_cons, encode_nil, List.append_nil, encodeChar_one h]
  rfl

theorem encode_asciis {cs : List Char} (h : ∀ c ∈ cs, c.toNat < 0x80) :
    encode cs = cs.map ascii := by
  induction cs with
  | nil => rfl
  | cons c cs ih =>
    rw [encode_cons, encodeChar_one (h c List.mem_cons_self),
      ih fun d hd => h d (List.mem_cons_of_mem c hd)]
    rfl

theorem ascii_toNat {c : Char} (h : c.toNat < 0x80) : (ascii c).toNat = c.toNat :=
  toNat_ofNat_of_lt (Nat.lt_trans h (by decide))

/-! ## Strings -/

@[simp] theorem prepend_nil (r : Except Fault (Bytes × Bytes)) : prepend [] r = r := by
  cases r <;> rfl

@[simp] theorem prepend_prepend (l m : Bytes) (r : Except Fault (Bytes × Bytes)) :
    prepend l (prepend m r) = prepend (l ++ m) r := by
  cases r with
  | error f => rfl
  | ok p => simp [prepend]

/-- A byte that stands for itself in a string. -/
def Plain (b : UInt8) : Prop := b ≠ ascii '"' ∧ b ≠ ascii '\\' ∧ ¬ b < 0x20

theorem stringFrom_plain {l : Bytes} (h : ∀ b ∈ l, Plain b) :
    stringFrom .none (l ++ bs) = prepend l (stringFrom .none bs) := by
  induction l with
  | nil => simp
  | cons b l ih =>
    obtain ⟨hq, hs, hc⟩ := h b List.mem_cons_self
    rw [List.cons_append, stringFrom, if_neg hq, if_neg hs, if_neg hc,
      ih fun d hd => h d (List.mem_cons_of_mem b hd), prepend_prepend]
    rfl

theorem plain_of_mem_encodeChar {c : Char} (hq : c ≠ '"') (hs : c ≠ '\\') (hc : 0x20 ≤ c.toNat) :
    ∀ b ∈ String.utf8EncodeChar c, Plain b := by
  intro b hb
  unfold Plain
  simp only [ne_eq, ← UInt8.toNat_inj, UInt8.lt_iff_toNat_lt]
  rcases Nat.lt_or_ge c.toNat 0x80 with h | h
  · rw [encodeChar_one h, List.mem_singleton] at hb
    rw [hb, toNat_ofNat_of_lt (Nat.lt_trans h (by decide))]
    refine ⟨fun he => hq (Char.toNat_inj.mp he), fun he => hs (Char.toNat_inj.mp he), ?_⟩
    exact Nat.not_lt.mpr hc
  · have hl := le_of_mem_encodeChar h b hb
    simp only [show (ascii '"').toNat = 0x22 from rfl, show (ascii '\\').toNat = 0x5C from rfl,
      show (0x20 : UInt8).toNat = 0x20 from rfl]
    omega

theorem hexDigit_toNat_lt (n : ℕ) : (hexDigit n).toNat < 0x80 := by
  have hn : n % 16 < 16 := Nat.mod_lt n (by decide)
  unfold hexDigit
  generalize n % 16 = m at hn
  interval_cases m <;> decide

theorem hexValue?_hexDigit (n : ℕ) : hexValue? (ascii (hexDigit n)) = some (n % 16) := by
  have hn : n % 16 < 16 := Nat.mod_lt n (by decide)
  unfold hexDigit
  generalize hm : n % 16 = m at hn ⊢
  interval_cases m <;> rfl

theorem encode_hex (n : ℕ) : encode (hex 4 n) =
    [ascii (hexDigit (n / 16 / 16 / 16)), ascii (hexDigit (n / 16 / 16)),
      ascii (hexDigit (n / 16)), ascii (hexDigit n)] := by
  rw [encode_asciis]
  · rfl
  · simp [hex, hexDigit_toNat_lt]

/-- Four hexadecimal digits that name no surrogate are one character. -/
theorem stringFrom_hex {n : ℕ} (h : n < 0xD800) :
    stringFrom (.digits .none 4 0) (encode (hex 4 n) ++ bs) =
      prepend (String.utf8EncodeChar (Char.ofNat n)) (stringFrom .none bs) := by
  have hv : (((0 * 16 + n / 16 / 16 / 16 % 16) * 16 + n / 16 / 16 % 16) * 16 + n / 16 % 16) * 16 +
      n % 16 = n := by omega
  have hl : isLowSurrogate n = false := by simp [isLowSurrogate]; omega
  have hh : isHighSurrogate n = false := by simp [isHighSurrogate]; omega
  rw [encode_hex]
  simp only [List.cons_append, List.nil_append, stringFrom, hexValue?_hexDigit, Nat.one_lt_ofNat,
    ite_true, Nat.reduceSub, lt_self_iff_false, ite_false, hv, hl, hh, Bool.false_eq_true]

theorem stringFrom_escapedChar (c : Char) :
    stringFrom .none (encode (escapedChar c) ++ bs) =
      prepend (String.utf8EncodeChar c) (stringFrom .none bs) := by
  unfold escapedChar
  split_ifs with hq hs hn hr ht hb hf hc
  · subst hq; rfl
  · subst hs; rfl
  · subst hn; rfl
  · subst hr; rfl
  · subst ht; rfl
  · obtain rfl : c = Char.ofNat 8 := by rw [← hb, Char.ofNat_toNat]
    rfl
  · obtain rfl : c = Char.ofNat 12 := by rw [← hf, Char.ofNat_toNat]
    rfl
  · have h := @stringFrom_hex bs c.toNat (by omega)
    rw [Char.ofNat_toNat] at h
    exact h
  · rw [encode_cons, encode_nil, List.append_nil]
    exact stringFrom_plain (plain_of_mem_encodeChar hq hs (Nat.not_lt.mp hc))

theorem stringFrom_escaped (cs : List Char) :
    stringFrom .none (encode (cs.flatMap escapedChar) ++ ascii '"' :: rest) =
      .ok (encode cs, rest) := by
  induction cs with
  | nil => rfl
  | cons c cs ih =>
    rw [List.flatMap_cons, encode_append, List.append_assoc, stringFrom_escapedChar, ih]
    rfl

/-- A string is read back behind its opening quote. -/
theorem string_escaped (s : String) :
    string (encode (s.toList.flatMap escapedChar) ++ ascii '"' :: rest) = .ok (s, rest) := by
  unfold string
  rw [stringFrom_escaped]
  simp only [decode_encode, String.ofList_toList]

/-! ## Numbers -/

/-- What may stand behind an integer: it begins with no digit, point or exponent. -/
def EndsNumber (rest : Bytes) : Prop :=
  startsFraction rest = false ∧ ∀ b ∈ rest.head?, isDigit b = false

theorem endsNumber_nil : EndsNumber [] := ⟨rfl, by simp⟩

theorem endsNumber_cons {b : UInt8} (h : startsFraction [b] = false) (h' : isDigit b = false) :
    EndsNumber (b :: rest) := ⟨h, by simpa using h'⟩

theorem encode_toDigits (n : ℕ) :
    encode (Nat.toDigits 10 n) = (Nat.toDigits 10 n).map ascii :=
  encode_asciis fun _ hc => Nat.lt_of_le_of_lt (Decimal.digit_range hc).2 (by decide)

theorem toNat_of_mem_toDigits {n : ℕ} {c : Char} (h : c ∈ Nat.toDigits 10 n) :
    (ascii c).toNat = c.toNat :=
  ascii_toNat (Nat.lt_of_le_of_lt (Decimal.digit_range h).2 (by decide))

theorem isDigit_of_mem {n : ℕ} : ∀ b ∈ encode (Nat.toDigits 10 n), isDigit b = true := by
  rw [encode_toDigits]
  simp only [List.mem_map]
  rintro b ⟨c, hc, rfl⟩
  simp only [isDigit, Bool.and_eq_true, decide_eq_true_eq, UInt8.le_iff_toNat_le,
    toNat_of_mem_toDigits hc]
  exact Decimal.digit_range hc

theorem takeDigits_append {l : Bytes} (hl : ∀ b ∈ l, isDigit b = true) (hr : EndsNumber rest) :
    takeDigits (l ++ rest) = (l.map digitValue, rest) := by
  have ht : rest.takeWhile isDigit = [] ∧ rest.dropWhile isDigit = rest := by
    cases rest with
    | nil => exact ⟨rfl, rfl⟩
    | cons b bs =>
      have hb : isDigit b = false := hr.2 b rfl
      simp [hb]
  rw [takeDigits, List.takeWhile_append_of_pos hl, List.dropWhile_append_of_pos hl, ht.1, ht.2,
    List.append_nil]

theorem ofDigits_toDigits (n : ℕ) :
    Decimal.ofDigits 10 ((encode (Nat.toDigits 10 n)).map digitValue) = n := by
  have hv : (encode (Nat.toDigits 10 n)).map digitValue =
      (Nat.toDigits 10 n).map fun c => c.toNat - 0x30 := by
    rw [encode_toDigits, List.map_map]
    refine List.map_congr_left fun c hc => ?_
    rw [Function.comp_apply, digitValue, toNat_of_mem_toDigits hc]
  rw [hv, Decimal.ofDigits_toDigits]

theorem toDigits_head_ne_zero {n : ℕ} (h : 0 < n) : (Nat.toDigits 10 n).head? ≠ some '0' := by
  induction n using Nat.strong_induction_on with
  | _ n ih =>
    rw [Nat.toDigits_eq_if (by decide)]
    split_ifs with hn
    · simp only [List.head?_cons, ne_eq, Option.some.injEq, Nat.digitChar_eq_zero]
      omega
    · rw [List.head?_append_of_ne_nil _ Nat.toDigits_ne_nil]
      exact ih (n / 10) (by omega) (by omega)

/-- A positive number begins with a digit that is not zero. -/
theorem toDigits_eq_cons {n : ℕ} (h : 0 < n) : ∃ b l, encode (Nat.toDigits 10 n) = b :: l ∧
    b ≠ ascii '0' ∧ b ≠ ascii '-' ∧ isDigit b = true := by
  have hh := toDigits_head_ne_zero h
  have hd := @isDigit_of_mem n
  have hr := @Decimal.digit_range n
  rw [encode_toDigits] at hd ⊢
  cases hc : Nat.toDigits 10 n with
  | nil => exact absurd hc Nat.toDigits_ne_nil
  | cons c cs =>
    rw [hc] at hh hd hr
    have hm : c ∈ c :: cs := List.mem_cons_self
    have hn : (ascii c).toNat = c.toNat := ascii_toNat (Nat.lt_of_le_of_lt (hr hm).2 (by decide))
    refine ⟨ascii c, cs.map ascii, rfl, ?_, ?_, hd _ List.mem_cons_self⟩
    · intro he
      refine hh (congrArg some (Char.toNat_inj.mp ?_))
      exact hn.symm.trans (congrArg UInt8.toNat he)
    · intro he
      have hl := (hr hm).1
      rw [← hn, he] at hl
      exact absurd hl (by decide)

theorem number_zero (hr : EndsNumber rest) : number (ascii '0' :: rest) = .ok (.int 0, rest) := by
  obtain ⟨hf, hd⟩ := hr
  cases rest with
  | nil => rfl
  | cons b bs =>
    have hb : isDigit b = false := hd b rfl
    simp only [number, hf, hb, Bool.false_eq_true, ite_false, ite_true,
      show ascii '0' ≠ ascii '-' from by decide]

/-- The digits of a positive number, with or without a sign before them. -/
theorem number_digits {n : ℕ} (negative : Bool) (hn : 0 < n) (hr : EndsNumber rest)
    (hl : (if negative then 1 else 0) + (Nat.toDigits 10 n).length ≤ Decimal.maxDigits) :
    number ((if negative then [ascii '-'] else []) ++ encode (Nat.toDigits 10 n) ++ rest) =
      .ok (.int (if negative then -(n : ℤ) else n), rest) := by
  obtain ⟨b, l, hb, h0, hm, hd⟩ := toDigits_eq_cons hn
  have ht := takeDigits_append (@isDigit_of_mem n) hr
  have hv := ofDigits_toDigits n
  have hlen : (encode (Nat.toDigits 10 n)).length = (Nat.toDigits 10 n).length := by
    rw [encode_toDigits, List.length_map]
  rw [hb] at ht hv hlen ⊢
  rw [List.length_cons] at hlen
  cases negative with
  | true =>
    have hs : ¬ Decimal.maxDigits < (ascii '-' :: b :: (l ++ rest)).length - rest.length := by
      simp at hl ⊢; omega
    simp only [ite_true, List.cons_append, List.nil_append, number, h0, hd, ite_false]
    rw [List.cons_append] at ht
    simp only [ht, hs, hr.1, hv, ite_false, Bool.false_eq_true]
  | false =>
    have hs : ¬ Decimal.maxDigits < (b :: (l ++ rest)).length - rest.length := by
      simp at hl ⊢; omega
    simp only [ite_true, List.cons_append, List.nil_append, number, h0, hd, hm, ite_false,
      Bool.false_eq_true]
    rw [List.cons_append] at ht
    simp only [ht, hs, hr.1, hv, ite_false, Bool.false_eq_true]

/-- An integer is a negative one, zero or a positive one. -/
theorem int_cases (n : ℤ) :
    (∃ m : ℕ, 0 < m ∧ n = -(m : ℤ)) ∨ n = 0 ∨ ∃ m : ℕ, 0 < m ∧ n = (m : ℤ) := by
  rcases lt_trichotomy n 0 with h | h | h
  · exact Or.inl ⟨n.natAbs, by omega, by omega⟩
  · exact Or.inr (Or.inl h)
  · exact Or.inr (Or.inr ⟨n.natAbs, by omega, by omega⟩)

/-- An integer is read back where what follows does not continue it. -/
theorem number_ofInt {n : ℤ} (hl : (Decimal.ofInt n).length ≤ Decimal.maxDigits)
    (hr : EndsNumber rest) :
    number (encode (Decimal.ofInt n).toList ++ rest) = .ok (.int n, rest) := by
  rw [← String.length_toList] at hl
  rcases int_cases n with ⟨m, hm, rfl⟩ | rfl | ⟨m, hm, rfl⟩
  · rw [Decimal.ofInt_neg hm] at hl ⊢
    rw [← List.singleton_append, encode_append, encode_ascii (by decide)]
    exact number_digits true hm hr (by simpa [Nat.add_comm] using hl)
  · exact number_zero hr
  · rw [Decimal.ofInt_natCast] at hl ⊢
    exact number_digits false hm hr (by simpa using hl)

theorem ofInt_eq_cons (n : ℤ) : ∃ b l, encode (Decimal.ofInt n).toList = b :: l ∧
    (b = ascii '-' ∨ isDigit b = true) := by
  rcases int_cases n with ⟨m, hm, rfl⟩ | rfl | ⟨m, hm, rfl⟩
  · rw [Decimal.ofInt_neg hm, ← List.singleton_append, encode_append, encode_ascii (by decide)]
    exact ⟨_, _, rfl, Or.inl rfl⟩
  · exact ⟨ascii '0', [], rfl, Or.inr rfl⟩
  · rw [Decimal.ofInt_natCast]
    obtain ⟨b, l, hb, _, _, hd⟩ := toDigits_eq_cons hm
    exact ⟨b, l, hb, Or.inr hd⟩

end AgentControl.Json
