import Mathlib.Data.List.TakeWhile
import AgentControl.Proofs.Decimal.Reading
import AgentControl.Proofs.Json.RoundTrip

/-! # The size of what is read

The reader refuses integers of too many digits, wherever they stand, so there are none in
a tree that it returns.
-/

namespace AgentControl.Json

variable {fuel depth : ℕ} {bs rest : Bytes} {j : Json} {ds : List ℕ} {negative : Bool}

/-- No integer in a tree has more digits than are read. -/
inductive Short : Json → Prop where
  | null : Short .null
  | bool {b : Bool} : Short (.bool b)
  | int {n : ℤ} : n.natAbs < 10 ^ Decimal.maxDigits → Short (.int n)
  | float {x : Float} : Short (.float x)
  | str {s : String} : Short (.str s)
  | array {xs : List Json} : (∀ x ∈ xs, Short x) → Short (.array xs)
  | object {ms : List (String × Json)} : (∀ m ∈ ms, Short m.2) → Short (.object ms)

/-! ## Numbers -/

theorem digitValue_lt {b : UInt8} (h : isDigit b = true) : digitValue b < 10 := by
  obtain ⟨hl, hh⟩ := digit_bounds h
  rw [digitValue]
  omega

theorem lt_of_takeDigits (h : takeDigits bs = (ds, rest)) : ∀ n ∈ ds, n < 10 := by
  obtain ⟨rfl, -⟩ := Prod.mk.inj h
  intro n hn
  obtain ⟨b, hb, rfl⟩ := List.mem_map.mp hn
  exact digitValue_lt (List.mem_takeWhile_imp hb)

theorem length_takeDigits (h : takeDigits bs = (ds, rest)) :
    ds.length + rest.length = bs.length := by
  obtain ⟨rfl, rfl⟩ := Prod.mk.inj h
  rw [List.length_map, ← List.length_append, List.takeWhile_append_dropWhile]

theorem natAbs_lt_of_digits (h : ∀ n ∈ ds, n < 10) (hl : ds.length ≤ Decimal.maxDigits) :
    (if negative then -(Decimal.ofDigits 10 ds : ℤ) else (Decimal.ofDigits 10 ds : ℤ)).natAbs <
      10 ^ Decimal.maxDigits := by
  have hp : Decimal.ofDigits 10 ds < 10 ^ Decimal.maxDigits :=
    (Decimal.ofDigits_lt h).trans_le (Nat.pow_le_pow_right (by decide) hl)
  cases negative with
  | false => exact hp
  | true =>
    rw [if_pos rfl, Int.natAbs_neg]
    exact hp

/-- A number with a point or an exponent is no integer. -/
theorem short_of_fraction {whole : List ℕ} (h : fraction negative whole bs = .ok (j, rest)) :
    Short j := by
  unfold fraction at h
  dsimp only at h
  repeat' split at h
  all_goals
    cases h
    try exact .float

theorem short_of_number (h : number bs = .ok (j, rest)) : Short j := by
  unfold number at h
  split at h
  next negative body hs =>
    -- the limit counts a sign as a digit, so what is behind it is no longer than allowed
    have hl : body.length ≤ bs.length := by
      cases bs with
      | nil =>
        obtain ⟨-, rfl⟩ := Prod.mk.inj hs
        exact Nat.le_refl _
      | cons b bs =>
        dsimp only at hs
        split at hs
        · obtain ⟨-, rfl⟩ := Prod.mk.inj hs
          exact Nat.le_succ _
        · obtain ⟨-, rfl⟩ := Prod.mk.inj hs
          exact Nat.le_refl _
    cases body with
    | nil => cases h
    | cons b body =>
      dsimp only at h
      split at h
      · split at h
        · exact short_of_fraction h
        · repeat' split at h
          all_goals
            cases h
            try exact .int (Nat.pow_pos (by decide))
      · split at h
        · generalize ht : takeDigits (b :: body) = t at h
          obtain ⟨ds, after⟩ := t
          have hn := length_takeDigits ht
          dsimp only at h
          split at h
          · cases h
          · next hd =>
            have hm : ds.length ≤ Decimal.maxDigits := by omega
            split at h
            · exact short_of_fraction h
            · cases h
              exact .int (natAbs_lt_of_digits (lt_of_takeDigits ht) hm)
        · repeat' split at h
          all_goals
            cases h
            try exact .float

/-! ## Values -/

theorem short_of_constant {letters : List Char} {word : Json} (hw : word.Short)
    (h : constant letters word bs = .ok (j, rest)) : Short j := by
  unfold constant at h
  split at h
  · cases h
  · cases h
    exact hw

/-- What the reader returns with some fuel is short. -/
structure ReadsShort (fuel : ℕ) : Prop where
  value : ∀ {depth : ℕ} {bs rest : Bytes} {j : Json}, value fuel depth bs = .ok (j, rest) → j.Short
  items : ∀ {depth : ℕ} {bs rest : Bytes} {xs : List Json},
    items fuel depth bs = .ok (xs, rest) → ∀ x ∈ xs, Short x
  members : ∀ {depth : ℕ} {bs rest : Bytes} {ms : List (String × Json)},
    members fuel depth bs = .ok (ms, rest) → ∀ m ∈ ms, Short m.2

theorem ReadsShort.value_succ (hr : ReadsShort fuel)
    (h : Json.value (fuel + 1) depth bs = .ok (j, rest)) :
    j.Short := by
  cases bs with
  | nil =>
    simp only [Json.value] at h
    cases h
  | cons b bs =>
    simp only [Json.value] at h
    split at h
    · split at h
      · cases h
      · split at h
        · cases h
          exact .object (List.forall_mem_nil _)
        · split at h
          · split at h
            · cases h
            · next hm =>
              cases h
              exact .object (hr.members hm)
          · cases h
    · split at h
      · split at h
        · cases h
        · split at h
          · cases h
            exact .array (List.forall_mem_nil _)
          · split at h
            · cases h
            · next hi =>
              cases h
              exact .array (hr.items hi)
      · split at h
        · split at h
          · cases h
          · cases h
            exact .str
        · split_ifs at h
          · exact short_of_constant .bool h
          · exact short_of_constant .bool h
          · exact short_of_constant .null h
          · exact short_of_constant .float h
          · exact short_of_constant .float h
          · exact short_of_number h
          · cases h

theorem ReadsShort.items_succ (hr : ReadsShort fuel) {xs : List Json}
    (h : Json.items (fuel + 1) depth bs = .ok (xs, rest)) : ∀ x ∈ xs, Short x := by
  cases depth with
  | zero =>
    simp only [Json.items] at h
    cases h
  | succ depth =>
    simp only [Json.items] at h
    split at h
    · cases h
    next hv =>
    split at h
    · cases h
    split at h
    · cases h
      exact List.forall_mem_singleton.mpr (hr.value hv)
    split at h
    · split at h
      · cases h
      split at h
      · cases h
      split at h
      · cases h
      next hi =>
      cases h
      exact List.forall_mem_cons.mpr ⟨hr.value hv, hr.items hi⟩
    · cases h

theorem ReadsShort.members_succ (hr : ReadsShort fuel) {ms : List (String × Json)}
    (h : Json.members (fuel + 1) depth bs = .ok (ms, rest)) : ∀ m ∈ ms, Short m.2 := by
  simp only [Json.members] at h
  split at h
  · cases h
  cases depth with
  | zero => cases h
  | succ depth =>
    dsimp only at h
    split at h
    · cases h
    next hv =>
    split at h
    · cases h
    split at h
    · cases h
      exact List.forall_mem_singleton.mpr (hr.value hv)
    split at h
    · split at h
      · cases h
      split at h
      · split at h
        · cases h
        next hm =>
        cases h
        exact List.forall_mem_cons.mpr ⟨hr.value hv, hr.members hm⟩
      · split at h <;> cases h
    · cases h

theorem readsShort (fuel : ℕ) : ReadsShort fuel := by
  induction fuel with
  | zero =>
    constructor
    · intro depth bs rest j h
      simp only [Json.value] at h
      cases h
    · intro depth bs rest xs h
      simp only [Json.items] at h
      cases h
    · intro depth bs rest ms h
      simp only [Json.members] at h
      cases h
  | succ fuel ih => exact ⟨ih.value_succ, ih.items_succ, ih.members_succ⟩

theorem short_of_read (h : read bs = .ok j) : j.Short := by
  unfold read at h
  split at h
  · cases h
  · split at h
    · cases h
    · next hv =>
      split at h
      · cases h
        exact (readsShort _).value hv
      · cases h

end AgentControl.Json
