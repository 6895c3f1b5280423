import AgentControl.Proofs.Decimal.Reading

/-! # How an integer is written

A decimal integer is digits with at most single underscores between them, behind an optional sign.
Reading accepts exactly the texts that are written so with no more digits than are allowed, once
spaces around them are dropped.
-/

namespace AgentControl.Decimal

variable {c : Char} {cs : List Char} {d : ℕ} {ds : List ℕ} {n : ℤ}

/-- Digits with single underscores between some of them, and their values. -/
inductive Numeral : List Char → List ℕ → Prop where
  | last {c : Char} {d : ℕ} : digit? c = some d → Numeral [c] [d]
  | next {c : Char} {d : ℕ} {cs : List Char} {ds : List ℕ} : digit? c = some d → Numeral cs ds →
      Numeral (c :: cs) (d :: ds)
  | apart {c : Char} {d : ℕ} {cs : List Char} {ds : List ℕ} : digit? c = some d → Numeral cs ds →
      Numeral (c :: '_' :: cs) (d :: ds)

/-- The integer that a text writes, with or without a sign. -/
inductive Writes : List Char → ℤ → Prop where
  | plain {cs : List Char} {ds : List ℕ} : Numeral cs ds → ds.length ≤ maxDigits →
      Writes cs (ofDigits 10 ds)
  | plus {cs : List Char} {ds : List ℕ} : Numeral cs ds → ds.length ≤ maxDigits →
      Writes ('+' :: cs) (ofDigits 10 ds)
  | minus {cs : List Char} {ds : List ℕ} : Numeral cs ds → ds.length ≤ maxDigits →
      Writes ('-' :: cs) (-(ofDigits 10 ds))

/-! ## Digits -/

/-- Between the upper-case letters and the end of the lower-case ones no script has its digits. -/
theorem digit?_of_letter (h : 0x41 ≤ c.toNat ∧ c.toNat ≤ 0x7A) : digit? c = none := by
  have hz : ∀ z ∈ zeros, z + 10 ≤ 0x41 ∨ 0x7A < z := by decide
  rw [digit?, List.findSome?_eq_none_iff]
  intro z hm
  have := hz z hm
  exact if_neg (by omega)

theorem lt_of_digit? (h : digit? c = some d) : d < 10 := by
  obtain ⟨z, -, hz⟩ := List.exists_of_findSome?_eq_some h
  split at hz
  · next hc =>
    obtain rfl := Option.some.inj hz
    omega
  · cases hz

theorem digitBelow?_ten : digitBelow? 10 c = digit? c := by
  unfold digitBelow?
  dsimp only
  split
  · next h =>
    rw [digit?_of_letter (by omega), Option.filter_some, if_neg]
    simp
  · split
    · next h =>
      rw [digit?_of_letter (by omega), Option.filter_some, if_neg]
      simp
    · cases hd : digit? c with
      | none => rfl
      | some d => simp [lt_of_digit? hd]

theorem ne_underscore (h : digit? c = some d) : c ≠ '_' := by
  rintro rfl
  cases h.symm.trans (digit?_of_letter (by decide))

/-! ## Scanning -/

theorem Numeral.exists_cons (h : Numeral cs ds) :
    ∃ c rest d more, cs = c :: rest ∧ ds = d :: more ∧ digit? c = some d := by
  cases h with
  | last hd => exact ⟨_, _, _, _, rfl, rfl, hd⟩
  | next hd _ => exact ⟨_, _, _, _, rfl, rfl, hd⟩
  | apart hd _ => exact ⟨_, _, _, _, rfl, rfl, hd⟩

theorem scanDigits_cons {after : Bool} (h : digit? c = some d) :
    scanDigits 10 after (c :: cs) =
      (scanDigits 10 false cs).map fun (ds, rest) => (d :: ds, rest) := by
  simp only [scanDigits, if_neg (ne_underscore h), digitBelow?_ten, h]

theorem Numeral.scanDigits_eq {after : Bool} (h : Numeral cs ds) :
    scanDigits 10 after cs = some (ds, []) := by
  induction h generalizing after with
  | last hd =>
    rw [scanDigits_cons hd]
    rfl
  | next hd _ ih => rw [scanDigits_cons hd, ih, Option.map_some]
  | apart hd _ ih =>
    rw [scanDigits_cons hd, scanDigits, if_pos rfl, if_neg Bool.false_ne_true, ih, Option.map_some]

/-- What is scanned behind a digit, or behind a digit and an underscore, goes on with the
numeral. -/
theorem numeral_of_scanDigits {after : Bool} (h : scanDigits 10 after cs = some (ds, []))
    (hd : digit? c = some d) : Numeral (c :: if after then '_' :: cs else cs) (d :: ds) := by
  fun_induction scanDigits 10 after cs generalizing c d ds with
  | case1 => cases h
  | case2 after ha =>
    cases h
    rw [if_neg ha]
    exact .last hd
  | case3 => cases h
  | case4 after _ ha ih =>
    rw [if_neg ha]
    exact ih h hd
  | case5 after c' cs _ e he ih =>
    obtain ⟨⟨more, rest⟩, hs, hm⟩ := Option.map_eq_some_iff.mp h
    obtain ⟨rfl, rfl⟩ := Prod.mk.inj hm
    have hn : Numeral (c' :: cs) (e :: more) := ih hs (digitBelow?_ten ▸ he)
    cases after with
    | false => exact .next hd hn
    | true => exact .apart hd hn
  | case6 => cases h
  | case7 => cases h

/-- The bodies of integers are the numerals. -/
theorem numeral_iff :
    Numeral cs ds ↔ cs.head? ≠ some '_' ∧ ds ≠ [] ∧ scanDigits 10 false cs = some (ds, []) := by
  constructor
  · intro h
    obtain ⟨c, rest, d, more, rfl, rfl, hd⟩ := h.exists_cons
    refine ⟨?_, List.cons_ne_nil _ _, h.scanDigits_eq⟩
    exact fun hu => ne_underscore hd (Option.some.inj hu)
  · rintro ⟨hu, hn, hs⟩
    cases cs with
    | nil =>
      cases hs
      exact absurd rfl hn
    | cons c cs =>
      have hc : c ≠ '_' := fun he => hu (congrArg some he)
      cases hd : digit? c with
      | none =>
        rw [scanDigits, if_neg hc, digitBelow?_ten, hd] at hs
        cases hs
      | some d =>
        rw [scanDigits_cons hd] at hs
        obtain ⟨⟨more, rest⟩, hs, hm⟩ := Option.map_eq_some_iff.mp hs
        obtain ⟨rfl, rfl⟩ := Prod.mk.inj hm
        exact numeral_of_scanDigits hs hd

/-! ## Reading -/

theorem Numeral.sign_eq (h : Numeral cs ds) : sign cs = (false, cs) := by
  obtain ⟨c, rest, d, more, rfl, rfl, hd⟩ := h.exists_cons
  have hm : digit? '-' = none := by decide
  have hp : digit? '+' = none := by decide
  unfold sign
  split
  · next he =>
    obtain ⟨rfl, rfl⟩ := List.cons.inj he
    cases hm.symm.trans hd
  · next he =>
    obtain ⟨rfl, rfl⟩ := List.cons.inj he
    cases hp.symm.trans hd
  · rfl

theorem overLong_ten {k : ℕ} : overLong 10 k = decide (maxDigits < k) := rfl

theorem parse_eq_ok_iff_numeral : parse 10 cs = .ok n ↔
    ∃ ds, Numeral (sign (Text.trimBy Text.isSpace cs)).2 ds ∧ ds.length ≤ maxDigits ∧
      n = if (sign (Text.trimBy Text.isSpace cs)).1 then -(ofDigits 10 ds : ℤ)
        else ofDigits 10 ds := by
  unfold parse
  generalize sign (Text.trimBy Text.isSpace cs) = signed
  obtain ⟨negative, body⟩ := signed
  simp only [dropMark_ten, numeral_iff]
  split
  · simp
  next hu =>
  have hh : body.head? ≠ some '_' := by
    intro h
    obtain ⟨rest, hr⟩ := List.head?_eq_some_iff.mp h
    exact hu rest hr
  cases hs : scanDigits 10 false body with
  | none => simp
  | some scanned =>
    obtain ⟨ds, rest⟩ := scanned
    simp only [overLong_ten, decide_eq_true_eq]
    constructor
    · intro h
      split at h
      · cases h
      next hl =>
      split at h
      · cases h
      next he =>
      obtain ⟨hds, rfl⟩ : ds ≠ [] ∧ rest = [] := by simpa using he
      exact ⟨ds, ⟨hh, hds, rfl⟩, Nat.le_of_not_lt hl, (Except.ok.inj h).symm⟩
    · rintro ⟨more, ⟨-, hds, he⟩, hl, rfl⟩
      obtain ⟨rfl, rfl⟩ := Prod.mk.inj (Option.some.inj he)
      rw [if_neg (Nat.not_lt_of_le hl), if_neg (by simpa using hds)]

/-- A text is read as an integer exactly where, without spaces around it, it writes that integer. -/
theorem parse_eq_ok_iff : parse 10 cs = .ok n ↔ Writes (Text.trimBy Text.isSpace cs) n := by
  rw [parse_eq_ok_iff_numeral]
  generalize Text.trimBy Text.isSpace cs = t
  constructor
  · rintro ⟨ds, hn, hl, rfl⟩
    unfold sign at hn ⊢
    split at hn
    · exact .minus hn hl
    · exact .plus hn hl
    · exact .plain hn hl
  · intro h
    cases h with
    | plain hn hl =>
      rw [hn.sign_eq]
      exact ⟨_, hn, hl, rfl⟩
    | plus hn hl => exact ⟨_, hn, hl, rfl⟩
    | minus hn hl => exact ⟨_, hn, hl, rfl⟩

end AgentControl.Decimal
