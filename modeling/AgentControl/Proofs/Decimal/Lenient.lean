import AgentControl.Decimal.Lenient
import AgentControl.Proofs.Decimal.Numeral

/-! # How a setting writes an integer

In settings zeros may lead an integer and a point with zeros may follow it, and only ASCII digits
count. Reading accepts exactly the texts that are written so, once spaces around them are dropped.
-/

namespace AgentControl.Decimal

variable {c p : Char} {cs out lead body tail : List Char} {ds : List ℕ} {k : ℕ} {n : ℤ}

/-! ## Underscores -/

theorem Numeral.map_digit? (h : Numeral cs ds) :
    (cs.filter (· != '_')).map digit? = ds.map some := by
  induction h with
  | last hd => simp [ne_underscore hd, hd]
  | next hd _ ih => simp [ne_underscore hd, hd, ih]
  | apart hd _ ih => simp [ne_underscore hd, hd, ih]

theorem Numeral.getLast?_ne (h : Numeral cs ds) : cs.getLast? ≠ some '_' := by
  induction h with
  | last hd => simpa using ne_underscore hd
  | next _ h ih | apart _ h ih =>
    obtain ⟨c, rest, d, more, rfl, rfl, hd⟩ := h.exists_cons
    simpa [List.getLast?_cons_cons] using ih

/-- No two underscores of a numeral stand side by side. -/
theorem Numeral.not_doubled (h : Numeral cs ds) :
    ((cs.zip cs.tail).any fun (a, b) => a == '_' && b == '_') = false := by
  induction h with
  | last => rfl
  | next hd h ih =>
    obtain ⟨c, rest, d, more, rfl, rfl, -⟩ := h.exists_cons
    simpa [ne_underscore hd] using ih
  | apart hd h ih =>
    obtain ⟨c, rest, d, more, rfl, rfl, hc⟩ := h.exists_cons
    simpa [ne_underscore hd, ne_underscore hc] using ih

namespace Lenient

/-- Zeros in front of a number, with underscores anywhere behind the first. -/
structure Leading (cs : List Char) : Prop where
  head : cs.head? ≠ some '_'
  all : ∀ c ∈ cs, c = '0' ∨ c = '_'

/-- Nothing, or a point with nothing but zeros behind it. -/
inductive Ending : List Char → Prop where
  | none : Ending []
  | point {cs : List Char} : (∀ c ∈ cs, c = '0') → Ending ('.' :: cs)

/-- The number that a text without a sign writes. Its digits count from the first above zero on. -/
inductive Magnitude : List Char → ℕ → Prop where
  | zero {lead tail : List Char} : Leading lead → Ending tail → Magnitude (lead ++ '0' :: tail) 0
  | digits {lead body tail : List Char} {ds : List ℕ} : Leading lead → Numeral body ds →
      (∀ c ∈ body, c.toNat < 0x80) → body.head? ≠ some '0' → ds.length ≤ maxDigits → Ending tail →
      Magnitude (lead ++ (body ++ tail)) (ofDigits 10 ds)

/-- The integer that a text writes, with or without a sign. -/
inductive Writes : List Char → ℤ → Prop where
  | plain {cs : List Char} {k : ℕ} : Magnitude cs k → Writes cs k
  | plus {cs : List Char} {k : ℕ} : Magnitude cs k → Writes ('+' :: cs) k
  | minus {cs : List Char} {k : ℕ} : Magnitude cs k → Writes ('-' :: cs) (-k)

/-! ## Digits and separators -/

theorem isAsciiDigit_iff : isAsciiDigit c = true ↔ 0x30 ≤ c.toNat ∧ c.toNat ≤ 0x39 := by
  simp [isAsciiDigit]

/-- Below the other scripts only the ASCII digits are digits. -/
theorem isAsciiDigit_of_digit? {d : ℕ} (h : digit? c = some d) (hc : c.toNat < 0x80) :
    isAsciiDigit c = true := by
  have hz : ∀ z ∈ zeros, z = 0x30 ∨ 0x80 ≤ z := by decide
  obtain ⟨z, hm, hd⟩ := List.exists_of_findSome?_eq_some h
  split at hd
  · have := hz z hm
    exact isAsciiDigit_iff.mpr (by omega)
  · cases hd

theorem digit?_of_isAsciiDigit (h : isAsciiDigit c = true) : ∃ d, digit? c = some d :=
  ⟨_, digit?_of_range (isAsciiDigit_iff.mp h)⟩

theorem toNat_lt (h : isAsciiDigit c = true ∨ c = '_') : c.toNat < 0x80 := by
  obtain h | rfl := h
  · have := isAsciiDigit_iff.mp h
    omega
  · decide

theorem ne_point (h : isAsciiDigit c = true ∨ c = '_') : c ≠ '.' := by
  rintro rfl
  exact absurd h (by decide)

theorem dropSeparators_of_numeral (h : Numeral cs ds) :
    dropSeparators cs = cs.filter (· != '_') := by
  have hh : cs.head? ≠ some '_' := (numeral_iff.mp h).1
  unfold dropSeparators
  simp only [h.not_doubled, Bool.or_false, Bool.or_eq_true, beq_iff_eq]
  exact if_neg (not_or.mpr ⟨hh, h.getLast?_ne⟩)

/-- Digits and underscores of which none is at an end or beside another are a numeral. -/
theorem exists_numeral : ∀ {cs : List Char}, cs ≠ [] → cs.head? ≠ some '_' →
    cs.getLast? ≠ some '_' →
    ((cs.zip cs.tail).any fun (a, b) => a == '_' && b == '_') = false →
    (∀ c ∈ cs, isAsciiDigit c = true ∨ c = '_') → ∃ ds, Numeral cs ds
  | [], hn, _, _, _, _ => absurd rfl hn
  | [c], _, hh, _, _, hc => by
      have hu : c ≠ '_' := fun he => hh (congrArg some he)
      obtain ⟨d, hd⟩ := digit?_of_isAsciiDigit ((hc c List.mem_cons_self).resolve_right hu)
      exact ⟨[d], .last hd⟩
  | c :: c' :: cs, _, hh, hl, ha, hc => by
      have hu : c ≠ '_' := fun he => hh (congrArg some he)
      obtain ⟨d, hd⟩ := digit?_of_isAsciiDigit ((hc c List.mem_cons_self).resolve_right hu)
      have hc' : ∀ e ∈ c' :: cs, isAsciiDigit e = true ∨ e = '_' :=
        fun e he => hc e (List.mem_cons_of_mem c he)
      simp only [List.tail_cons, List.zip_cons_cons, List.any_cons, Bool.or_eq_false_iff] at ha
      rw [List.getLast?_cons_cons] at hl
      by_cases he : c' = '_'
      · subst he
        -- an underscore is followed by a digit, with which the rest of the numeral begins
        cases cs with
        | nil => exact absurd rfl hl
        | cons e cs =>
          have hn : e ≠ '_' := by
            rintro rfl
            simp at ha
          obtain ⟨ds, h⟩ := exists_numeral (List.cons_ne_nil e cs) (by simpa using hn)
            (by rwa [List.getLast?_cons_cons] at hl)
            (by simpa [List.zip_cons_cons, hn] using ha.2)
            fun f hf => hc' f (List.mem_cons_of_mem _ hf)
          exact ⟨d :: ds, .apart hd h⟩
      · obtain ⟨ds, h⟩ := exists_numeral (List.cons_ne_nil c' cs) (by simpa using he) hl ha.2 hc'
        exact ⟨d :: ds, .next hd h⟩

theorem mem_of_dropSeparators (h : (dropSeparators cs).all isAsciiDigit = true) :
    ∀ c ∈ cs, isAsciiDigit c = true ∨ c = '_' := by
  intro c hc
  by_cases hu : c = '_'
  · exact Or.inr hu
  · refine Or.inl (List.all_eq_true.mp h c ?_)
    unfold dropSeparators
    dsimp only
    split
    · exact hc
    · exact List.mem_filter.mpr ⟨hc, by simpa using hu⟩

theorem numeral_of_dropSeparators (hn : cs ≠ []) (h : (dropSeparators cs).all isAsciiDigit = true) :
    ∃ ds, Numeral cs ds := by
  have hc := mem_of_dropSeparators h
  unfold dropSeparators at h
  dsimp only at h
  split at h
  · next hs =>
    -- nothing was dropped, so there is no underscore to be out of place
    have hu : '_' ∉ cs := fun hm => absurd (List.all_eq_true.mp h '_' hm) (by decide)
    simp only [Bool.or_eq_true, beq_iff_eq, List.any_eq_true, Bool.and_eq_true, Prod.exists] at hs
    obtain (hs | hs) | ⟨a, b, hm, rfl, -⟩ := hs
    · exact absurd (List.mem_of_head? hs) hu
    · exact absurd (List.mem_of_getLast? hs) hu
    · exact absurd (List.of_mem_zip hm).1 hu
  · next hs =>
    simp only [Bool.or_eq_true, beq_iff_eq, not_or, Bool.not_eq_true] at hs
    exact exists_numeral hn hs.1.1 hs.1.2 hs.2 hc

/-- The digits of a numeral in ASCII are what is left of it without its separators. -/
theorem dropSeparators_spec (h : Numeral cs ds) (hc : ∀ c ∈ cs, c.toNat < 0x80) :
    (dropSeparators cs).all isAsciiDigit = true ∧ (dropSeparators cs).filterMap digit? = ds ∧
      (dropSeparators cs).length = ds.length := by
  have hm := h.map_digit?
  rw [dropSeparators_of_numeral h]
  refine ⟨List.all_eq_true.mpr fun c hf => ?_, ?_, ?_⟩
  · obtain ⟨d, -, hd⟩ := List.mem_map.mp (hm ▸ List.mem_map_of_mem hf)
    exact isAsciiDigit_of_digit? hd.symm (hc c (List.mem_of_mem_filter hf))
  · calc (cs.filter (· != '_')).filterMap digit?
        = ((cs.filter (· != '_')).map digit?).filterMap id := by rw [List.filterMap_map]; rfl
      _ = (ds.map some).filterMap id := by rw [hm]
      _ = ds := by simp
  · simpa using congrArg List.length hm

/-! ## Zeros in front -/

theorem dropZeros_append (h : ∀ c ∈ lead, c = '0' ∨ c = '_') :
    dropZeros p (lead ++ cs) = dropZeros (lead.getLastD p) cs := by
  induction lead generalizing p with
  | nil => rfl
  | cons c lead ih =>
    obtain ⟨hc, hl⟩ := List.forall_mem_cons.mp h
    rw [List.cons_append, dropZeros, if_pos hc, ih hl, List.getLastD_cons]

theorem dropZeros_of_ending (h : Ending tail) : dropZeros p tail = some (p :: tail) := by
  cases h with
  | none => rfl
  | point => rfl

theorem dropZeros_of_digit (hc : isAsciiDigit c = true) (h0 : c ≠ '0') :
    dropZeros p (c :: cs) = some (c :: cs) := by
  have hu : c ≠ '_' := by
    rintro rfl
    exact absurd hc (by decide)
  rw [dropZeros, if_neg (not_or.mpr ⟨h0, hu⟩), if_pos hc]

/-- Leading zeros are dropped where they are dropped from what follows them in either way. -/
theorem significant_append (hl : Leading lead) (hs : significant cs = some cs)
    (hz : ∀ p, dropZeros p cs = some cs) : significant (lead ++ cs) = some cs := by
  cases lead with
  | nil => exact hs
  | cons c lead =>
    obtain ⟨hc, hall⟩ := List.forall_mem_cons.mp hl.all
    have h0 : c = '0' := hc.resolve_right fun hu => hl.head (congrArg some hu)
    rw [List.cons_append, significant, if_pos h0, dropZeros_append hall, hz]

theorem significant_of_zero (hl : Leading lead) (ht : Ending tail) :
    significant (lead ++ '0' :: tail) = some ('0' :: tail) :=
  significant_append hl (dropZeros_of_ending ht) fun _ => dropZeros_of_ending ht

theorem significant_of_digit (hl : Leading lead) (hc : isAsciiDigit c = true) (h0 : c ≠ '0') :
    significant (lead ++ c :: cs) = some (c :: cs) := by
  refine significant_append hl ?_ fun _ => dropZeros_of_digit hc h0
  rw [significant, if_neg h0, if_pos hc]

/-- What a number may begin with once zeros are dropped. -/
def Begins (cs : List Char) : Prop :=
  ∃ c rest, cs = c :: rest ∧ (isAsciiDigit c = true ∧ c ≠ '0' ∨
    (c = '0' ∨ c = '_') ∧ (rest = [] ∨ rest.head? = some '.'))

theorem exists_of_dropZeros (hp : p = '0' ∨ p = '_') (h : dropZeros p cs = some out) :
    ∃ lead, p :: cs = lead ++ out ∧ (∀ c ∈ lead, c = '0' ∨ c = '_') ∧ Begins out := by
  fun_induction dropZeros p cs with
  | case1 p =>
    obtain rfl := Option.some.inj h
    exact ⟨[], rfl, List.forall_mem_nil _, p, [], rfl, Or.inr ⟨hp, Or.inl rfl⟩⟩
  | case2 p c cs hc ih =>
    obtain ⟨lead, he, hl, hb⟩ := ih hc h
    exact ⟨p :: lead, congrArg (p :: ·) he, List.forall_mem_cons.mpr ⟨hp, hl⟩, hb⟩
  | case3 p c cs hc hd =>
    obtain rfl := Option.some.inj h
    exact ⟨[p], rfl, List.forall_mem_singleton.mpr hp, c, cs, rfl,
      Or.inl ⟨hd, fun h0 => hc (Or.inl h0)⟩⟩
  | case4 p cs =>
    obtain rfl := Option.some.inj h
    exact ⟨[], rfl, List.forall_mem_nil _, p, _, rfl, Or.inr ⟨hp, Or.inr rfl⟩⟩
  | case5 => cases h

theorem exists_of_significant (h : significant cs = some out) :
    ∃ lead, cs = lead ++ out ∧ Leading lead ∧ Begins out := by
  cases cs with
  | nil => cases h
  | cons c cs =>
    rw [significant] at h
    split at h
    · next hc =>
      obtain rfl := hc
      obtain ⟨lead, he, hl, hb⟩ := exists_of_dropZeros (Or.inl rfl) h
      refine ⟨lead, he, ⟨?_, hl⟩, hb⟩
      cases lead with
      | nil => nofun
      | cons e lead =>
        obtain ⟨rfl, -⟩ := List.cons.inj he
        simp
    · next h0 =>
      split at h
      · next hd =>
        obtain rfl := Option.some.inj h
        exact ⟨[], rfl, ⟨nofun, List.forall_mem_nil _⟩, c, cs, rfl, Or.inl ⟨hd, h0⟩⟩
      · cases h

/-! ## Zeros behind a point -/

theorem exists_of_dropPoint : ∃ tail, cs = dropPoint cs ++ tail ∧ Ending tail := by
  unfold dropPoint
  dsimp only
  split
  · next hz =>
    have he : cs.takeWhile (· != '.') ++ cs.dropWhile (· != '.') = cs :=
      List.takeWhile_append_dropWhile
    refine ⟨cs.dropWhile (· != '.'), he.symm, ?_⟩
    cases hd : cs.dropWhile (· != '.') with
    | nil => exact .none
    | cons c rest =>
      have hh : (cs.dropWhile (· != '.')).head? = some c := congrArg List.head? hd
      have hc : (c != '.') = false := @Text.not_of_head_dropWhile (· != '.') c cs hh
      obtain rfl : c = '.' := by simpa using hc
      have hr : (cs.takeWhile (· != '.') ++ '.' :: rest).drop
          ((cs.takeWhile (· != '.')).length + 1) = rest := by simp
      rw [← hd, he] at hr
      rw [hr, List.all_eq_true] at hz
      exact .point fun c hc => by simpa using hz c hc
  · exact ⟨[], (List.append_nil cs).symm, .none⟩

theorem dropPoint_append (hb : '.' ∉ body) (ht : Ending tail) :
    dropPoint (body ++ tail) = body := by
  have hn : ∀ c ∈ body, (c != '.') = true := by
    intro c hc
    rw [bne_iff_ne]
    rintro rfl
    exact hb hc
  have hw : (body ++ tail).takeWhile (· != '.') = body := by
    rw [List.takeWhile_append_of_pos hn]
    cases ht with
    | none => exact List.append_nil body
    | point => simp
  unfold dropPoint
  simp only [hw]
  refine if_pos ?_
  cases ht with
  | none => rw [List.append_nil, List.drop_of_length_le (Nat.le_succ _), List.all_nil]
  | point hz => simpa using hz

/-! ## Reading -/

/-- The digits that a text is read from are those of the number it writes. -/
theorem magnitude_iff : Magnitude cs k ↔ ∃ out, significant cs = some out ∧
    (dropSeparators (dropPoint out)).all isAsciiDigit = true ∧
    (dropSeparators (dropPoint out)).length ≤ maxDigits ∧
    k = ofDigits 10 ((dropSeparators (dropPoint out)).filterMap digit?) := by
  constructor
  · intro h
    cases h with
    | zero hl ht =>
      refine ⟨_, significant_of_zero hl ht, ?_⟩
      rw [← List.singleton_append, dropPoint_append (by decide) ht]
      decide
    | @digits lead body tail ds hl hn hc h0 hlen ht =>
      obtain ⟨ha, hds, he⟩ := dropSeparators_spec hn hc
      have hp : '.' ∉ body := fun hm => ne_point (mem_of_dropSeparators ha '.' hm) rfl
      have hs : significant (lead ++ (body ++ tail)) = some (body ++ tail) := by
        obtain ⟨c, rest, d, more, rfl, rfl, hd⟩ := hn.exists_cons
        exact significant_of_digit hl (isAsciiDigit_of_digit? hd (hc c List.mem_cons_self))
          fun h => h0 (congrArg some h)
      refine ⟨_, hs, ?_⟩
      rw [dropPoint_append hp ht, hds, he]
      exact ⟨ha, hlen, rfl⟩
  · rintro ⟨out, hs, ha, hlen, rfl⟩
    obtain ⟨lead, rfl, hl, hb⟩ := exists_of_significant hs
    obtain ⟨tail, he, ht⟩ := @exists_of_dropPoint out
    generalize dropPoint out = body at *
    subst he
    have hm := mem_of_dropSeparators ha
    obtain ⟨c, rest, he, hc⟩ := hb
    cases body with
    | nil =>
      cases ht with
      | none => cases he
      | point =>
        obtain ⟨rfl, -⟩ := List.cons.inj he
        obtain ⟨hd, -⟩ | ⟨hz, -⟩ := hc
        · exact absurd hd (by decide)
        · exact absurd hz (by decide)
    | cons e body =>
      obtain ⟨rfl, rfl⟩ := List.cons.inj he
      obtain ⟨ds, hn⟩ := numeral_of_dropSeparators (List.cons_ne_nil e body) ha
      obtain ⟨-, hds, hle⟩ := dropSeparators_spec hn fun c hc => toNat_lt (hm c hc)
      obtain ⟨-, h0⟩ | ⟨hz, hr⟩ := hc
      · rw [hds]
        exact .digits hl hn (fun c hc => toNat_lt (hm c hc)) (by simpa using h0) (hle ▸ hlen) ht
      · -- a zero is dropped unless the number ends with it
        obtain rfl : body = [] := by
          cases body with
          | nil => rfl
          | cons f body =>
            have hf : f = '.' := by simpa using hr
            exact absurd hf (ne_point (hm f (by simp)))
        have hu : e ≠ '_' := fun hu => (numeral_iff.mp hn).1 (congrArg some hu)
        obtain rfl := hz.resolve_right hu
        have hk : ofDigits 10 ((dropSeparators ['0']).filterMap digit?) = 0 := by decide
        rw [hk]
        exact .zero hl ht

theorem Magnitude.exists_cons (h : Magnitude cs k) :
    ∃ c rest, cs = c :: rest ∧ c ≠ '+' ∧ c ≠ '-' := by
  obtain ⟨out, hs, -⟩ := magnitude_iff.mp h
  cases cs with
  | nil => cases hs
  | cons c rest =>
    refine ⟨c, rest, rfl, ?_, ?_⟩
    · rintro rfl
      cases hs
    · rintro rfl
      cases hs

theorem Magnitude.signed_eq (h : Magnitude cs k) : signed cs = some (false, cs) := by
  obtain ⟨c, rest, rfl, hp, hm⟩ := h.exists_cons
  unfold signed
  split <;> simp_all

theorem Magnitude.signed_plus (h : Magnitude cs k) : signed ('+' :: cs) = some (false, cs) := by
  obtain ⟨c, rest, rfl, hp, hm⟩ := h.exists_cons
  unfold signed
  split <;> simp_all

theorem parse_eq_ok_iff_magnitude : parse cs = .ok n ↔
    ∃ negative body k, signed (Text.trimBy Text.isSpace cs) = some (negative, body) ∧
      Magnitude body k ∧ n = if negative then -(k : ℤ) else k := by
  unfold parse
  simp only [magnitude_iff]
  cases signed (Text.trimBy Text.isSpace cs) with
  | none => simp
  | some s =>
    obtain ⟨negative, body⟩ := s
    simp only [Option.bind_some, Option.some.injEq, Prod.mk.injEq]
    constructor
    · intro h
      cases hb : significant body with
      | none =>
        rw [hb] at h
        cases h
      | some out =>
        rw [hb] at h
        simp only [Option.map_some] at h
        split at h
        · next ha =>
          split at h
          · cases h
          · next hl =>
            exact ⟨_, _, _, ⟨rfl, rfl⟩, ⟨out, hb, ha, Nat.le_of_not_lt hl, rfl⟩,
              (Except.ok.inj h).symm⟩
        · cases h
    · rintro ⟨_, _, _, ⟨rfl, rfl⟩, ⟨out, hb, ha, hl, rfl⟩, rfl⟩
      simp only [hb, Option.map_some, if_pos ha, if_neg (Nat.not_lt_of_le hl)]

/-- A text is read as an integer exactly where, without spaces around it, it writes that integer. -/
theorem parse_eq_ok_iff : parse cs = .ok n ↔ Writes (Text.trimBy Text.isSpace cs) n := by
  rw [parse_eq_ok_iff_magnitude]
  generalize Text.trimBy Text.isSpace cs = t
  constructor
  · rintro ⟨negative, body, k, hs, hm, rfl⟩
    unfold signed at hs
    split at hs
    · cases hs
    · obtain ⟨rfl, rfl⟩ := Prod.mk.inj (Option.some.inj hs)
      exact .plus hm
    · obtain ⟨rfl, rfl⟩ := Prod.mk.inj (Option.some.inj hs)
      exact .minus hm
    · obtain ⟨rfl, rfl⟩ := Prod.mk.inj (Option.some.inj hs)
      exact .plain hm
  · intro h
    cases h with
    | plain hm => exact ⟨false, _, _, hm.signed_eq, hm, rfl⟩
    | plus hm => exact ⟨false, _, _, hm.signed_plus, hm, rfl⟩
    | minus hm => exact ⟨true, _, _, rfl, hm, rfl⟩

end Lenient

end AgentControl.Decimal
