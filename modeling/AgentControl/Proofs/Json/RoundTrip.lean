import Mathlib.Data.List.TakeWhile
import AgentControl.Proofs.Json.Token

/-! # Trees from their own text

The reader takes back every tree that the printer writes, for every indent, as long as it holds no
float, its integers are not too long and its containers do not nest too deep.
-/

namespace AgentControl.Json

open Utf8

/-- The trees that can be read back with `depth` more containers open around others. -/
inductive Readable : (depth : ℕ) → Json → Prop where
  | null {d : ℕ} : Readable d .null
  | bool {d : ℕ} {b : Bool} : Readable d (.bool b)
  | int {d : ℕ} {n : ℤ} : (Decimal.ofInt n).length ≤ Decimal.maxDigits → Readable d (.int n)
  | str {d : ℕ} {s : String} : Readable d (.str s)
  | array {d : ℕ} {xs : List Json} : (∀ x ∈ xs, Readable d x) → Readable (d + 1) (.array xs)
  | object {d : ℕ} {ms : List (String × Json)} :
      (∀ m ∈ ms, Readable d m.2) → Readable (d + 1) (.object ms)

variable {d fuel level : ℕ} {indent : Option ℕ} {bs rest : Bytes}

/-! ## Blanks -/

theorem skipBlanks_cons {b : UInt8} (h : isBlank b = false) : skipBlanks (b :: bs) = b :: bs := by
  simp [skipBlanks, h]

theorem skipBlanks_lineBreak :
    skipBlanks (encode (lineBreak indent level) ++ bs) = skipBlanks bs := by
  cases indent with
  | none => rfl
  | some n =>
    have h : ∀ b ∈ encode (lineBreak (some n) level), isBlank b = true := by
      have ha : ∀ c ∈ lineBreak (some n) level, c = '\n' ∨ c = ' ' := by
        intro c hc
        rcases List.mem_cons.mp hc with h | h
        · exact Or.inl h
        · exact Or.inr (List.eq_of_mem_replicate h)
      rw [encode_asciis]
      · simp only [List.mem_map]
        rintro b ⟨c, hc, rfl⟩
        rcases ha c hc with rfl | rfl <;> rfl
      · intro c hc
        rcases ha c hc with rfl | rfl <;> decide
    exact List.dropWhile_append_of_pos h

theorem endsNumber_lineBreak {b : UInt8} (h : EndsNumber (b :: bs)) :
    EndsNumber (encode (lineBreak indent level) ++ b :: bs) := by
  cases indent with
  | none => exact h
  | some n => exact endsNumber_cons rfl rfl

/-! ## First bytes -/

theorem digit_bounds {b : UInt8} (h : isDigit b = true) : 0x30 ≤ b.toNat ∧ b.toNat ≤ 0x39 := by
  simpa [isDigit, UInt8.le_iff_toNat_le] using h

/-- A byte that begins a value. -/
def Opens (b : UInt8) : Prop := isBlank b = false ∧ b ≠ ascii ']'

theorem opens_of_number {b : UInt8} (h : b = ascii '-' ∨ isDigit b = true) : Opens b := by
  rcases h with rfl | h
  · exact ⟨rfl, by decide⟩
  · obtain ⟨hl, hh⟩ := digit_bounds h
    refine ⟨?_, fun he => ?_⟩
    · simp only [isBlank, Bool.or_eq_false_iff, beq_eq_false_iff_ne, ne_eq, ← UInt8.toNat_inj]
      simp
      omega
    · rw [he] at hl hh
      exact absurd hh (by decide)

theorem chars_eq_cons {j : Json} (h : Readable d j) :
    ∃ b l, encode (chars indent level j) = b :: l ∧ Opens b := by
  cases h with
  | null => exact ⟨_, _, rfl, rfl, by decide⟩
  | @bool _ b => cases b <;> exact ⟨_, _, rfl, rfl, by decide⟩
  | @int _ n _ =>
    obtain ⟨b, l, hb, hn⟩ := ofInt_eq_cons n
    exact ⟨b, l, hb, opens_of_number hn⟩
  | str => exact ⟨_, _, rfl, rfl, by decide⟩
  | @array _ xs _ => cases xs <;> exact ⟨_, _, rfl, rfl, by decide⟩
  | @object _ ms _ => cases ms <;> exact ⟨_, _, rfl, rfl, by decide⟩

/-! ## Containers -/

/-- What the printer writes behind an item. -/
def itemsRest (indent : Option ℕ) (level : ℕ) : List Json → List Char
  | [] => []
  | x :: xs => ',' :: itemChars indent level (x :: xs)

theorem itemChars_cons (x : Json) (xs : List Json) : itemChars indent level (x :: xs) =
    lineBreak indent level ++ (chars indent level x ++ itemsRest indent level xs) := by
  cases xs <;> simp [itemChars, itemsRest]

/-- What the printer writes for a member behind the opening quote of its name. -/
def memberRest (indent : Option ℕ) (level : ℕ) (m : String × Json) : List Char :=
  m.1.toList.flatMap escapedChar ++ '"' :: (colon indent ++ chars indent level m.2)

/-- What the printer writes behind a member. -/
def membersRest (indent : Option ℕ) (level : ℕ) : List (String × Json) → List Char
  | [] => []
  | m :: ms => ',' :: memberChars indent level (m :: ms)

theorem memberChars_cons (m : String × Json) (ms : List (String × Json)) :
    memberChars indent level (m :: ms) = lineBreak indent level ++
      '"' :: (memberRest indent level m ++ membersRest indent level ms) := by
  cases ms <;> simp [memberChars, membersRest, memberRest, quotedChars]

/-- A tree is read back from its text, with what follows left over. -/
def Reads (d : ℕ) (j : Json) : Prop :=
  ∀ (indent : Option ℕ) (level fuel : ℕ) (rest : Bytes), EndsNumber rest →
    (encode (chars indent level j)).length ≤ fuel →
      value fuel d (encode (chars indent level j) ++ rest) = .ok (j, rest)

theorem encode_cons_ascii {c : Char} {cs : List Char} (h : c.toNat < 0x80) :
    encode (c :: cs) = ascii c :: encode cs := by
  rw [← List.singleton_append, encode_append, encode_ascii h, List.singleton_append]

theorem items_last {x : Json} {after : Bytes} (hv : value fuel d bs = .ok (x, after))
    (ha : skipBlanks after = ascii ']' :: rest) :
    items (fuel + 1) (d + 1) bs = .ok ([x], rest) := by
  simp only [items, hv, ha, ite_true]

theorem items_more {x : Json} {xs : List Json} {b : UInt8} {after next : Bytes}
    (hv : value fuel d bs = .ok (x, after)) (ha : skipBlanks after = ascii ',' :: next)
    (hn : skipBlanks next = b :: rest) (hb : b ≠ ascii ']') {final : Bytes}
    (hs : items fuel (d + 1) (b :: rest) = .ok (xs, final)) :
    items (fuel + 1) (d + 1) bs = .ok (x :: xs, final) := by
  have hc : ascii ',' ≠ ascii ']' := by decide
  simp only [items, hv, ha, hc, hn, hb, hs, ite_true, ite_false]

theorem encode_itemsRest_cons (x : Json) (xs : List Json) :
    encode (itemsRest indent level (x :: xs)) = ascii ',' :: (encode (lineBreak indent level) ++
      encode (chars indent level x ++ itemsRest indent level xs)) := by
  rw [itemsRest, encode_cons_ascii (by decide), itemChars_cons, encode_append]

theorem endsNumber_itemsRest {close : Bytes} (hc : EndsNumber close) (xs : List Json) :
    EndsNumber (encode (itemsRest indent level xs) ++ close) := by
  cases xs with
  | nil => exact hc
  | cons x xs =>
    rw [encode_itemsRest_cons]
    exact endsNumber_cons rfl rfl

theorem items_chars {close : Bytes} (hc : EndsNumber close)
    (hs : skipBlanks close = ascii ']' :: rest) {x : Json} {xs : List Json}
    (hx : ∀ y ∈ x :: xs, Readable d y ∧ Reads d y)
    (hf : (encode (chars indent level x ++ itemsRest indent level xs)).length < fuel) :
    items fuel (d + 1) (encode (chars indent level x ++ itemsRest indent level xs) ++ close) =
      .ok (x :: xs, rest) := by
  induction xs generalizing x fuel with
  | nil =>
    obtain ⟨fuel, rfl⟩ := Nat.exists_eq_add_one_of_ne_zero (Nat.ne_zero_of_lt hf)
    rw [itemsRest, List.append_nil] at hf ⊢
    have hv := (hx x List.mem_cons_self).2 indent level fuel close hc (Nat.le_of_lt_succ hf)
    exact items_last hv hs
  | cons y ys ih =>
    obtain ⟨fuel, rfl⟩ := Nat.exists_eq_add_one_of_ne_zero (Nat.ne_zero_of_lt hf)
    have hlen : (encode (chars indent level x)).length +
        (encode (chars indent level y ++ itemsRest indent level ys)).length + 1 < fuel + 1 := by
      rw [encode_append, encode_itemsRest_cons] at hf
      simp only [List.length_append, List.length_cons] at hf ⊢
      omega
    have hy : ∀ z ∈ y :: ys, Readable d z ∧ Reads d z := fun z hz =>
      hx z (List.mem_cons_of_mem x hz)
    have hi := ih hy (by omega : _ < fuel)
    obtain ⟨b, l, hb, ho⟩ := @chars_eq_cons d level indent y (hy y List.mem_cons_self).1
    have hv := (hx x List.mem_cons_self).2 indent level fuel _
      (@endsNumber_itemsRest level indent close hc (y :: ys)) (by omega)
    rw [encode_append, List.append_assoc]
    rw [encode_itemsRest_cons, List.cons_append, List.append_assoc] at hv ⊢
    rw [encode_append, hb, List.cons_append, List.cons_append] at hi hv ⊢
    refine items_more hv (skipBlanks_cons rfl) ?_ ho.2 hi
    rw [skipBlanks_lineBreak]
    exact skipBlanks_cons ho.1

theorem skipBlanks_colon : ∃ next, skipBlanks (encode (colon indent) ++ bs) = ascii ':' :: next ∧
    skipBlanks next = skipBlanks bs := by
  cases indent <;> exact ⟨_, rfl, rfl⟩

theorem memberName_value {name : String} {b : UInt8} {after next : Bytes}
    (hs : string bs = .ok (name, after)) (ha : skipBlanks after = ascii ':' :: next)
    (hn : skipBlanks next = b :: rest) : memberName bs = .ok (name, b :: rest) := by
  simp only [memberName, hs, ha, hn, ite_true]

theorem memberName_chars {m : String × Json} (h : Readable d m.2) :
    memberName (encode (memberRest indent level m) ++ rest) =
      .ok (m.1, encode (chars indent level m.2) ++ rest) := by
  obtain ⟨b, l, hb, ho⟩ := @chars_eq_cons d level indent m.2 h
  obtain ⟨next, ha, hn⟩ := @skipBlanks_colon indent (encode (chars indent level m.2) ++ rest)
  rw [memberRest, encode_append, encode_cons_ascii (by decide), encode_append, List.append_assoc,
    List.cons_append, List.append_assoc]
  rw [hb, List.cons_append] at ha hn ⊢
  exact memberName_value (string_escaped m.1) ha (hn.trans (skipBlanks_cons ho.1))

theorem members_last {name : String} {v : Json} {start after : Bytes}
    (hn : memberName bs = .ok (name, start)) (hv : value fuel d start = .ok (v, after))
    (ha : skipBlanks after = ascii '}' :: rest) :
    members (fuel + 1) (d + 1) bs = .ok ([(name, v)], rest) := by
  simp only [members, hn, hv, ha, ite_true]

theorem members_more {name : String} {v : Json} {ms : List (String × Json)}
    {start after next final : Bytes} (hn : memberName bs = .ok (name, start))
    (hv : value fuel d start = .ok (v, after)) (ha : skipBlanks after = ascii ',' :: next)
    (hq : skipBlanks next = ascii '"' :: rest)
    (hs : members fuel (d + 1) rest = .ok (ms, final)) :
    members (fuel + 1) (d + 1) bs = .ok ((name, v) :: ms, final) := by
  have hc : ascii ',' ≠ ascii '}' := by decide
  simp only [members, hn, hv, ha, hc, hq, hs, ite_true, ite_false]

theorem encode_membersRest_cons (m : String × Json) (ms : List (String × Json)) :
    encode (membersRest indent level (m :: ms)) = ascii ',' :: (encode (lineBreak indent level) ++
      ascii '"' :: encode (memberRest indent level m ++ membersRest indent level ms)) := by
  rw [membersRest, encode_cons_ascii (by decide), memberChars_cons, encode_append,
    encode_cons_ascii (by decide)]

theorem endsNumber_membersRest {close : Bytes} (hc : EndsNumber close)
    (ms : List (String × Json)) : EndsNumber (encode (membersRest indent level ms) ++ close) := by
  cases ms with
  | nil => exact hc
  | cons m ms =>
    rw [encode_membersRest_cons]
    exact endsNumber_cons rfl rfl

theorem length_memberRest (m : String × Json) : (encode (memberRest indent level m)).length =
    (encode (m.1.toList.flatMap escapedChar)).length + (encode (colon indent)).length +
      (encode (chars indent level m.2)).length + 1 := by
  rw [memberRest, encode_append, encode_cons_ascii (by decide), encode_append]
  simp only [List.length_append, List.length_cons]
  omega

theorem members_chars {close : Bytes} (hc : EndsNumber close)
    (hs : skipBlanks close = ascii '}' :: rest) {m : String × Json} {ms : List (String × Json)}
    (hm : ∀ x ∈ m :: ms, Readable d x.2 ∧ Reads d x.2)
    (hf : (encode (memberRest indent level m ++ membersRest indent level ms)).length < fuel) :
    members fuel (d + 1)
        (encode (memberRest indent level m ++ membersRest indent level ms) ++ close) =
      .ok (m :: ms, rest) := by
  induction ms generalizing m fuel with
  | nil =>
    obtain ⟨fuel, rfl⟩ := Nat.exists_eq_add_one_of_ne_zero (Nat.ne_zero_of_lt hf)
    obtain ⟨hr, hd⟩ := hm m List.mem_cons_self
    rw [membersRest, List.append_nil] at hf ⊢
    rw [length_memberRest] at hf
    have hv := hd indent level fuel close hc (by omega)
    exact members_last (memberName_chars hr) hv hs
  | cons n ns ih =>
    obtain ⟨fuel, rfl⟩ := Nat.exists_eq_add_one_of_ne_zero (Nat.ne_zero_of_lt hf)
    obtain ⟨hr, hd⟩ := hm m List.mem_cons_self
    have hlen : (encode (memberRest indent level m)).length +
        (encode (memberRest indent level n ++ membersRest indent level ns)).length + 2 <
          fuel + 1 := by
      rw [encode_append, encode_membersRest_cons] at hf
      simp only [List.length_append, List.length_cons] at hf ⊢
      omega
    have hi := ih (fun x hx => hm x (List.mem_cons_of_mem m hx)) (by omega : _ < fuel)
    rw [length_memberRest] at hlen
    have hv := hd indent level fuel _
      (@endsNumber_membersRest level indent close hc (n :: ns)) (by omega)
    rw [encode_append, List.append_assoc]
    rw [encode_membersRest_cons, List.cons_append, List.append_assoc, List.cons_append] at hv ⊢
    refine members_more (memberName_chars hr) hv (skipBlanks_cons rfl) ?_ hi
    rw [skipBlanks_lineBreak]
    exact skipBlanks_cons rfl

/-! ## Values -/

theorem value_number {b : UInt8} (h : b = ascii '-' ∨ isDigit b = true) :
    value (fuel + 1) d (b :: bs) = number (b :: bs) := by
  have hn : ∀ c : Char, (ascii c).toNat ≠ 0x2D → ((ascii c).toNat < 0x30 ∨ 0x39 < (ascii c).toNat) →
      b ≠ ascii c := by
    rintro c hm hc rfl
    rcases h with h | h
    · exact hm (congrArg UInt8.toNat h)
    · have hd := digit_bounds h
      omega
  simp only [value, hn '{' (by decide) (by decide), hn '[' (by decide) (by decide),
    hn '"' (by decide) (by decide), hn 't' (by decide) (by decide), hn 'f' (by decide) (by decide),
    hn 'n' (by decide) (by decide), hn 'N' (by decide) (by decide), hn 'I' (by decide) (by decide),
    h, ite_true, ite_false]

theorem value_array {b : UInt8} {xs : List Json} {start : Bytes}
    (hb : skipBlanks bs = b :: start) (hc : b ≠ ascii ']')
    (hi : items fuel d (b :: start) = .ok (xs, rest)) :
    value (fuel + 1) d (ascii '[' :: bs) = .ok (.array xs, rest) := by
  have h : ascii '[' ≠ ascii '{' := by decide
  simp only [value, h, hb, hc, hi, ite_true, ite_false]

theorem value_object {ms : List (String × Json)} {start : Bytes}
    (hb : skipBlanks bs = ascii '"' :: start) (hm : members fuel d start = .ok (ms, rest)) :
    value (fuel + 1) d (ascii '{' :: bs) = .ok (.object ms, rest) := by
  have h : ascii '"' ≠ ascii '}' := by decide
  simp only [value, h, hb, hm, ite_true, ite_false]

theorem encode_array (x : Json) (xs : List Json) :
    encode (chars indent level (.array (x :: xs))) ++ rest =
      ascii '[' :: (encode (lineBreak indent (level + 1)) ++
        (encode (chars indent (level + 1) x ++ itemsRest indent (level + 1) xs) ++
          (encode (lineBreak indent level) ++ ascii ']' :: rest))) := by
  rw [chars, itemChars_cons]
  simp only [encode_append, encode_cons_ascii (show '['.toNat < 0x80 by decide),
    encode_ascii (show ']'.toNat < 0x80 by decide), List.cons_append, List.append_assoc,
    List.nil_append]

theorem encode_object (m : String × Json) (ms : List (String × Json)) :
    encode (chars indent level (.object (m :: ms))) ++ rest =
      ascii '{' :: (encode (lineBreak indent (level + 1)) ++ ascii '"' ::
        (encode (memberRest indent (level + 1) m ++ membersRest indent (level + 1) ms) ++
          (encode (lineBreak indent level) ++ ascii '}' :: rest))) := by
  rw [chars, memberChars_cons]
  simp only [encode_append, encode_cons_ascii (show '{'.toNat < 0x80 by decide),
    encode_cons_ascii (show '"'.toNat < 0x80 by decide),
    encode_ascii (show '}'.toNat < 0x80 by decide), List.cons_append, List.append_assoc,
    List.nil_append]

theorem reads_array {xs : List Json} (h : ∀ x ∈ xs, Readable d x ∧ Reads d x) :
    Reads (d + 1) (.array xs) := by
  intro indent level fuel rest hr hf
  cases xs with
  | nil =>
    obtain ⟨fuel, rfl⟩ := Nat.exists_eq_add_one_of_ne_zero (Nat.ne_zero_of_lt hf)
    rfl
  | cons x xs =>
    obtain ⟨b, l, hb, ho⟩ := @chars_eq_cons d (level + 1) indent x (h x List.mem_cons_self).1
    have hc : EndsNumber (encode (lineBreak indent level) ++ ascii ']' :: rest) :=
      endsNumber_lineBreak (endsNumber_cons rfl rfl)
    have hs : skipBlanks (encode (lineBreak indent level) ++ ascii ']' :: rest) =
        ascii ']' :: rest := skipBlanks_lineBreak.trans (skipBlanks_cons rfl)
    rw [← List.append_nil (encode _), encode_array] at hf
    rw [encode_array]
    obtain ⟨fuel, rfl⟩ := Nat.exists_eq_add_one_of_ne_zero (Nat.ne_zero_of_lt hf)
    have hi := @items_chars d fuel (level + 1) indent rest _ hc hs x xs h (by
      simp only [List.length_cons, List.length_append] at hf
      omega)
    rw [encode_append, hb, List.cons_append, List.cons_append] at hi ⊢
    exact value_array (skipBlanks_lineBreak.trans (skipBlanks_cons ho.1)) ho.2 hi

theorem reads_object {ms : List (String × Json)} (h : ∀ m ∈ ms, Readable d m.2 ∧ Reads d m.2) :
    Reads (d + 1) (.object ms) := by
  intro indent level fuel rest hr hf
  cases ms with
  | nil =>
    obtain ⟨fuel, rfl⟩ := Nat.exists_eq_add_one_of_ne_zero (Nat.ne_zero_of_lt hf)
    rfl
  | cons m ms =>
    have hc : EndsNumber (encode (lineBreak indent level) ++ ascii '}' :: rest) :=
      endsNumber_lineBreak (endsNumber_cons rfl rfl)
    have hs : skipBlanks (encode (lineBreak indent level) ++ ascii '}' :: rest) =
        ascii '}' :: rest := skipBlanks_lineBreak.trans (skipBlanks_cons rfl)
    rw [← List.append_nil (encode _), encode_object] at hf
    rw [encode_object]
    obtain ⟨fuel, rfl⟩ := Nat.exists_eq_add_one_of_ne_zero (Nat.ne_zero_of_lt hf)
    have hm := @members_chars d fuel (level + 1) indent rest _ hc hs m ms h (by
      simp only [List.length_cons, List.length_append] at hf
      omega)
    exact value_object (skipBlanks_lineBreak.trans (skipBlanks_cons rfl)) hm

theorem reads_atom {j : Json} (h : ∀ (indent : Option ℕ) (level fuel : ℕ) (rest : Bytes),
    EndsNumber rest → value (fuel + 1) d (encode (chars indent level j) ++ rest) = .ok (j, rest))
    (hr : Readable d j) : Reads d j := by
  intro indent level fuel rest he hf
  obtain ⟨b, l, hb, -⟩ := @chars_eq_cons d level indent j hr
  rw [hb] at hf
  obtain ⟨fuel, rfl⟩ := Nat.exists_eq_add_one_of_ne_zero (Nat.ne_zero_of_lt hf)
  exact h indent level fuel rest he

theorem reads_of_readable {j : Json} (h : Readable d j) : Reads d j := by
  induction h with
  | null => exact reads_atom (fun _ _ _ _ _ => rfl) .null
  | @bool _ b => cases b <;> exact reads_atom (fun _ _ _ _ _ => rfl) .bool
  | @int d n hn =>
    refine reads_atom (fun indent level fuel rest he => ?_) (.int hn)
    obtain ⟨b, l, hb, hd⟩ := ofInt_eq_cons n
    have h := number_ofInt hn he
    rw [chars]
    rw [hb, List.cons_append] at h ⊢
    exact (value_number hd).trans h
  | @str d s =>
    refine reads_atom (fun indent level fuel rest he => ?_) .str
    have h := @string_escaped rest s
    rw [chars, quotedChars, encode_cons_ascii (by decide), encode_append, encode_ascii (by decide),
      List.cons_append, List.append_assoc, List.singleton_append]
    simp only [value, h]
    rfl
  | array h ih => exact reads_array fun x hx => ⟨h x hx, ih x hx⟩
  | object h ih => exact reads_object fun m hm => ⟨h m hm, ih m hm⟩

/-- What was printed is read with whatever follows it, unless that could continue a number. -/
theorem value_print {j : Json} (h : Readable d j) (hr : EndsNumber rest)
    (hf : (encode (j.print indent).toList).length ≤ fuel) :
    value fuel d (encode (j.print indent).toList ++ rest) = .ok (j, rest) := by
  rw [print, String.toList_ofList] at hf ⊢
  exact reads_of_readable h indent 0 fuel rest hr hf

theorem endsNumber_blanks (h : ∀ b ∈ rest, isBlank b = true) : EndsNumber rest := by
  cases rest with
  | nil => exact endsNumber_nil
  | cons b bs =>
    have hb := h b List.mem_cons_self
    have hc : b = 0x20 ∨ b = 0x09 ∨ b = 0x0A ∨ b = 0x0D := by simpa [isBlank, or_assoc] using hb
    rcases hc with rfl | rfl | rfl | rfl <;> exact endsNumber_cons rfl rfl

/-- Reading is inverse to printing, on one line and with every indent, and blanks
behind do not count. -/
theorem read_print_blanks {j : Json} (h : Readable maxDepth j) (indent : Option ℕ)
    (hb : ∀ b ∈ rest, isBlank b = true) :
    read (encode (j.print indent).toList ++ rest) = .ok j := by
  have hf : (encode (j.print indent).toList).length ≤
      (encode (j.print indent).toList ++ rest).length + maxDepth + 2 := by
    rw [List.length_append]
    omega
  have hv := value_print h (endsNumber_blanks hb) hf
  have hs : skipBlanks rest = [] := by
    rw [skipBlanks, List.dropWhile_eq_nil_iff]
    exact hb
  obtain ⟨b, l, hl, ho⟩ := @chars_eq_cons maxDepth 0 indent j h
  rw [print, String.toList_ofList, hl, List.cons_append] at hv ⊢
  simp only [read, skipBlanks_cons ho.1, hv, hs]

theorem read_print {j : Json} (h : Readable maxDepth j) (indent : Option ℕ) :
    read (encode (j.print indent).toList) = .ok j := by
  rw [← List.append_nil (encode _)]
  exact read_print_blanks h indent (List.forall_mem_nil _)

end AgentControl.Json
