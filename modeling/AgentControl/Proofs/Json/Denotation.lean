import AgentControl.Json.Basic
import AgentControl.Proofs.Value.Mapping

/-! # What a JSON document denotes

An object denotes a mapping with its names for keys, in any order, and under each what the last
member of the name denotes. Reading a document as a value gives one of the values that it denotes.
-/

namespace AgentControl

open Value (Entries DistinctKeys Plain)

namespace Json

variable {j : Json} {js : List Json} {ms : List (String × Json)} {entries : Entries} {k : String}
  {v : Value}

@[elab_as_elim]
theorem induct {P : Json → Prop} (null : P .null) (bool : ∀ b, P (.bool b)) (int : ∀ n, P (.int n))
    (float : ∀ x, P (.float x)) (str : ∀ s, P (.str s))
    (array : ∀ js, (∀ j ∈ js, P j) → P (.array js))
    (object : ∀ ms, (∀ m ∈ ms, P m.2) → P (.object ms)) : ∀ j, P j
  | .null => null
  | .bool b => bool b
  | .int n => int n
  | .float x => float x
  | .str s => str s
  | .array js => array js fun j hj => by
      have := List.sizeOf_lt_of_mem hj
      exact induct null bool int float str array object j
  | .object ms => object ms fun m hm => by
      have h₁ := List.sizeOf_lt_of_mem hm
      have h₂ : sizeOf m = 1 + sizeOf m.1 + sizeOf m.2 := rfl
      exact induct null bool int float str array object m.2
termination_by j => sizeOf j
decreasing_by
  · simp only [Json.array.sizeOf_spec]
    omega
  · simp only [Json.object.sizeOf_spec]
    omega

theorem toValues_eq_map : toValues js = js.map toValue := by
  induction js with
  | nil => rfl
  | cons j js ih => rw [toValues, ih, List.map_cons]

/-- The last member of a name. -/
def lastMember (k : String) (ms : List (String × Json)) : Option Json := ms.reverse.lookup k

theorem lastMember_cons {l : String} : lastMember l ((k, j) :: ms) =
    (lastMember l ms).or (if l = k then some j else none) := by
  exact lookup_reverse_cons

theorem mem_of_lastMember (h : lastMember k ms = some j) : (k, j) ∈ ms := by
  induction ms with
  | nil => cases h
  | cons m ms ih =>
    obtain ⟨l, i⟩ := m
    rw [lastMember_cons] at h
    cases hl : lastMember k ms with
    | some i' =>
      rw [hl] at h
      exact List.mem_cons_of_mem _ (ih (hl.trans h))
    | none =>
      rw [hl] at h
      by_cases hk : k = l
      · simp only [hk, if_true, Option.none_or, Option.some.injEq] at h
        rw [hk, h]
        exact List.mem_cons_self
      · simp [hk] at h

theorem lookup_addMembers : Value.lookup k (addMembers entries ms) =
    ((lastMember k ms).map toValue).or (Value.lookup k entries) := by
  induction ms generalizing entries with
  | nil => rfl
  | cons m ms ih =>
    obtain ⟨l, j⟩ := m
    rw [addMembers, ih, lastMember_cons]
    cases lastMember k ms with
    | some i => rfl
    | none =>
      by_cases h : k = l
      · subst h
        simp [Value.lookup_put_self]
      · simp [Value.lookup_put_of_ne (Ne.symm h), h]

theorem distinctKeys_addMembers (h : DistinctKeys entries) :
    DistinctKeys (addMembers entries ms) := by
  induction ms generalizing entries with
  | nil => exact h
  | cons m ms ih => exact ih (Value.distinctKeys_put h)

theorem textKeyed_addMembers (h : Value.TextKeyed entries) :
    Value.TextKeyed (addMembers entries ms) := by
  induction ms generalizing entries with
  | nil => exact h
  | cons m ms ih => exact ih (Value.textKeyed_put h)

/-- The values that a document stands for. -/
inductive Denotes : Json → Value → Prop where
  | null : Denotes .null .null
  | bool {b : Bool} : Denotes (.bool b) (.bool b)
  | int {n : Int} : Denotes (.int n) (.int n)
  | float {x : Float} : Denotes (.float x) (.float x)
  | str {s : String} : Denotes (.str s) (.str s)
  | array {js : List Json} {xs : List Value} : js.length = xs.length →
      (∀ (i : Nat) j x, js[i]? = some j → xs[i]? = some x → Denotes j x) →
      Denotes (.array js) (.list xs)
  | object {ms : List (String × Json)} {entries : Entries} : DistinctKeys entries →
      (∀ e ∈ entries, ∃ k j, e.1 = .str k ∧ lastMember k ms = some j) →
      (∀ k j, lastMember k ms = some j → ∃ v, (.str k, v) ∈ entries) →
      (∀ k j v, lastMember k ms = some j → (.str k, v) ∈ entries → Denotes j v) →
      Denotes (.object ms) (.dict entries)

theorem denotes_toValue : Denotes j j.toValue := by
  induction j using induct with
  | null => exact .null
  | bool b => exact .bool
  | int n => exact .int
  | float x => exact .float
  | str s => exact .str
  | array js ih =>
    rw [toValue, toValues_eq_map]
    refine .array (by simp) fun i j x hj hx => ?_
    rw [List.getElem?_map, hj] at hx
    obtain rfl := Option.some.inj hx
    exact ih j (List.mem_of_getElem? hj)
  | object ms ih =>
    have hd : DistinctKeys (addMembers [] ms) := distinctKeys_addMembers List.nodup_nil
    have hl (k : String) : Value.lookup k (addMembers [] ms) = (lastMember k ms).map toValue := by
      rw [lookup_addMembers, Value.lookup, Option.or_none]
    refine .object hd (fun e he => ?_) (fun k j hj => ?_) fun k j v hj hv => ?_
    · obtain ⟨k, hk⟩ := @textKeyed_addMembers ms [] (List.forall_mem_nil _) e he
      have hm : (.str k, e.2) ∈ addMembers [] ms := hk ▸ he
      have hv := (Value.lookup_eq_some_iff hd).mpr hm
      rw [hl, Option.map_eq_some_iff] at hv
      obtain ⟨j, hj, -⟩ := hv
      exact ⟨k, j, hk, hj⟩
    · exact ⟨j.toValue, Value.mem_of_lookup (by rw [hl, hj]; rfl)⟩
    · have hv := (Value.lookup_eq_some_iff hd).mpr hv
      rw [hl, hj] at hv
      obtain rfl := Option.some.inj hv
      exact ih _ (mem_of_lastMember hj)

theorem Denotes.plain (h : Denotes j v) : v.Plain := by
  induction h with
  | null => exact .null
  | bool => exact .bool
  | int => exact .int
  | float => exact .float
  | str => exact .str
  | array hl _ ih =>
    refine .list fun x hx => ?_
    obtain ⟨i, hi, rfl⟩ := List.mem_iff_getElem.mp hx
    exact ih i _ _ (List.getElem?_eq_getElem (hl ▸ hi)) (List.getElem?_eq_getElem hi)
  | object hd hk _ _ ih =>
    refine .dict hd (fun e he => ?_) fun e he => ?_
    · obtain ⟨k, _, hk, -⟩ := hk e he
      exact hk ▸ .str
    · obtain ⟨k, j, hk, hj⟩ := hk e he
      exact ih k j e.2 hj (hk ▸ he)

/-- The order of the keys does not matter. -/
theorem Denotes.perm {fs : Entries} (h : Denotes (.object ms) (.dict entries))
    (hp : entries.Perm fs) : Denotes (.object ms) (.dict fs) := by
  cases h with
  | object hd hk hv h =>
    refine .object (hd.perm hp) (fun e he => hk e (hp.mem_iff.mpr he)) (fun k j hj => ?_) ?_
    · obtain ⟨v, hm⟩ := hv k j hj
      exact ⟨v, hp.mem_iff.mp hm⟩
    · exact fun k j v hj hm => h k j v hj (hp.mem_iff.mpr hm)

theorem Denotes.lookup (h : Denotes (.object ms) (.dict entries)) :
    (lastMember k ms = none ∧ Value.lookup k entries = none) ∨
      ∃ j v, lastMember k ms = some j ∧ Value.lookup k entries = some v ∧ Denotes j v := by
  cases h with
  | object hd hk hv h =>
    cases hl : lastMember k ms with
    | none =>
      refine Or.inl ⟨rfl, Value.lookup_eq_none_iff.mpr fun v hm => ?_⟩
      obtain ⟨l, j, hl', hj⟩ := hk _ hm
      cases hl'
      rw [hl] at hj
      cases hj
    | some j =>
      obtain ⟨v, hm⟩ := hv k j hl
      exact Or.inr ⟨j, v, rfl, (Value.lookup_eq_some_iff hd).mpr hm, h k j v hl hm⟩

end Json

end AgentControl
