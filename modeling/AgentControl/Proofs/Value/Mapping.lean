import Mathlib.Data.Int.Notation
import Mathlib.Data.List.Basic
import AgentControl.Value.Basic

/-! # Mappings by their text keys

What stands under a text key is a matter of which entries a mapping holds and not of their order,
once no text key occurs twice. Plain data is what JSON and callers write down: null, Booleans,
numbers, texts, and lists and mappings of these.
-/

namespace AgentControl

section

variable {α : Type} {k l : String} {a : α} {xs : List (String × α)}

theorem lookup_cons_ite : ((k, a) :: xs).lookup l = if l = k then some a else xs.lookup l := by
  rw [List.lookup_cons]
  by_cases h : l = k
  · rw [beq_iff_eq.mpr h, if_pos h]
  · rw [beq_eq_false_iff_ne.mpr h, if_neg h]

theorem lookup_reverse_cons :
    ((k, a) :: xs).reverse.lookup l = (xs.reverse.lookup l).or
      (if l = k then some a else none) := by
  rw [List.reverse_cons, List.lookup_append]
  congr 1
  rw [lookup_cons_ite, List.lookup_nil]

end

namespace Value

variable {entries : Entries} {k l : String} {v w : Value}

def textKeys (entries : Entries) : List String :=
  entries.filterMap fun e => match e.1 with
    | .str k => some k
    | _ => none

@[simp] theorem textKeys_nil : textKeys [] = [] := rfl

@[simp] theorem textKeys_cons_str : textKeys ((.str k, v) :: entries) = k :: textKeys entries := rfl

theorem textKeys_cons_of_ne {key : Value} (h : ∀ k, key ≠ .str k) :
    textKeys ((key, v) :: entries) = textKeys entries := by
  cases key <;> first | rfl | exact absurd rfl (h _)

theorem mem_textKeys : k ∈ textKeys entries ↔ ∃ v, (.str k, v) ∈ entries := by
  unfold textKeys
  rw [List.mem_filterMap]
  constructor
  · rintro ⟨⟨key, v⟩, hm, h⟩
    cases key <;> simp only [reduceCtorEq, Option.some.injEq] at h
    exact ⟨v, h ▸ hm⟩
  · rintro ⟨v, hm⟩
    exact ⟨_, hm, rfl⟩

/-- No text key occurs twice. -/
def DistinctKeys (entries : Entries) : Prop := (textKeys entries).Nodup

instance : Decidable (DistinctKeys entries) := inferInstanceAs (Decidable (textKeys entries).Nodup)

theorem lookup_cons_of_ne {key : Value} (h : ∀ k, key ≠ .str k) :
    lookup k ((key, v) :: entries) = lookup k entries := by
  cases key <;> first | rfl | exact absurd rfl (h _)

theorem mem_of_lookup (h : lookup k entries = some v) : (.str k, v) ∈ entries := by
  fun_induction lookup k entries with
  | case1 => cases h
  | case2 => exact Option.some.inj h ▸ List.mem_cons_self
  | case3 _ _ _ _ ih => exact List.mem_cons_of_mem _ (ih h)
  | case4 _ _ _ ih => exact List.mem_cons_of_mem _ (ih h)

theorem lookup_eq_none_iff : lookup k entries = none ↔ ∀ v, (.str k, v) ∉ entries := by
  constructor
  · intro h v hm
    fun_induction lookup k entries with
    | case1 => cases hm
    | case2 => cases h
    | case3 _ _ _ hne ih =>
      rcases List.mem_cons.mp hm with he | hm
      · exact hne (Value.str.inj (Prod.mk.inj he).1).symm
      · exact ih h hm
    | case4 _ _ hne ih =>
      rcases List.mem_cons.mp hm with rfl | hm
      · exact hne _ _ rfl
      · exact ih h hm
  · intro h
    cases hl : lookup k entries with
    | none => rfl
    | some v => exact absurd (mem_of_lookup hl) (h v)

theorem eq_of_mem_of_distinctKeys (h : DistinctKeys entries) (hv : (.str k, v) ∈ entries)
    (hw : (.str k, w) ∈ entries) : v = w := by
  induction entries with
  | nil => cases hv
  | cons e entries ih =>
    obtain ⟨key, x⟩ := e
    by_cases hk : ∃ l, key = .str l
    · obtain ⟨l, rfl⟩ := hk
      obtain ⟨hl, hd⟩ := List.nodup_cons.mp (show (l :: textKeys entries).Nodup from h)
      rcases List.mem_cons.mp hv with hv | hv <;> rcases List.mem_cons.mp hw with hw | hw
      · exact ((Prod.mk.inj hv).2).trans (Prod.mk.inj hw).2.symm
      · have he := Value.str.inj (Prod.mk.inj hv).1
        exact absurd (mem_textKeys.mpr ⟨w, he ▸ hw⟩) hl
      · have he := Value.str.inj (Prod.mk.inj hw).1
        exact absurd (mem_textKeys.mpr ⟨v, he ▸ hv⟩) hl
      · exact ih hd hv hw
    · have hn : ∀ l, key ≠ .str l := fun l he => hk ⟨l, he⟩
      have hd : DistinctKeys entries := by rwa [DistinctKeys, textKeys_cons_of_ne hn] at h
      rcases List.mem_cons.mp hv with hv | hv
      · exact absurd (Prod.mk.inj hv).1.symm (hn k)
      rcases List.mem_cons.mp hw with hw | hw
      · exact absurd (Prod.mk.inj hw).1.symm (hn k)
      · exact ih hd hv hw

theorem lookup_eq_some_iff (h : DistinctKeys entries) :
    lookup k entries = some v ↔ (.str k, v) ∈ entries := by
  constructor
  · exact mem_of_lookup
  · intro hm
    cases hl : lookup k entries with
    | none => exact absurd hm (lookup_eq_none_iff.mp hl v)
    | some w => exact congrArg some (eq_of_mem_of_distinctKeys h (mem_of_lookup hl) hm)

theorem DistinctKeys.perm {fs : Entries} (h : DistinctKeys entries) (hp : entries.Perm fs) :
    DistinctKeys fs :=
  (hp.filterMap _).nodup_iff.mp h

/-! ## Writing under a key -/

/-- All keys are texts. -/
def TextKeyed (entries : Entries) : Prop := ∀ e ∈ entries, ∃ k, e.1 = .str k

theorem lookup_put_self : lookup k (put k v entries) = some v := by
  fun_induction put k v entries with
  | case1 => simp [lookup]
  | case2 => simp [lookup]
  | case3 _ _ _ hne ih => simp [lookup, hne, ih]
  | case4 e rest hne ih =>
    obtain ⟨key, w⟩ := e
    rw [lookup_cons_of_ne fun l hl => hne l w (by rw [hl]), ih]

theorem lookup_put_of_ne (h : k ≠ l) : lookup l (put k v entries) = lookup l entries := by
  fun_induction put k v entries with
  | case1 => simp [lookup, h]
  | case2 => simp [lookup, h]
  | case3 _ _ _ _ ih => simp [lookup, ih]
  | case4 e rest hne ih =>
    obtain ⟨key, w⟩ := e
    have hn : ∀ l, key ≠ .str l := fun l hl => hne l w (by rw [hl])
    rw [lookup_cons_of_ne hn, lookup_cons_of_ne hn, ih]

theorem textKeys_put :
    textKeys (put k v entries) =
      if k ∈ textKeys entries then textKeys entries else textKeys entries ++ [k] := by
  fun_induction put k v entries with
  | case1 => rfl
  | case2 => simp
  | case3 l w rest hne ih =>
    simp only [textKeys_cons_str, ih, List.mem_cons, Ne.symm hne, false_or]
    split <;> rfl
  | case4 e rest hne ih =>
    obtain ⟨key, w⟩ := e
    have hn : ∀ l, key ≠ .str l := fun l hl => hne l w (by rw [hl])
    rw [textKeys_cons_of_ne hn, textKeys_cons_of_ne hn, ih]

theorem distinctKeys_put (h : DistinctKeys entries) : DistinctKeys (put k v entries) := by
  unfold DistinctKeys
  rw [textKeys_put]
  split
  · exact h
  · next hk =>
    refine List.nodup_append.mpr ⟨h, by simp, fun l hl m hm he => ?_⟩
    obtain rfl := List.mem_singleton.mp hm
    exact hk (he ▸ hl)

theorem textKeyed_put (h : TextKeyed entries) : TextKeyed (put k v entries) := by
  fun_induction put k v entries with
  | case1 => exact List.forall_mem_singleton.mpr ⟨k, rfl⟩
  | case2 =>
    obtain ⟨_, hr⟩ := List.forall_mem_cons.mp h
    exact List.forall_mem_cons.mpr ⟨⟨_, rfl⟩, hr⟩
  | case3 _ _ _ _ ih =>
    obtain ⟨_, hr⟩ := List.forall_mem_cons.mp h
    exact List.forall_mem_cons.mpr ⟨⟨_, rfl⟩, ih hr⟩
  | case4 _ _ _ ih =>
    obtain ⟨he, hr⟩ := List.forall_mem_cons.mp h
    exact List.forall_mem_cons.mpr ⟨he, ih hr⟩

/-! ## Plain data -/

/-- Data of nulls, Booleans, numbers, texts, lists, and mappings without a text key twice. -/
inductive Plain : Value → Prop where
  | null : Plain .null
  | bool {b : Bool} : Plain (.bool b)
  | int {n : ℤ} : Plain (.int n)
  | float {x : Float} : Plain (.float x)
  | str {s : String} : Plain (.str s)
  | list {xs : List Value} : (∀ x ∈ xs, Plain x) → Plain (.list xs)
  | dict {entries : Entries} : DistinctKeys entries → (∀ e ∈ entries, Plain e.1) →
      (∀ e ∈ entries, Plain e.2) → Plain (.dict entries)

theorem Plain.distinctKeys (h : Plain (.dict entries)) : DistinctKeys entries := by
  cases h with
  | dict hd _ _ => exact hd

theorem Plain.perm {es : Entries} (h : Plain (.dict entries)) (hp : entries.Perm es) :
    Plain (.dict es) := by
  cases h with
  | dict hd hk hv =>
    exact .dict (hd.perm hp) (fun e he => hk e (hp.mem_iff.mpr he))
      fun e he => hv e (hp.mem_iff.mpr he)

/-- A mapping without a text key twice, or no mapping. -/
def WellKeyed (v : Value) : Prop := ∀ entries, v = .dict entries → DistinctKeys entries

theorem Plain.wellKeyed (h : Plain v) : v.WellKeyed := by
  rintro entries rfl
  exact h.distinctKeys

theorem Plain.of_mem {key : Value} (h : Plain (.dict entries)) (hm : (key, v) ∈ entries) :
    Plain v := by
  cases h with
  | dict _ _ hv => exact hv _ hm

mutual

def isPlain : Value → Bool
  | .null | .bool _ | .int _ | .float _ | .str _ => true
  | .list xs => allPlain xs
  | .dict entries => decide (DistinctKeys entries) && entriesPlain entries
  | _ => false

def allPlain : List Value → Bool
  | [] => true
  | x :: xs => isPlain x && allPlain xs

def entriesPlain : Entries → Bool
  | [] => true
  | (k, v) :: entries => isPlain k && isPlain v && entriesPlain entries

end

mutual

theorem plain_of_isPlain : ∀ {v : Value}, v.isPlain = true → v.Plain
  | .null, _ => .null
  | .bool _, _ => .bool
  | .int _, _ => .int
  | .float _, _ => .float
  | .str _, _ => .str
  | .list _, h => .list (plain_of_allPlain h)
  | .dict _, h => by
    obtain ⟨hd, he⟩ := Bool.and_eq_true_iff.mp h
    have hp := plain_of_entriesPlain he
    exact .dict (of_decide_eq_true hd) (fun e h => (hp e h).1) fun e h => (hp e h).2
  | .bytes _, h | .tuple _, h | .set _, h | .date _, h | .dateTime _, h | .level _, h | .pool _, h
  | .configuration _, h | .theme _, h | .backReference _, h => nomatch h

theorem plain_of_allPlain : ∀ {xs : List Value}, allPlain xs = true → ∀ x ∈ xs, x.Plain
  | [], _ => by simp
  | x :: xs, h => by
    obtain ⟨hx, hxs⟩ := Bool.and_eq_true_iff.mp h
    exact List.forall_mem_cons.mpr ⟨plain_of_isPlain hx, plain_of_allPlain hxs⟩

theorem plain_of_entriesPlain : ∀ {entries : Entries}, entriesPlain entries = true →
    ∀ e ∈ entries, e.1.Plain ∧ e.2.Plain
  | [], _ => by simp
  | (k, v) :: entries, h => by
    obtain ⟨hkv, hes⟩ := Bool.and_eq_true_iff.mp h
    obtain ⟨hk, hv⟩ := Bool.and_eq_true_iff.mp hkv
    exact List.forall_mem_cons.mpr
      ⟨⟨plain_of_isPlain hk, plain_of_isPlain hv⟩, plain_of_entriesPlain hes⟩

end

theorem allPlain_of_forall {xs : List Value} (h : ∀ x ∈ xs, x.isPlain = true) :
    allPlain xs = true := by
  induction xs with
  | nil => rfl
  | cons x xs ih =>
    obtain ⟨hx, hxs⟩ := List.forall_mem_cons.mp h
    exact Bool.and_eq_true_iff.mpr ⟨hx, ih hxs⟩

theorem entriesPlain_of_forall (hk : ∀ e ∈ entries, e.1.isPlain = true)
    (hv : ∀ e ∈ entries, e.2.isPlain = true) : entriesPlain entries = true := by
  induction entries with
  | nil => rfl
  | cons e entries ih =>
    obtain ⟨hk₁, hk₂⟩ := List.forall_mem_cons.mp hk
    obtain ⟨hv₁, hv₂⟩ := List.forall_mem_cons.mp hv
    exact Bool.and_eq_true_iff.mpr ⟨Bool.and_eq_true_iff.mpr ⟨hk₁, hv₁⟩, ih hk₂ hv₂⟩

theorem isPlain_of_plain (h : Plain v) : v.isPlain = true := by
  induction h with
  | null | bool | int | float | str => rfl
  | list _ ih => exact allPlain_of_forall ih
  | dict hd _ _ ihk ihv =>
    exact Bool.and_eq_true_iff.mpr ⟨decide_eq_true hd, entriesPlain_of_forall ihk ihv⟩

theorem isPlain_iff : v.isPlain = true ↔ v.Plain := ⟨plain_of_isPlain, isPlain_of_plain⟩

instance : Decidable v.Plain := decidable_of_iff _ isPlain_iff

end Value

end AgentControl
