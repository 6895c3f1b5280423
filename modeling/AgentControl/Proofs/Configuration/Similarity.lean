import Mathlib.Data.List.Forall2
import AgentControl.Proofs.Configuration.Decoding

/-! # Similar mappings

Mappings are similar when they give every field alike, whatever else they hold and in whatever
order. Similar mappings hold the same configuration, or have the same places to complain of.
-/

namespace AgentControl

open Value (Entries DistinctKeys Plain)

/-- Values that are the same, but for what lists and mappings hold. -/
inductive Value.Kin : Value → Value → Prop where
  | same {v : Value} : Kin v v
  | lists {xs ys : List Value} : Kin (.list xs) (.list ys)
  | dicts {es fs : Entries} : Kin (.dict es) (.dict fs)

open Value (Kin)

namespace FieldName

/-- Two mappings give a field under the same key, if at all, and there related values. -/
inductive Alike (f : FieldName) (R : Value → Value → Prop) (es fs : Entries) : Prop where
  | nothing : f.Takes es none → f.Takes fs none → Alike f R es fs
  | under {k : String} {v w : Value} : f.Takes es (some (k, v)) → f.Takes fs (some (k, w)) →
      R v w → Alike f R es fs

variable {f : FieldName} {R : Value → Value → Prop} {es fs : Entries} {k : String} {v : Value}
  {range : Int → Prop} {why : Refusal} {c : Cause}

theorem Alike.symm (hR : ∀ v w, R v w → R w v) (h : f.Alike R es fs) : f.Alike R fs es := by
  cases h with
  | nothing he hf => exact .nothing hf he
  | under he hf hr => exact .under hf he (hR _ _ hr)

theorem Alike.mono {S : Value → Value → Prop} (h : f.Alike R es fs)
    (hS : ∀ v w, R v w → S v w) : f.Alike S es fs := by
  cases h with
  | nothing he hf => exact .nothing he hf
  | under he hf hr => exact .under he hf (hS _ _ hr)

theorem Alike.of_lookup (hR : ∀ v, R v v) (h₁ : Value.lookup f.wire es = Value.lookup f.wire fs)
    (h₂ : Value.lookup f.own es = Value.lookup f.own fs) : f.Alike R es fs := by
  have he : f.Takes es (f.find? es) := takes_find?
  have hf : f.Takes fs (f.find? es) := by
    have : f.find? es = f.find? fs := by rw [find?, find?, h₁, h₂]
    exact this ▸ takes_find?
  cases hr : f.find? es with
  | none =>
    rw [hr] at he hf
    exact .nothing he hf
  | some e =>
    rw [hr] at he hf
    exact .under he hf (hR _)

theorem Alike.takes_none (h : f.Alike R es fs) (hd : DistinctKeys es) (ht : f.Takes es none) :
    f.Takes fs none := by
  cases h with
  | nothing _ hf => exact hf
  | under he _ _ => cases he.unique hd ht

theorem Alike.takes_some (h : f.Alike R es fs) (hd : DistinctKeys es)
    (ht : f.Takes es (some (k, v))) : ∃ w, f.Takes fs (some (k, w)) ∧ R v w := by
  cases h with
  | nothing he _ => cases he.unique hd ht
  | under he hf hr =>
    cases he.unique hd ht
    exact ⟨_, hf, hr⟩

theorem Alike.takes_int (h : f.Alike Kin es fs) (hd : DistinctKeys es) {n : Int}
    (ht : f.Takes es (some (k, .int n))) : f.Takes fs (some (k, .int n)) := by
  obtain ⟨w, hw, hk⟩ := h.takes_some hd ht
  cases hk
  exact hw

theorem Alike.hasInteger (h : f.Alike Kin es fs) (hd : DistinctKeys es)
    (hi : f.HasInteger es range) : f.HasInteger fs range := by
  obtain ⟨k, n, ht, hn⟩ := hi
  exact ⟨k, n, h.takes_int hd ht, hn⟩

theorem Alike.integerFault (h : f.Alike Kin es fs) (hd : DistinctKeys es)
    (hi : f.IntegerFault es range why k c) : f.IntegerFault fs range why k c := by
  cases hi with
  | missing ht => exact .missing (h.takes_none hd ht)
  | notInteger ht hv =>
    obtain ⟨w, hw, hk⟩ := h.takes_some hd ht
    refine .notInteger hw fun n hn => ?_
    subst hn
    cases hk
    exact hv n rfl
  | outOfRange ht hn => exact .outOfRange (h.takes_int hd ht) hn

theorem Alike.gives {α : Type} {T : Value → Option α → Prop} {a : Option α}
    (h : f.Alike R es fs) (hp : Plain (.dict es))
    (hT : ∀ v w, v.Plain → R v w → T v a → T w a) (hg : f.Gives es T a) : f.Gives fs T a := by
  rcases hg with ⟨ht, ha⟩ | ⟨k, v, ht, hv⟩
  · exact Or.inl ⟨h.takes_none hp.distinctKeys ht, ha⟩
  · obtain ⟨w, hw, hr⟩ := h.takes_some hp.distinctKeys ht
    exact Or.inr ⟨k, w, hw, hT v w (ht.plain hp) hr hv⟩

theorem IntegerFault.unique (hd : DistinctKeys es) {k' : String} {c' : Cause}
    (h : f.IntegerFault es range why k c) (h' : f.IntegerFault es range why k' c') :
    k = k' ∧ c = c' := by
  cases h with
  | missing ht =>
    cases h' with
    | missing _ => exact ⟨rfl, rfl⟩
    | notInteger ht' _ => cases ht.unique hd ht'
    | outOfRange ht' _ => cases ht.unique hd ht'
  | notInteger ht hv =>
    cases h' with
    | missing ht' => cases ht.unique hd ht'
    | notInteger ht' _ =>
      cases ht.unique hd ht'
      exact ⟨rfl, rfl⟩
    | outOfRange ht' _ =>
      cases ht.unique hd ht'
      exact absurd rfl (hv _)
  | outOfRange ht _ =>
    cases h' with
    | missing ht' => cases ht.unique hd ht'
    | notInteger ht' hv =>
      cases ht.unique hd ht'
      exact absurd rfl (hv _)
    | outOfRange ht' _ =>
      cases ht.unique hd ht'
      exact ⟨rfl, rfl⟩

end FieldName

/-- Values that give the same pool: mappings do where their fields are alike. -/
inductive SimilarPool : Value → Value → Prop where
  | kin {v w : Value} : (∀ inner, v ≠ .dict inner) → Kin v w → SimilarPool v w
  | dicts {es fs : Entries} : (∀ f : PoolField, f.name.Alike Kin es fs) →
      SimilarPool (.dict es) (.dict fs)

/-- Mappings that give every field alike, also those of a pool. -/
structure Similar (es fs : Entries) : Prop where
  port : FieldName.port.Alike Kin es fs
  workers : FieldName.workers.Alike Kin es fs
  maxLogLevel : FieldName.maxLogLevel.Alike Kin es fs
  pool : FieldName.pool.Alike SimilarPool es fs

theorem Value.Kin.symm {v w : Value} (h : Kin v w) : Kin w v := by
  cases h with
  | same => exact .same
  | lists => exact .lists
  | dicts => exact .dicts

namespace SimilarPool

variable {v w : Value}

theorem refl : SimilarPool v v := by
  by_cases hv : ∃ inner, v = .dict inner
  · obtain ⟨inner, rfl⟩ := hv
    exact .dicts fun f => .of_lookup (fun _ => .same) rfl rfl
  · exact .kin (fun inner h => hv ⟨inner, h⟩) .same

theorem symm (h : SimilarPool v w) : SimilarPool w v := by
  cases h with
  | kin hv hk =>
    refine .kin (fun inner hw => ?_) hk.symm
    subst hw
    cases hk <;> exact hv _ rfl
  | dicts h => exact .dicts fun f => (h f).symm fun _ _ => Kin.symm

theorem poolOf {o : Option ConnectionPool} (h : SimilarPool v w) (hv : v.Plain)
    (hp : PoolOf v o) : PoolOf w o := by
  cases h with
  | kin hn hk =>
    cases hk with
    | same => exact hp
    | lists => cases hp
    | dicts => exact absurd rfl (hn _)
  | dicts h =>
    cases hp with
    | dict hp =>
      have hd := hv.distinctKeys
      obtain ⟨⟨k₁, h₁⟩, ⟨k₂, h₂⟩, ⟨k₃, h₃⟩⟩ := hp
      exact .dict ⟨⟨k₁, (h .checkInterval).takes_int hd h₁⟩,
        ⟨k₂, (h .fillInterval).takes_int hd h₂⟩, ⟨k₃, (h .maxPoolSize).takes_int hd h₃⟩⟩

end SimilarPool

namespace Similar

variable {es fs : Entries}

theorem symm (h : Similar es fs) : Similar fs es :=
  ⟨h.port.symm fun _ _ => Kin.symm, h.workers.symm fun _ _ => Kin.symm,
    h.maxLogLevel.symm fun _ _ => Kin.symm, h.pool.symm fun _ _ => SimilarPool.symm⟩

/-- Nothing matters but what stands under the names of the fields. -/
theorem of_lookup (h : ∀ f ∈ [FieldName.port, .workers, .maxLogLevel, .pool],
    Value.lookup f.wire es = Value.lookup f.wire fs ∧
      Value.lookup f.own es = Value.lookup f.own fs) : Similar es fs := by
  simp only [List.mem_cons, List.not_mem_nil, or_false, forall_eq_or_imp, forall_eq] at h
  obtain ⟨h₁, h₂, h₃, h₄⟩ := h
  exact ⟨.of_lookup (fun _ => .same) h₁.1 h₁.2, .of_lookup (fun _ => .same) h₂.1 h₂.2,
    .of_lookup (fun _ => .same) h₃.1 h₃.2, .of_lookup (fun _ => .refl) h₄.1 h₄.2⟩

/-- The order of the entries does not matter. -/
theorem of_perm (hd : DistinctKeys es) (h : es.Perm fs) : Similar es fs := by
  have hf : DistinctKeys fs := hd.perm h
  have hl (k : String) : Value.lookup k es = Value.lookup k fs := by
    refine Option.ext fun v => ?_
    rw [Value.lookup_eq_some_iff hd, Value.lookup_eq_some_iff hf, h.mem_iff]
  exact of_lookup fun f _ => ⟨hl f.wire, hl f.own⟩

theorem heldBy {c : Configuration} (h : Similar es fs) (hp : Plain (.dict es))
    (hc : c.HeldBy es) : c.HeldBy fs := by
  have hd := hp.distinctKeys
  obtain ⟨⟨k₁, h₁⟩, ⟨k₂, h₂⟩, h₃, h₄⟩ := hc
  refine ⟨⟨k₁, h.port.takes_int hd h₁⟩, ⟨k₂, h.workers.takes_int hd h₂⟩, ?_, ?_⟩
  · refine h.maxLogLevel.gives hp (fun v w _ hk hl => ?_) h₃
    cases hk with
    | same => exact hl
    | lists => cases hl
    | dicts => cases hl
  · exact h.pool.gives hp (fun _ _ hv hs => hs.poolOf hv) h₄

theorem good (h : Similar es fs) (hp : Plain (.dict es)) (hq : Plain (.dict fs)) {p : Place}
    (hg : p.Good es) : p.Good fs := by
  have hd := hp.distinctKeys
  cases p with
  | port => exact h.port.hasInteger hd hg
  | workers => exact h.workers.hasInteger hd hg
  | maxLogLevel =>
    cases h.maxLogLevel with
    | nothing _ hf => exact Or.inl hf
    | under he hf hk =>
      rw [Place.good_maxLogLevel_iff hq.distinctKeys hf]
      rcases (Place.good_maxLogLevel_iff hd he).mp hg with rfl | ⟨l, rfl⟩
      · cases hk
        exact Or.inl rfl
      · cases hk
        exact Or.inr ⟨l, rfl⟩
  | pool =>
    cases h.pool with
    | nothing _ hf => exact Or.inl hf
    | under he hf hs =>
      rw [Place.good_pool_iff hq.distinctKeys hf]
      cases hs with
      | dicts _ => exact Or.inr ⟨_, rfl⟩
      | kin hn hk =>
        rcases (Place.good_pool_iff hd he).mp hg with rfl | ⟨inner, rfl⟩
        · cases hk
          exact Or.inl rfl
        · exact absurd rfl (hn inner)
  | inPool f =>
    -- the pool is taken from the second mapping, so the way back is by symmetry
    intro k inner ht
    obtain ⟨w, hw, hs⟩ := h.symm.pool.takes_some hq.distinctKeys ht
    cases hs with
    | kin hn _ => exact absurd rfl (hn inner)
    | dicts ha =>
      have hi := (hw.plain hp).distinctKeys
      exact ((ha f).symm fun _ _ => Kin.symm).hasInteger hi (hg k _ hw)

theorem complaint (h : Similar es fs) (hp : Plain (.dict es)) {o : Origin} {p : Place}
    {l : Location} {c : Cause} (hc : p.Complaint o es l c) : p.Complaint o fs l c := by
  have hd := hp.distinctKeys
  cases hc with
  | port hf => exact .port (h.port.integerFault hd hf)
  | workers hf => exact .workers (h.workers.integerFault hd hf)
  | maxLogLevel ht h₀ hl =>
    obtain ⟨w, hw, hk⟩ := h.maxLogLevel.takes_some hd ht
    cases hk with
    | same => exact .maxLogLevel hw h₀ hl
    | lists => exact .maxLogLevel hw nofun nofun
    | dicts => exact .maxLogLevel hw nofun nofun
  | pool ht h₀ hn =>
    obtain ⟨w, hw, hs⟩ := h.pool.takes_some hd ht
    cases hs with
    | dicts _ => exact absurd rfl (hn _)
    | kin _ hk =>
      cases hk with
      | same => exact .pool hw h₀ hn
      | lists => exact .pool hw nofun nofun
      | dicts => exact absurd rfl (hn _)
  | inPool ht hf =>
    obtain ⟨w, hw, hs⟩ := h.pool.takes_some hd ht
    cases hs with
    | kin hn _ => exact absurd rfl (hn _)
    | dicts ha => exact .inPool hw ((ha _).integerFault (ht.plain hp).distinctKeys hf)

end Similar

/-- Complaints of one place say the same, but for how data and JSON speak of what is no mapping. -/
theorem Place.Complaint.agree {entries : Entries} {o o' : Origin} {p : Place} {l l' : Location}
    {c c' : Cause} (hp : Plain (.dict entries)) (h : p.Complaint o entries l c)
    (h' : p.Complaint o' entries l' c') :
    l = l' ∧ (p ≠ .pool → c = c') ∧
      (p = .pool → c = o.wrongModel .pool ∧ c' = o'.wrongModel .pool) := by
  have hd := hp.distinctKeys
  cases h with
  | port hf =>
    cases h' with
    | port hf' =>
      obtain ⟨rfl, rfl⟩ := hf.unique hd hf'
      exact ⟨rfl, fun _ => rfl, nofun⟩
  | workers hf =>
    cases h' with
    | workers hf' =>
      obtain ⟨rfl, rfl⟩ := hf.unique hd hf'
      exact ⟨rfl, fun _ => rfl, nofun⟩
  | maxLogLevel ht _ _ =>
    cases h' with
    | maxLogLevel ht' _ _ =>
      cases ht.unique hd ht'
      exact ⟨rfl, fun _ => rfl, nofun⟩
  | pool ht _ _ =>
    cases h' with
    | pool ht' _ _ =>
      cases ht.unique hd ht'
      exact ⟨rfl, fun hn => absurd rfl hn, fun _ => ⟨rfl, rfl⟩⟩
  | inPool ht hf =>
    cases h' with
    | inPool ht' hf' =>
      cases ht.unique hd ht'
      obtain ⟨rfl, rfl⟩ := hf.unique (ht.plain hp).distinctKeys hf'
      exact ⟨rfl, fun _ => rfl, nofun⟩

namespace Configuration

variable {es fs : Entries} {o o' : Origin}

/-- Similar mappings are the same configuration, or neither is one for the same places. -/
theorem ofEntries_similar (h : Similar es fs) (hp : Plain (.dict es)) (hq : Plain (.dict fs)) :
    (∃ c, ofEntries o es = .ok c ∧ ofEntries o' fs = .ok c) ∨
      ∃ is js, ofEntries o es = .error is ∧ ofEntries o' fs = .error js ∧
        List.Forall₂ (fun i j => ∃ p : Place, p.Complaint o es i.location i.cause ∧
          p.Complaint o' es j.location j.cause) is js := by
  cases he : ofEntries o es with
  | ok c =>
    refine Or.inl ⟨c, rfl, ?_⟩
    exact ofEntries_of_heldBy hq (h.heldBy hp (heldBy_of_ofEntries he))
  | error is =>
    cases hf : ofEntries o' fs with
    | ok c =>
      have hc := @ofEntries_of_heldBy o _ _ hp (h.symm.heldBy hq (heldBy_of_ofEntries hf))
      rw [he] at hc
      cases hc
    | error js =>
      have hi := @judged_ofEntries o es hp
      have hj := @judged_ofEntries o' fs hq
      rw [he] at hi
      rw [hf] at hj
      refine Or.inr ⟨is, js, rfl, rfl, hi.2.forall₂ hj.2 (fun p _ => ?_) fun p i j hi hj => ?_⟩
      · exact ⟨h.good hp hq, h.symm.good hq hp⟩
      · exact ⟨p, hi, h.symm.complaint hq hj⟩

end Configuration

end AgentControl
