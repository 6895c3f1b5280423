import AgentControl.Proofs.Configuration.Contract
import AgentControl.Proofs.Outcome

/-! # Decoding by the contract

A mapping is decoded to a configuration exactly where it holds one, which is where every place is
good; otherwise the errors are one entry for each place that is not, in the order of the places.
-/

namespace AgentControl

open Value (Entries DistinctKeys Plain)

/-! ## Integers -/

section Integer

variable {α : Type} {g : Int → Option α} {why : Refusal} {v : Value} {a : α}

theorem checkInteger_of_ne (h : ∀ n, v ≠ .int n) :
    checkInteger g why v = Checked.fail .notInteger v := by
  cases v <;> first | rfl | exact absurd rfl (h _)

theorem checkInteger_eq_ok_iff : checkInteger g why v = .ok a ↔ ∃ n, v = .int n ∧ g n = some a := by
  constructor
  · intro h
    by_cases hv : ∃ n, v = .int n
    · obtain ⟨n, rfl⟩ := hv
      cases hg : g n with
      | none => simp [checkInteger, hg, Checked.fail] at h
      | some b =>
        simp only [checkInteger, hg, Except.ok.injEq] at h
        exact ⟨n, rfl, h ▸ hg⟩
    · rw [checkInteger_of_ne fun n hn => hv ⟨n, hn⟩] at h
      cases h
  · rintro ⟨n, rfl, hg⟩
    simp only [checkInteger, hg]

theorem portOf?_eq_some_iff {n : Int} {p : { p : Nat // 1 ≤ p ∧ p ≤ 65535 }} :
    portOf? n = some p ↔ n = p.1 := by
  obtain ⟨m, h⟩ := p
  simp only [portOf?, Option.dite_none_right_eq_some, Option.some.injEq, Subtype.mk.injEq,
    exists_prop]
  omega

theorem workersOf?_eq_some_iff {n : Int} {w : { w : Nat // 1 ≤ w }} :
    workersOf? n = some w ↔ n = w.1 := by
  obtain ⟨m, h⟩ := w
  simp only [workersOf?, Option.dite_none_right_eq_some, Option.some.injEq, Subtype.mk.injEq,
    exists_prop]
  omega

theorem naturalOf?_eq_some_iff {n : Int} {m : Nat} : naturalOf? n = some m ↔ n = m := by
  simp only [naturalOf?, Option.ite_none_right_eq_some, Option.some.injEq]
  omega

end Integer

/-! ## Fields -/

namespace FieldName

variable {α : Type} {f : FieldName} {entries : Entries}

theorem required_eq_ok_iff {check : Value → Checked α} {a : α} :
    f.required check entries = .ok a ↔
      ∃ k v, f.find? entries = some (k, v) ∧ check v = .ok a := by
  unfold required
  cases h : f.find? entries with
  | none => simp [Checked.fail, Checked.within]
  | some e =>
    obtain ⟨k, v⟩ := e
    simp [Checked.within_eq_ok_iff]

theorem optional_eq_ok_iff {check : Value → Checked (Option α)} {a : Option α} :
    f.optional check entries = .ok a ↔ (f.find? entries = none ∧ a = none) ∨
      ∃ k v, f.find? entries = some (k, v) ∧ check v = .ok a := by
  unfold optional
  cases h : f.find? entries with
  | none => simp [eq_comm]
  | some e =>
    obtain ⟨k, v⟩ := e
    simp [Checked.within_eq_ok_iff]

theorem required_integer_eq_ok_iff {g : Int → Option α} {why : Refusal} {a : α} :
    f.required (checkInteger g why) entries = .ok a ↔
      ∃ k n, f.find? entries = some (k, .int n) ∧ g n = some a := by
  rw [required_eq_ok_iff]
  constructor
  · rintro ⟨k, v, hf, hv⟩
    obtain ⟨n, rfl, hn⟩ := checkInteger_eq_ok_iff.mp hv
    exact ⟨k, n, hf, hn⟩
  · rintro ⟨k, n, hf, hn⟩
    exact ⟨k, .int n, hf, checkInteger_eq_ok_iff.mpr ⟨n, rfl, hn⟩⟩

theorem gives_of_optional {check : Value → Checked (Option α)} {R : Value → Option α → Prop}
    {a : Option α} (hr : ∀ v, check v = .ok a → R v a) (h : f.optional check entries = .ok a) :
    f.Gives entries R a := by
  rcases optional_eq_ok_iff.mp h with ⟨hf, ha⟩ | ⟨k, v, hf, hv⟩
  · exact Or.inl ⟨hf ▸ takes_find?, ha⟩
  · exact Or.inr ⟨k, v, hf ▸ takes_find?, hr v hv⟩

theorem optional_of_gives {check : Value → Checked (Option α)} {R : Value → Option α → Prop}
    {a : Option α} (hp : Plain (.dict entries)) (hr : ∀ v, v.Plain → R v a → check v = .ok a)
    (h : f.Gives entries R a) : f.optional check entries = .ok a := by
  rcases h with ⟨ht, ha⟩ | ⟨k, v, ht, hv⟩
  · exact optional_eq_ok_iff.mpr (Or.inl ⟨(takes_iff hp.distinctKeys).mp ht, ha⟩)
  · exact optional_eq_ok_iff.mpr
      (Or.inr ⟨k, v, (takes_iff hp.distinctKeys).mp ht, hr v (ht.plain hp) hv⟩)

section Judged

variable {ι : Type} {G : ι → Prop} {C : ι → Location → Cause → Prop} {p : ι} {ps : List ι}

theorem judged_integer {g : Int → Option α} {why : Refusal} {range : Int → Prop}
    (hd : DistinctKeys entries) (hr : ∀ n, (∃ a, g n = some a) ↔ range n)
    (hg : G p ↔ f.HasInteger entries range)
    (hc : ∀ k c, f.IntegerFault entries range why k c → C p [.key k] c) :
    Checked.Judged G C [p] (f.required (checkInteger g why) entries) := by
  have ht : f.Takes entries (f.find? entries) := takes_find?
  unfold required
  cases hf : f.find? entries with
  | none =>
    rw [hf] at ht
    exact ⟨by simp, .bad (fun h => not_hasInteger hd ht (hg.mp h)) (hc _ _ (.missing ht)) .nil⟩
  | some e =>
    obtain ⟨k, v⟩ := e
    rw [hf] at ht
    rw [hasInteger_iff hd ht] at hg
    by_cases hv : ∃ n, v = .int n
    · obtain ⟨n, rfl⟩ := hv
      cases hn : g n with
      | some a =>
        simp only [checkInteger, hn]
        exact List.forall_mem_singleton.mpr (hg.mpr ⟨n, rfl, (hr n).mp ⟨a, hn⟩⟩)
      | none =>
        have hb : ¬ range n := fun h => by
          obtain ⟨a, ha⟩ := (hr n).mpr h
          rw [hn] at ha
          cases ha
        simp only [checkInteger, hn]
        refine ⟨by simp, .bad (fun h => ?_) (hc _ _ (.outOfRange ht hb)) .nil⟩
        obtain ⟨m, hm, hrange⟩ := hg.mp h
        cases hm
        exact hb hrange
    · have hv' : ∀ n, v ≠ .int n := fun n hn => hv ⟨n, hn⟩
      simp only [checkInteger_of_ne hv']
      refine ⟨by simp, .bad (fun h => ?_) (hc _ _ (.notInteger ht hv')) .nil⟩
      obtain ⟨n, hn, -⟩ := hg.mp h
      exact hv' n hn

theorem judged_optional {check : Value → Checked (Option α)}
    (h₀ : f.Takes entries none → ∀ p ∈ ps, G p)
    (h : ∀ k v, f.Takes entries (some (k, v)) →
      Checked.Judged G C ps ((check v).within (.key k))) :
    Checked.Judged G C ps (f.optional check entries) := by
  have ht : f.Takes entries (f.find? entries) := takes_find?
  unfold optional
  cases hf : f.find? entries with
  | none => exact h₀ (hf ▸ ht)
  | some e => exact h e.1 e.2 (hf ▸ ht)

end Judged

end FieldName

/-! ## Levels -/

theorem checkLevel_eq_ok_iff {v : Value} {l : Option LogLevel} :
    checkLevel v = .ok l ↔ LevelOf v l := by
  constructor
  · intro h
    unfold checkLevel at h
    dsimp only at h
    split at h
    · obtain rfl := Except.ok.inj h
      exact .unset
    · obtain rfl := Except.ok.inj h
      exact .level
    · split at h
      · next hn =>
        obtain rfl := Except.ok.inj h
        exact LogLevel.ofName?_eq_some_iff.mp hn ▸ .name
      · cases h
    · split at h
      · next hd =>
        split at h
        · next hn =>
          obtain rfl := Except.ok.inj h
          exact .bytes (LogLevel.ofName?_eq_some_iff.mp hn ▸ hd)
        · cases h
      · cases h
    · cases h
  · intro h
    cases h with
    | unset => rfl
    | level => rfl
    | name => simp [checkLevel]
    | bytes hd => simp [checkLevel, hd]

theorem checkLevel_of_not {v : Value} (hv : v.Plain) (h₀ : v ≠ .null)
    (h : ∀ l, v ≠ .str (LogLevel.name l)) : checkLevel v = Checked.fail .notLevel v := by
  cases hv with
  | null => exact absurd rfl h₀
  | @str s =>
    cases hn : LogLevel.ofName? s with
    | none => simp [checkLevel, hn]
    | some l => exact absurd (congrArg Value.str (LogLevel.ofName?_eq_some_iff.mp hn).symm) (h l)
  | _ => rfl

/-! ## Pools -/

namespace ConnectionPool

variable {origin : Origin} {entries : Entries} {p : ConnectionPool}

theorem ofEntries_eq : ofEntries entries =
    ((FieldName.checkInterval.required checkNatural entries).both
      ((FieldName.fillInterval.required checkNatural entries).both
        (FieldName.maxPoolSize.required checkNatural entries))).map
      fun t => ⟨t.1, t.2.1, t.2.2⟩ := by
  unfold ofEntries
  split <;> next h => rw [h]; rfl

theorem ofEntries_eq_ok_iff : ofEntries entries = .ok p ↔
    (∃ k, FieldName.checkInterval.find? entries = some (k, .int p.checkInterval)) ∧
      (∃ k, FieldName.fillInterval.find? entries = some (k, .int p.fillInterval)) ∧
        ∃ k, FieldName.maxPoolSize.find? entries = some (k, .int p.maxPoolSize) := by
  have hi (f : FieldName) (n : Nat) : f.required checkNatural entries = .ok n ↔
      ∃ k, f.find? entries = some (k, .int n) := by
    rw [checkNatural, FieldName.required_integer_eq_ok_iff]
    constructor
    · rintro ⟨k, m, hf, hm⟩
      exact ⟨k, naturalOf?_eq_some_iff.mp hm ▸ hf⟩
    · rintro ⟨k, hf⟩
      exact ⟨k, n, hf, naturalOf?_eq_some_iff.mpr rfl⟩
  rw [ofEntries_eq, Checked.map_eq_ok_iff, ← hi, ← hi, ← hi]
  constructor
  · rintro ⟨t, ht, rfl⟩
    obtain ⟨h₁, h⟩ := Checked.both_eq_ok_iff.mp ht
    obtain ⟨h₂, h₃⟩ := Checked.both_eq_ok_iff.mp h
    exact ⟨h₁, h₂, h₃⟩
  · rintro ⟨h₁, h₂, h₃⟩
    refine ⟨(p.checkInterval, p.fillInterval, p.maxPoolSize), ?_, rfl⟩
    exact Checked.both_eq_ok_iff.mpr ⟨h₁, Checked.both_eq_ok_iff.mpr ⟨h₂, h₃⟩⟩

theorem heldBy_of_ofEntries (h : ofEntries entries = .ok p) : p.HeldBy entries := by
  obtain ⟨⟨k₁, h₁⟩, ⟨k₂, h₂⟩, ⟨k₃, h₃⟩⟩ := ofEntries_eq_ok_iff.mp h
  exact ⟨⟨k₁, h₁ ▸ FieldName.takes_find?⟩, ⟨k₂, h₂ ▸ FieldName.takes_find?⟩,
    ⟨k₃, h₃ ▸ FieldName.takes_find?⟩⟩

theorem ofEntries_of_heldBy (hd : DistinctKeys entries) (h : p.HeldBy entries) :
    ofEntries entries = .ok p := by
  obtain ⟨⟨k₁, h₁⟩, ⟨k₂, h₂⟩, ⟨k₃, h₃⟩⟩ := h
  exact ofEntries_eq_ok_iff.mpr ⟨⟨k₁, (FieldName.takes_iff hd).mp h₁⟩,
    ⟨k₂, (FieldName.takes_iff hd).mp h₂⟩, ⟨k₃, (FieldName.takes_iff hd).mp h₃⟩⟩

theorem poolOf_of_checkOptional {v : Value} {o : Option ConnectionPool}
    (h : checkOptional origin v = .ok o) : PoolOf v o := by
  unfold checkOptional at h
  split at h
  · obtain rfl := Except.ok.inj h
    exact .unset
  · obtain ⟨p, hp, rfl⟩ := Checked.map_eq_ok_iff.mp h
    unfold check at hp
    split at hp
    · obtain rfl := Except.ok.inj hp
      exact .pool
    · exact .dict (heldBy_of_ofEntries hp)
    · cases hp

theorem checkOptional_eq_ok_iff {v : Value} {o : Option ConnectionPool} (hv : v.WellKeyed) :
    checkOptional origin v = .ok o ↔ PoolOf v o := by
  refine ⟨poolOf_of_checkOptional, fun h => ?_⟩
  cases h with
  | unset => rfl
  | pool => rfl
  | dict h => exact Checked.map_eq_ok_iff.mpr ⟨_, ofEntries_of_heldBy (hv _ rfl) h, rfl⟩

theorem checkOptional_of_not {v : Value} (hv : v.Plain) (h₀ : v ≠ .null)
    (h : ∀ inner, v ≠ .dict inner) :
    checkOptional origin v = (Checked.fail (origin.wrongModel .pool) v : Checked _) := by
  cases hv with
  | null => exact absurd rfl h₀
  | dict _ _ _ => exact absurd rfl (h _)
  | _ => rfl

/-- The good fields of a pool's mapping. -/
abbrev GoodField (inner : Entries) (f : PoolField) : Prop :=
  f.name.HasInteger inner fun n => 0 ≤ n

abbrev FieldFault (inner : Entries) (f : PoolField) (l : Location) (c : Cause) : Prop :=
  ∃ k, l = [.key k] ∧ f.name.IntegerFault inner (fun n => 0 ≤ n) .negative k c

theorem judged_ofEntries (hd : DistinctKeys entries) :
    Checked.Judged (GoodField entries) (FieldFault entries) PoolField.all (ofEntries entries) := by
  have hr (n : Int) : (∃ m, naturalOf? n = some m) ↔ 0 ≤ n := by
    constructor
    · rintro ⟨m, hm⟩
      rw [naturalOf?_eq_some_iff.mp hm]
      exact Int.natCast_nonneg m
    · intro h
      exact ⟨n.toNat, naturalOf?_eq_some_iff.mpr (Int.toNat_of_nonneg h).symm⟩
  have hj (f : PoolField) : Checked.Judged (GoodField entries) (FieldFault entries) [f]
      (f.name.required checkNatural entries) :=
    FieldName.judged_integer hd hr Iff.rfl fun k c h => ⟨k, rfl, h⟩
  rw [ofEntries_eq]
  exact ((hj .checkInterval).both ((hj .fillInterval).both (hj .maxPoolSize))).map

end ConnectionPool

/-! ## Configurations -/

namespace Configuration

variable {origin : Origin} {entries : Entries} {c : Configuration}

theorem ofEntries_eq : ofEntries origin entries =
    ((FieldName.port.required checkPort entries).both
      ((FieldName.workers.required checkWorkers entries).both
        ((FieldName.maxLogLevel.optional checkLevel entries).both
          (FieldName.pool.optional (ConnectionPool.checkOptional origin) entries)))).map
      fun t => ⟨t.1.1, t.2.1.1, t.2.2.1, t.2.2.2, t.1.2.1, t.1.2.2, t.2.1.2⟩ := by
  unfold ofEntries
  split <;> next h => rw [h]; rfl

theorem ofEntries_eq_ok_iff : ofEntries origin entries = .ok c ↔
    (∃ k, FieldName.port.find? entries = some (k, .int c.port)) ∧
      (∃ k, FieldName.workers.find? entries = some (k, .int c.workers)) ∧
        FieldName.maxLogLevel.optional checkLevel entries = .ok c.maxLogLevel ∧
          FieldName.pool.optional (ConnectionPool.checkOptional origin) entries = .ok c.pool := by
  rw [ofEntries_eq, Checked.map_eq_ok_iff]
  constructor
  · rintro ⟨t, ht, rfl⟩
    obtain ⟨h₁, h⟩ := Checked.both_eq_ok_iff.mp ht
    obtain ⟨h₂, h⟩ := Checked.both_eq_ok_iff.mp h
    obtain ⟨h₃, h₄⟩ := Checked.both_eq_ok_iff.mp h
    obtain ⟨k₁, n₁, hf₁, hn₁⟩ := FieldName.required_integer_eq_ok_iff.mp h₁
    obtain ⟨k₂, n₂, hf₂, hn₂⟩ := FieldName.required_integer_eq_ok_iff.mp h₂
    obtain rfl := portOf?_eq_some_iff.mp hn₁
    obtain rfl := workersOf?_eq_some_iff.mp hn₂
    exact ⟨⟨k₁, hf₁⟩, ⟨k₂, hf₂⟩, h₃, h₄⟩
  · rintro ⟨⟨k₁, hf₁⟩, ⟨k₂, hf₂⟩, h₃, h₄⟩
    refine ⟨(⟨c.port, c.one_le_port, c.port_le⟩, ⟨c.workers, c.one_le_workers⟩,
      c.maxLogLevel, c.pool), ?_, rfl⟩
    refine Checked.both_eq_ok_iff.mpr ⟨?_, Checked.both_eq_ok_iff.mpr ⟨?_,
      Checked.both_eq_ok_iff.mpr ⟨h₃, h₄⟩⟩⟩
    · exact FieldName.required_integer_eq_ok_iff.mpr ⟨k₁, _, hf₁, portOf?_eq_some_iff.mpr rfl⟩
    · exact FieldName.required_integer_eq_ok_iff.mpr ⟨k₂, _, hf₂, workersOf?_eq_some_iff.mpr rfl⟩

theorem heldBy_of_ofEntries (h : ofEntries origin entries = .ok c) : c.HeldBy entries := by
  obtain ⟨⟨k₁, h₁⟩, ⟨k₂, h₂⟩, h₃, h₄⟩ := ofEntries_eq_ok_iff.mp h
  refine ⟨⟨k₁, h₁ ▸ FieldName.takes_find?⟩, ⟨k₂, h₂ ▸ FieldName.takes_find?⟩, ?_, ?_⟩
  · exact FieldName.gives_of_optional (fun _ => checkLevel_eq_ok_iff.mp) h₃
  · exact FieldName.gives_of_optional (fun _ => ConnectionPool.poolOf_of_checkOptional) h₄

theorem ofEntries_of_heldBy (hp : Plain (.dict entries)) (h : c.HeldBy entries) :
    ofEntries origin entries = .ok c := by
  obtain ⟨⟨k₁, h₁⟩, ⟨k₂, h₂⟩, h₃, h₄⟩ := h
  have hd := hp.distinctKeys
  refine ofEntries_eq_ok_iff.mpr ⟨⟨k₁, (FieldName.takes_iff hd).mp h₁⟩,
    ⟨k₂, (FieldName.takes_iff hd).mp h₂⟩, ?_, ?_⟩
  · exact FieldName.optional_of_gives hp (fun _ _ => checkLevel_eq_ok_iff.mpr) h₃
  · exact FieldName.optional_of_gives hp
      (fun _ hv => (ConnectionPool.checkOptional_eq_ok_iff hv.wellKeyed).mpr) h₄

theorem ofEntries_eq_ok_iff_heldBy (hp : Plain (.dict entries)) :
    ofEntries origin entries = .ok c ↔ c.HeldBy entries :=
  ⟨heldBy_of_ofEntries, ofEntries_of_heldBy hp⟩

theorem judged_port (hd : DistinctKeys entries) :
    Checked.Judged (Place.Good entries) (Place.Complaint origin entries) [.port]
      (FieldName.port.required checkPort entries) := by
  refine FieldName.judged_integer hd (fun n => ?_) Iff.rfl fun _ _ => .port
  constructor
  · rintro ⟨p, hp⟩
    have h := p.2
    rw [portOf?_eq_some_iff.mp hp]
    omega
  · intro h
    exact ⟨⟨n.toNat, by omega⟩, portOf?_eq_some_iff.mpr (by simp only; omega)⟩

theorem judged_workers (hd : DistinctKeys entries) :
    Checked.Judged (Place.Good entries) (Place.Complaint origin entries) [.workers]
      (FieldName.workers.required checkWorkers entries) := by
  refine FieldName.judged_integer hd (fun n => ?_) Iff.rfl fun _ _ => .workers
  constructor
  · rintro ⟨w, hw⟩
    have h := w.2
    rw [workersOf?_eq_some_iff.mp hw]
    omega
  · intro h
    exact ⟨⟨n.toNat, by omega⟩, workersOf?_eq_some_iff.mpr (by simp only; omega)⟩

theorem judged_maxLogLevel (hp : Plain (.dict entries)) :
    Checked.Judged (Place.Good entries) (Place.Complaint origin entries) [.maxLogLevel]
      (FieldName.maxLogLevel.optional checkLevel entries) := by
  refine FieldName.judged_optional (fun ht => ?_) fun k v ht => ?_
  · exact List.forall_mem_singleton.mpr (Or.inl ht)
  have hg := Place.good_maxLogLevel_iff hp.distinctKeys ht
  by_cases hv : v = .null ∨ ∃ l, v = .str (LogLevel.name l)
  · have hok : ∃ l, checkLevel v = .ok l := by
      rcases hv with rfl | ⟨l, rfl⟩
      · exact ⟨none, checkLevel_eq_ok_iff.mpr .unset⟩
      · exact ⟨some l, checkLevel_eq_ok_iff.mpr .name⟩
    obtain ⟨l, hl⟩ := hok
    rw [hl]
    exact List.forall_mem_singleton.mpr (hg.mpr hv)
  · obtain ⟨h₀, hl⟩ := not_or.mp hv
    have hl' : ∀ l, v ≠ .str (LogLevel.name l) := fun l h => hl ⟨l, h⟩
    rw [checkLevel_of_not (ht.plain hp) h₀ hl']
    exact ⟨by simp, .bad (fun h => hv (hg.mp h)) (.maxLogLevel ht h₀ hl') .nil⟩

/-- A pool given as a mapping is judged by its fields. -/
theorem judged_inner {k : String} {inner : Entries} (hp : Plain (.dict entries))
    (ht : FieldName.pool.Takes entries (some (k, .dict inner))) :
    Checked.Judged (Place.Good entries) (Place.Complaint origin entries)
      (PoolField.all.map .inPool)
      (Checked.within (.key k) ((ConnectionPool.ofEntries inner).map some)) := by
  have hj := ConnectionPool.judged_ofEntries (ht.plain hp).distinctKeys
  refine Checked.Judged.within (g := Place.inPool) hj.map (fun f _ => ?_) ?_
  · refine ⟨fun h l inner' ht' => ?_, fun h => h k inner ht⟩
    cases ht.unique hp.distinctKeys ht'
    exact h
  · rintro f l c ⟨j, rfl, h⟩
    exact .inPool ht h

theorem judged_pool (hp : Plain (.dict entries)) :
    Checked.Judged (Place.Good entries) (Place.Complaint origin entries)
      (.pool :: PoolField.all.map .inPool)
      (FieldName.pool.optional (ConnectionPool.checkOptional origin) entries) := by
  have hd := hp.distinctKeys
  refine FieldName.judged_optional (fun ht => ?_) fun k v ht => ?_
  · refine List.forall_mem_cons.mpr ⟨Or.inl ht, Place.good_inPool fun k inner h => ?_⟩
    cases ht.unique hd h
  have hg := Place.good_pool_iff hd ht
  by_cases hv : ∃ inner, v = .dict inner
  · obtain ⟨inner, rfl⟩ := hv
    exact (judged_inner hp ht).cons_good (hg.mpr (Or.inr ⟨inner, rfl⟩))
  have hv' : ∀ inner, v ≠ .dict inner := fun inner h => hv ⟨inner, h⟩
  have hin : ∀ p ∈ PoolField.all.map Place.inPool, p.Good entries := by
    refine Place.good_inPool fun j inner h => ?_
    cases ht.unique hd h
    exact hv' inner rfl
  by_cases h₀ : v = .null
  · subst h₀
    exact List.forall_mem_cons.mpr ⟨hg.mpr (Or.inl rfl), hin⟩
  · rw [ConnectionPool.checkOptional_of_not (ht.plain hp) h₀ hv']
    refine ⟨by simp, .bad (fun h => ?_) (.pool ht h₀ hv') (Selected.nil_iff.mpr hin)⟩
    rcases hg.mp h with h | h
    · exact h₀ h
    · exact hv h

/-- A mapping is decoded where all its places are good, and else each that is not is reported. -/
theorem judged_ofEntries (hp : Plain (.dict entries)) :
    Checked.Judged (Place.Good entries) (Place.Complaint origin entries) Place.all
      (ofEntries origin entries) := by
  have hd := hp.distinctKeys
  rw [ofEntries_eq]
  exact ((judged_port hd).both
    ((judged_workers hd).both ((judged_maxLogLevel hp).both (judged_pool hp)))).map

end Configuration

end AgentControl
