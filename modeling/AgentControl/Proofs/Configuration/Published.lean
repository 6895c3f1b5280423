import AgentControl.Proofs.Configuration.FromWire
import AgentControl.Proofs.Configuration.RoundTrip
import AgentControl.Proofs.Schema.Satisfaction

/-! # The published schema and the decoder

Where fields go by their wire names, what the published schema does not say of a mapping that is
decoded are the ranges of its numbers, and nothing else.
-/

namespace AgentControl

open Value (Entries DistinctKeys Plain lookup)

variable {f : FieldName} {entries inner : Entries} {k : String} {v : Value} {range : Int → Prop}

namespace FieldName

theorem takes_wire_iff (hd : DistinctKeys entries) (h : lookup f.own entries = none) :
    f.Takes entries (some (k, v)) ↔ k = f.wire ∧ lookup f.wire entries = some v := by
  rw [takes_iff hd, find?, h]
  cases lookup f.wire entries <;> simp [eq_comm]

theorem takes_none_iff (hd : DistinctKeys entries) (h : lookup f.own entries = none) :
    f.Takes entries none ↔ lookup f.wire entries = none := by
  rw [takes_iff hd, find?, h]
  cases lookup f.wire entries <;> simp

theorem hasInteger_wire_iff (hd : DistinctKeys entries) (h : lookup f.own entries = none) :
    f.HasInteger entries range ↔ ∃ n, lookup f.wire entries = some (.int n) ∧ range n := by
  simp [HasInteger, takes_wire_iff hd h]

end FieldName

/-- The fields go by their wire names, also those of a pool. -/
structure WireNamed (entries : Entries) : Prop where
  outer : ∀ f ∈ [FieldName.port, .workers, .maxLogLevel, .pool], lookup f.own entries = none
  inner : ∀ inner, lookup FieldName.pool.wire entries = some (.dict inner) →
    ∀ f : PoolField, lookup f.name.own inner = none

/-- The numbers of a mapping are within their ranges. -/
structure InRange (entries : Entries) : Prop where
  port : ∀ n, lookup FieldName.port.wire entries = some (.int n) → 1 ≤ n ∧ n ≤ 65535
  workers : ∀ n, lookup FieldName.workers.wire entries = some (.int n) → 1 ≤ n
  pool : ∀ inner, lookup FieldName.pool.wire entries = some (.dict inner) →
    ∀ (f : PoolField) (n : Int), lookup f.name.wire inner = some (.int n) → 0 ≤ n

/-- What the schema asks of a mapping, field by field. -/
structure Described (entries : Entries) : Prop where
  port : ∃ n, lookup FieldName.port.wire entries = some (.int n)
  workers : ∃ n, lookup FieldName.workers.wire entries = some (.int n)
  maxLogLevel : ∀ v, lookup FieldName.maxLogLevel.wire entries = some v →
    v = .null ∨ ∃ l, v = .str (LogLevel.name l)
  pool : ∀ v, lookup FieldName.pool.wire entries = some v → v = .null ∨ ∃ inner, v = .dict inner ∧
    ∀ f : PoolField, ∃ n, lookup f.name.wire inner = some (.int n)

namespace Schema

/-- A mapping holds an integer under a key: the key is required, and what stands
there is an integer. -/
theorem exists_lookup_int_iff : (∃ n, lookup k entries = some (.int n)) ↔
    (∃ v, lookup k entries = some v) ∧ ∀ v, lookup k entries = some v → ∃ n, v = .int n := by
  cases lookup k entries <;> simp

theorem accepts_pool_iff {depth : Nat} : accepts definitions depth pool v = true ↔
    ∃ inner, v = .dict inner ∧ ∀ f : PoolField, ∃ n, lookup f.name.wire inner = some (.int n) := by
  rw [pool, accepts_object]
  refine exists_congr fun inner => and_congr_right fun _ => ?_
  simp only [List.forall_mem_cons, integerField, accepts_integer]
  constructor
  · rintro ⟨⟨h₁, h₂, h₃, -⟩, g₁, g₂, g₃, -⟩ f
    rw [exists_lookup_int_iff]
    cases f with
    | checkInterval => exact ⟨h₁, g₁⟩
    | fillInterval => exact ⟨h₂, g₂⟩
    | maxPoolSize => exact ⟨h₃, g₃⟩
  · intro h
    obtain ⟨h₁, g₁⟩ := exists_lookup_int_iff.mp (h .checkInterval)
    obtain ⟨h₂, g₂⟩ := exists_lookup_int_iff.mp (h .fillInterval)
    obtain ⟨h₃, g₃⟩ := exists_lookup_int_iff.mp (h .maxPoolSize)
    exact ⟨⟨h₁, h₂, h₃, List.forall_mem_nil _⟩, g₁, g₂, g₃, List.forall_mem_nil _⟩

theorem accepts_level_iff {depth : Nat} : accepts definitions depth level v = true ↔
    ∃ l, v = .str (LogLevel.name l) := by
  rw [level, accepts_enumeration]
  constructor
  · rintro ⟨name, hn, rfl⟩
    obtain ⟨l, -, rfl⟩ := List.mem_map.mp hn
    exact ⟨l, rfl⟩
  · rintro ⟨l, rfl⟩
    exact ⟨_, List.mem_map_of_mem l.mem_all, rfl⟩

theorem describes_iff : describes v = true ↔ ∃ entries, v = .dict entries ∧ Described entries := by
  have hl : definitions.lookup "LogLevel" = some level := rfl
  have hp : definitions.lookup Model.pool.title = some pool := rfl
  rw [describes, configuration, accepts_object]
  refine exists_congr fun entries => and_congr_right fun _ => ?_
  simp only [List.forall_mem_cons, integerField, accepts_integer, accepts_optional hl,
    accepts_optional hp, accepts_level_iff, accepts_pool_iff]
  constructor
  · rintro ⟨⟨h₁, h₂, -⟩, g₁, g₂, g₃, g₄, -⟩
    exact ⟨exists_lookup_int_iff.mpr ⟨h₁, g₁⟩, exists_lookup_int_iff.mpr ⟨h₂, g₂⟩, g₃, g₄⟩
  · rintro ⟨h₁, h₂, h₃, h₄⟩
    obtain ⟨h₁, g₁⟩ := exists_lookup_int_iff.mp h₁
    obtain ⟨h₂, g₂⟩ := exists_lookup_int_iff.mp h₂
    exact ⟨⟨h₁, h₂, List.forall_mem_nil _⟩, g₁, g₂, h₃, h₄, List.forall_mem_nil _⟩

end Schema

/-! ## Every place of a mapping -/

section Places

variable (hp : Plain (.dict entries)) (hn : WireNamed entries)

include hp hn

theorem WireNamed.good_port_iff : Place.Good entries .port ↔
    ∃ n, lookup FieldName.port.wire entries = some (.int n) ∧ 1 ≤ n ∧ n ≤ 65535 :=
  FieldName.hasInteger_wire_iff hp.distinctKeys (hn.outer _ (by simp))

theorem WireNamed.good_workers_iff : Place.Good entries .workers ↔
    ∃ n, lookup FieldName.workers.wire entries = some (.int n) ∧ 1 ≤ n :=
  FieldName.hasInteger_wire_iff hp.distinctKeys (hn.outer _ (by simp))

theorem WireNamed.good_maxLogLevel_iff : Place.Good entries .maxLogLevel ↔
    ∀ v, lookup FieldName.maxLogLevel.wire entries = some v →
      v = .null ∨ ∃ l, v = .str (LogLevel.name l) := by
  have ho : lookup FieldName.maxLogLevel.own entries = none := hn.outer _ (by simp)
  simp only [Place.Good, FieldName.takes_none_iff hp.distinctKeys ho,
    FieldName.takes_wire_iff hp.distinctKeys ho]
  cases lookup FieldName.maxLogLevel.wire entries <;> simp

theorem WireNamed.good_pool_iff : Place.Good entries .pool ↔
    ∀ v, lookup FieldName.pool.wire entries = some v → v = .null ∨ ∃ inner, v = .dict inner := by
  have ho : lookup FieldName.pool.own entries = none := hn.outer _ (by simp)
  simp only [Place.Good, FieldName.takes_none_iff hp.distinctKeys ho,
    FieldName.takes_wire_iff hp.distinctKeys ho]
  cases lookup FieldName.pool.wire entries <;> simp

theorem WireNamed.good_inPool_iff (f : PoolField) : Place.Good entries (.inPool f) ↔
    ∀ inner, lookup FieldName.pool.wire entries = some (.dict inner) →
      ∃ n, lookup f.name.wire inner = some (.int n) ∧ 0 ≤ n := by
  have ho : lookup FieldName.pool.own entries = none := hn.outer _ (by simp)
  have hi (inner : Entries) (h : lookup FieldName.pool.wire entries = some (.dict inner)) :
      f.name.HasInteger inner (fun n => 0 ≤ n) ↔
        ∃ n, lookup f.name.wire inner = some (.int n) ∧ 0 ≤ n :=
    FieldName.hasInteger_wire_iff (hp.of_mem (Value.mem_of_lookup h)).distinctKeys (hn.inner _ h f)
  simp only [Place.Good, FieldName.takes_wire_iff hp.distinctKeys ho]
  constructor
  · intro h inner hl
    exact (hi inner hl).mp (h _ inner ⟨rfl, hl⟩)
  · rintro h k inner ⟨-, hl⟩
    exact (hi inner hl).mpr (h inner hl)

theorem WireNamed.good_iff : (∀ p : Place, p.Good entries) ↔
    Described entries ∧ InRange entries := by
  constructor
  · intro h
    obtain ⟨n, hport, hrange⟩ := (good_port_iff hp hn).mp (h .port)
    obtain ⟨m, hworkers, hm⟩ := (good_workers_iff hp hn).mp (h .workers)
    have hinner (f : PoolField) := (good_inPool_iff hp hn f).mp (h (.inPool f))
    refine ⟨⟨⟨n, hport⟩, ⟨m, hworkers⟩, (good_maxLogLevel_iff hp hn).mp (h .maxLogLevel), ?_⟩,
      ⟨?_, ?_, ?_⟩⟩
    · intro v hv
      rcases (good_pool_iff hp hn).mp (h .pool) v hv with rfl | ⟨inner, rfl⟩
      · exact Or.inl rfl
      · refine Or.inr ⟨inner, rfl, fun f => ?_⟩
        obtain ⟨l, hl, -⟩ := hinner f inner hv
        exact ⟨l, hl⟩
    · intro i hi
      cases hport.symm.trans hi
      exact hrange
    · intro i hi
      cases hworkers.symm.trans hi
      exact hm
    · intro inner hv f i hi
      obtain ⟨l, hl, h₀⟩ := hinner f inner hv
      cases hl.symm.trans hi
      exact h₀
  · rintro ⟨hd, hr⟩ p
    cases p with
    | port =>
      obtain ⟨n, hport⟩ := hd.port
      exact (good_port_iff hp hn).mpr ⟨n, hport, hr.port n hport⟩
    | workers =>
      obtain ⟨n, hworkers⟩ := hd.workers
      exact (good_workers_iff hp hn).mpr ⟨n, hworkers, hr.workers n hworkers⟩
    | maxLogLevel => exact (good_maxLogLevel_iff hp hn).mpr hd.maxLogLevel
    | pool =>
      refine (good_pool_iff hp hn).mpr fun v hv => (hd.pool v hv).imp_right ?_
      rintro ⟨inner, rfl, -⟩
      exact ⟨inner, rfl⟩
    | inPool f =>
      refine (good_inPool_iff hp hn f).mpr fun inner hv => ?_
      rcases hd.pool _ hv with h | ⟨inner', h, hi⟩
      · cases h
      · obtain rfl := Value.dict.inj h
        obtain ⟨n, hl⟩ := hi f
        exact ⟨n, hl, hr.pool inner hv f n hl⟩

end Places

namespace Configuration

open Schema (wireDocument)

theorem lookup_pool_wireEntries (c : Configuration) :
    lookup FieldName.pool.wire c.wireEntries = c.pool.map fun p => .dict p.wireEntries := by
  obtain ⟨port, workers, level, pool, _, _, _⟩ := c
  cases level <;> cases pool <;> rfl

theorem wireNamed_wireEntries (c : Configuration) : WireNamed c.wireEntries := by
  constructor
  · obtain ⟨port, workers, level, pool, _, _, _⟩ := c
    simp only [List.forall_mem_cons]
    cases level <;> cases pool <;> exact ⟨rfl, rfl, rfl, rfl, List.forall_mem_nil _⟩
  · intro inner h f
    rw [lookup_pool_wireEntries, Option.map_eq_some_iff] at h
    obtain ⟨p, -, hp⟩ := h
    obtain rfl := Value.dict.inj hp
    cases f <;> rfl

theorem fromWire_isOk_iff (hv : v.Plain) (hn : ∀ entries, v = .dict entries → WireNamed entries) :
    (∃ c, fromWire v = .ok c) ↔
      wireDocument.Satisfies wireDocument v ∧ ∀ entries, v = .dict entries → InRange entries := by
  rw [Schema.satisfies_wireDocument_iff, Schema.describes_iff]
  by_cases hd : ∃ entries, v = .dict entries
  · obtain ⟨entries, rfl⟩ := hd
    have hw : (∃ c, fromWire (.dict entries) = .ok c) ↔ ∃ c, ofEntries .data entries = .ok c :=
      exists_congr fun _ => orError_eq_ok_iff
    rw [hw, ofEntries_isOk_iff hv, (hn entries rfl).good_iff hv]
    simp
  · have hd' : ∀ entries, v ≠ .dict entries := fun entries h => hd ⟨entries, h⟩
    have he : fromWire v = _ := congrArg orError (check_eq_fail hv hd')
    constructor
    · rintro ⟨c, hc⟩
      cases he.symm.trans hc
    · rintro ⟨⟨entries, h, -⟩, -⟩
      exact absurd h (hd' entries)

/-- Plain data under the wire names is decoded where it satisfies the published schema and its
numbers are within their ranges; and the wire form of every configuration satisfies the schema. -/
theorem decoded_iff_satisfies :
    (∀ v : Value, v.Plain → (∀ entries, v = .dict entries → WireNamed entries) →
      ((∃ c, fromWire v = .ok c) ↔
        wireDocument.Satisfies wireDocument v ∧ ∀ entries, v = .dict entries → InRange entries)) ∧
      ∀ c : Configuration, wireDocument.Satisfies wireDocument c.toWire.toValue := by
  constructor
  · intro v hv hn
    exact fromWire_isOk_iff hv hn
  · intro c
    have hn : ∀ entries, Value.dict c.wireEntries = .dict entries → WireNamed entries := by
      rintro entries h
      exact Value.dict.inj h ▸ wireNamed_wireEntries c
    have hc : fromWire (.dict c.wireEntries) = .ok c :=
      fromWire_of_heldBy plain_wireEntries heldBy_wireEntries
    rw [toValue_toWire]
    exact ((fromWire_isOk_iff plain_wireEntries hn).mp ⟨c, hc⟩).1

/-- All that the schema asks for is here, and one number of the pool is out of its range. -/
def undersizedEntries : Entries :=
  [(.str "zone", .null), (.str "workerThreadNumber", .int 4), (.str "maxLogLevel", .null),
    (.str "connectionPoolConfiguration",
      .dict [(.str "maxPoolSize", .int (-1)), (.str "checkInterval", .int 0),
        (.str "fillInterval", .int 7)]),
    (.str "agentServerPort", .int 8080)]

theorem decoded_iff_satisfies_undersized :
    Plain (.dict undersizedEntries) ∧ WireNamed undersizedEntries ∧
      wireDocument.Satisfies wireDocument (.dict undersizedEntries) ∧
      ¬ ∃ c, fromWire (.dict undersizedEntries) = .ok c := by
  have hp : Plain (.dict undersizedEntries) := by decide
  have hn : WireNamed undersizedEntries := by
    constructor
    · simp only [List.forall_mem_cons]
      exact ⟨rfl, rfl, rfl, rfl, List.forall_mem_nil _⟩
    · intro inner h f
      obtain rfl := Value.dict.inj (Option.some.inj h)
      cases f <;> rfl
  have hs : wireDocument.Satisfies wireDocument (.dict undersizedEntries) := by
    rw [Schema.satisfies_wireDocument_iff, Schema.describes_iff]
    refine ⟨_, rfl, ⟨8080, rfl⟩, ⟨4, rfl⟩, ?_, ?_⟩
    · rintro v h
      exact Or.inl (Option.some.inj h).symm
    · rintro v h
      refine Or.inr ⟨_, (Option.some.inj h).symm, fun f => ?_⟩
      cases f <;> exact ⟨_, rfl⟩
  refine ⟨hp, hn, hs, ?_⟩
  rw [decoded_iff_satisfies.1 _ hp fun entries h => Value.dict.inj h ▸ hn]
  rintro ⟨-, hr⟩
  have h₀ := (hr _ rfl).pool _ rfl .maxPoolSize (-1) rfl
  omega

end Configuration

end AgentControl
