import AgentControl.Proofs.Configuration.Decoding
import AgentControl.Proofs.Json.Denotation
import AgentControl.Proofs.Json.RoundTrip

/-! # Reading back what was printed

The wire form of a configuration holds that configuration, with what is unset left out, and its text
is read back to the same tree at every indent. So a configuration survives its own JSON text, as
long as the reader does not refuse one of its integers for its digits.
-/

namespace AgentControl

variable {c : Configuration} {n : ℕ}

namespace Configuration

/-- The integers of a configuration. -/
def numbers (c : Configuration) : List ℕ :=
  c.port :: c.workers :: match c.pool with
    | none => []
    | some p => [p.checkInterval, p.fillInterval, p.maxPoolSize]

end Configuration

theorem Legible.readable {d : ℕ} (h : Legible n) : Json.Readable d (.int n) := by
  refine .int ?_
  rwa [← String.length_toList, Decimal.ofInt_natCast]

theorem ConnectionPool.readable_toWire {d : ℕ} {p : ConnectionPool} (h₁ : Legible p.checkInterval)
    (h₂ : Legible p.fillInterval) (h₃ : Legible p.maxPoolSize) :
    Json.Readable (d + 1) p.toWire := by
  refine .object ?_
  simp only [List.forall_mem_cons]
  exact ⟨h₁.readable, h₂.readable, h₃.readable, List.forall_mem_nil _⟩

theorem ConnectionPool.HeldBy.legible {p : ConnectionPool} {entries : Value.Entries}
    (hp : p.HeldBy entries) (h : ∀ (k : Value) (n : ℕ), (k, .int n) ∈ entries → Legible n) :
    ∀ n ∈ [p.checkInterval, p.fillInterval, p.maxPoolSize], Legible n := by
  obtain ⟨⟨k₁, h₁⟩, ⟨k₂, h₂⟩, ⟨k₃, h₃⟩⟩ := hp
  simp only [List.forall_mem_cons]
  exact ⟨h _ _ h₁.mem, h _ _ h₂.mem, h _ _ h₃.mem, List.forall_mem_nil _⟩

/-- The numbers of a configuration are no longer than those that hold it. -/
theorem Configuration.HeldBy.legible {entries : Value.Entries} (hc : c.HeldBy entries)
    (h : ∀ (k : Value) (n : ℕ), (k, .int n) ∈ entries → Legible n)
    (hp : ∀ (k v : Value) (p : ConnectionPool), (k, v) ∈ entries → PoolOf v (some p) →
      ∀ n ∈ [p.checkInterval, p.fillInterval, p.maxPoolSize], Legible n) :
    ∀ n ∈ c.numbers, Legible n := by
  obtain ⟨⟨k₁, h₁⟩, ⟨k₂, h₂⟩, -, hpool⟩ := hc
  refine List.forall_mem_cons.mpr ⟨h _ _ h₁.mem, List.forall_mem_cons.mpr ⟨h _ _ h₂.mem, ?_⟩⟩
  cases hq : c.pool with
  | none => exact List.forall_mem_nil _
  | some p =>
    rw [hq] at hpool
    rcases hpool with ⟨-, hn⟩ | ⟨k, v, ht, hv⟩
    · cases hn
    · exact hp _ v p ht.mem hv

/-- The entries of a pool's wire form. -/
def ConnectionPool.wireEntries (p : ConnectionPool) : Value.Entries :=
  [(.str FieldName.checkInterval.wire, .int p.checkInterval),
    (.str FieldName.fillInterval.wire, .int p.fillInterval),
    (.str FieldName.maxPoolSize.wire, .int p.maxPoolSize)]

theorem ConnectionPool.heldBy_wireEntries {p : ConnectionPool} : p.HeldBy p.wireEntries :=
  ⟨⟨_, .wire (by simp [wireEntries])⟩, ⟨_, .wire (by simp [wireEntries])⟩,
    ⟨_, .wire (by simp [wireEntries])⟩⟩

namespace Configuration

theorem readable_toWire (h : ∀ n ∈ c.numbers, Legible n) :
    Json.Readable Json.maxDepth c.toWire := by
  obtain ⟨port, workers, level, pool, _, _, _⟩ := c
  refine .object ?_
  simp only [numbers, List.forall_mem_cons] at h
  obtain ⟨h₁, h₂, h⟩ := h
  simp only [setMembers, List.forall_mem_cons, List.forall_mem_append]
  refine ⟨h₁.readable, h₂.readable, ?_, ?_⟩
  · cases level with
    | none => exact List.forall_mem_nil _
    | some l => exact List.forall_mem_singleton.mpr .str
  · cases pool with
    | none => exact List.forall_mem_nil _
    | some p =>
      simp only [List.forall_mem_cons] at h
      obtain ⟨h₃, h₄, h₅, _⟩ := h
      exact List.forall_mem_singleton.mpr (ConnectionPool.readable_toWire h₃ h₄ h₅)

/-- The entries of the wire form, where unset fields are absent. -/
def wireEntries (c : Configuration) : Value.Entries :=
  (.str FieldName.port.wire, .int c.port) :: (.str FieldName.workers.wire, .int c.workers) ::
    (match c.maxLogLevel with
      | none => []
      | some l => [(.str FieldName.maxLogLevel.wire, .str l.name)]) ++
    (match c.pool with
      | none => []
      | some p => [(.str FieldName.pool.wire, .dict p.wireEntries)])

theorem toValue_toWire : c.toWire.toValue = .dict c.wireEntries := by
  obtain ⟨port, workers, level, pool, _, _, _⟩ := c
  cases level <;> cases pool <;> rfl

theorem plain_wireEntries : Value.Plain (.dict c.wireEntries) := by
  rw [← toValue_toWire]
  exact Json.denotes_toValue.plain

theorem heldBy_wireEntries : c.HeldBy c.wireEntries := by
  obtain ⟨port, workers, level, pool, _, _, _⟩ := c
  refine ⟨⟨_, .wire (by simp [wireEntries])⟩, ⟨_, .wire (by simp [wireEntries])⟩, ?_, ?_⟩
  · cases level with
    | none => cases pool <;> exact Or.inl ⟨FieldName.takes_find?, rfl⟩
    | some l => exact Or.inr ⟨_, _, .wire (by simp [wireEntries]), .name⟩
  · cases pool with
    | none => cases level <;> exact Or.inl ⟨FieldName.takes_find?, rfl⟩
    | some p =>
      refine Or.inr ⟨_, _, .wire ?_, .dict ConnectionPool.heldBy_wireEntries⟩
      simp [wireEntries]

/-- A configuration of `10 ^ k` workers and a pool of zeros. -/
def longConfiguration (k : ℕ) : Configuration :=
  ⟨65535, 10 ^ k, some .trace, some ⟨0, 0, 0⟩, by decide, by decide, Nat.one_le_pow _ _ (by decide)⟩

theorem legible_long {k : ℕ} (hk : k < Decimal.maxDigits) :
    ∀ n ∈ (longConfiguration k).numbers, Legible n := by
  show ∀ n ∈ [65535, 10 ^ k, 0, 0, 0], Legible n
  simp only [List.forall_mem_cons]
  exact ⟨by decide, legible_pow_iff.mpr hk, by decide, by decide, by decide, List.forall_mem_nil _⟩

end Configuration

end AgentControl
