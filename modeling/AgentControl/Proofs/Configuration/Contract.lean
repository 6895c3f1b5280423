import AgentControl.Configuration.Wire
import AgentControl.Proofs.Value.Mapping

/-! # The wire contract

What a mapping must hold to be a configuration, said field by field and without regard to the order
of its entries, and what there is to report of one that is none. A field, or a field of a pool given
as a mapping, is a place that is good or bad by itself.
-/

namespace AgentControl

open Value (Entries DistinctKeys Plain)

namespace FieldName

variable {f : FieldName} {entries : Entries} {k : String} {v : Value}
  {r s : Option (String × Value)}

/-- What a mapping gives for a field, with the key it stands under: the entry under the wire name
where there is one, else the entry under the library's own name. -/
inductive Takes (f : FieldName) (entries : Entries) : Option (String × Value) → Prop where
  | wire {v : Value} : (.str f.wire, v) ∈ entries → Takes f entries (some (f.wire, v))
  | own {v : Value} : (∀ w, (.str f.wire, w) ∉ entries) → (.str f.own, v) ∈ entries →
      Takes f entries (some (f.own, v))
  | nothing : (∀ w, (.str f.wire, w) ∉ entries) → (∀ w, (.str f.own, w) ∉ entries) →
      Takes f entries none

theorem takes_find? : f.Takes entries (f.find? entries) := by
  unfold find?
  split
  · next h => exact .wire (Value.mem_of_lookup h)
  · next h =>
    have hw := Value.lookup_eq_none_iff.mp h
    cases ho : Value.lookup f.own entries with
    | none => exact .nothing hw (Value.lookup_eq_none_iff.mp ho)
    | some v => exact .own hw (Value.mem_of_lookup ho)

theorem takes_iff (hd : DistinctKeys entries) : f.Takes entries r ↔ f.find? entries = r := by
  constructor
  · intro h
    unfold find?
    cases h with
    | wire h => rw [(Value.lookup_eq_some_iff hd).mpr h]
    | own hw h =>
      rw [Value.lookup_eq_none_iff.mpr hw, (Value.lookup_eq_some_iff hd).mpr h]
      rfl
    | nothing hw ho =>
      rw [Value.lookup_eq_none_iff.mpr hw, Value.lookup_eq_none_iff.mpr ho]
      rfl
  · rintro rfl
    exact takes_find?

theorem Takes.unique (hd : DistinctKeys entries) (h : f.Takes entries r) (h' : f.Takes entries s) :
    r = s :=
  ((takes_iff hd).mp h).symm.trans ((takes_iff hd).mp h')

theorem Takes.mem (h : f.Takes entries (some (k, v))) : (.str k, v) ∈ entries := by
  cases h with
  | wire h => exact h
  | own _ h => exact h

theorem Takes.plain (hp : Plain (.dict entries)) (h : f.Takes entries (some (k, v))) : v.Plain :=
  hp.of_mem h.mem

theorem Takes.key (h : f.Takes entries (some (k, v))) : k = f.wire ∨ k = f.own := by
  cases h with
  | wire _ => exact Or.inl rfl
  | own _ _ => exact Or.inr rfl

/-- The field holds an integer within a range. -/
def HasInteger (f : FieldName) (entries : Entries) (range : Int → Prop) : Prop :=
  ∃ k n, f.Takes entries (some (k, .int n)) ∧ range n

theorem hasInteger_iff {range : Int → Prop} (hd : DistinctKeys entries)
    (ht : f.Takes entries (some (k, v))) :
    f.HasInteger entries range ↔ ∃ n, v = .int n ∧ range n := by
  constructor
  · rintro ⟨l, n, h, hn⟩
    cases ht.unique hd h
    exact ⟨n, rfl, hn⟩
  · rintro ⟨n, rfl, hn⟩
    exact ⟨k, n, ht, hn⟩

theorem not_hasInteger {range : Int → Prop} (hd : DistinctKeys entries)
    (ht : f.Takes entries none) : ¬ f.HasInteger entries range := by
  rintro ⟨k, n, h, -⟩
  cases ht.unique hd h

/-- What is wrong with a field that does not, and the key it is reported at. -/
inductive IntegerFault (f : FieldName) (entries : Entries) (range : Int → Prop) (why : Refusal) :
    String → Cause → Prop where
  | missing : f.Takes entries none → IntegerFault f entries range why f.wire .missing
  | notInteger {k : String} {v : Value} : f.Takes entries (some (k, v)) → (∀ n, v ≠ .int n) →
      IntegerFault f entries range why k .notInteger
  | outOfRange {k : String} {n : Int} : f.Takes entries (some (k, .int n)) → ¬ range n →
      IntegerFault f entries range why k (.refused why)

theorem IntegerFault.key {range : Int → Prop} {why : Refusal} {c : Cause}
    (h : f.IntegerFault entries range why k c) : k = f.wire ∨ k = f.own := by
  cases h with
  | missing _ => exact Or.inl rfl
  | notInteger ht _ => exact ht.key
  | outOfRange ht _ => exact ht.key

end FieldName

/-! ## What a mapping holds -/

/-- The pool whose numbers a mapping holds. -/
structure ConnectionPool.HeldBy (p : ConnectionPool) (entries : Entries) : Prop where
  checkInterval : ∃ k, FieldName.checkInterval.Takes entries (some (k, .int p.checkInterval))
  fillInterval : ∃ k, FieldName.fillInterval.Takes entries (some (k, .int p.fillInterval))
  maxPoolSize : ∃ k, FieldName.maxPoolSize.Takes entries (some (k, .int p.maxPoolSize))

/-- The level that a value stands for: null for none, else a level or its name. -/
inductive LevelOf : Value → Option LogLevel → Prop where
  | unset : LevelOf .null none
  | level {l : LogLevel} : LevelOf (.level l) (some l)
  | name {l : LogLevel} : LevelOf (.str l.name) (some l)
  | bytes {bs : List UInt8} {l : LogLevel} : Utf8.decode? bs = some l.name →
      LevelOf (.bytes bs) (some l)

/-- The pool that a value stands for: null for none, else a pool or a mapping of its numbers. -/
inductive PoolOf : Value → Option ConnectionPool → Prop where
  | unset : PoolOf .null none
  | pool {p : ConnectionPool} : PoolOf (.pool p) (some p)
  | dict {entries : Entries} {p : ConnectionPool} : p.HeldBy entries →
      PoolOf (.dict entries) (some p)

/-- What a mapping gives for a field that it need not hold. -/
def FieldName.Gives {α : Type} (f : FieldName) (entries : Entries)
    (R : Value → Option α → Prop) (a : Option α) : Prop :=
  (f.Takes entries none ∧ a = none) ∨ ∃ k v, f.Takes entries (some (k, v)) ∧ R v a

namespace Configuration

/-- The configuration whose values a mapping holds. -/
structure HeldBy (c : Configuration) (entries : Entries) : Prop where
  port : ∃ k, FieldName.port.Takes entries (some (k, .int c.port))
  workers : ∃ k, FieldName.workers.Takes entries (some (k, .int c.workers))
  maxLogLevel : FieldName.maxLogLevel.Gives entries LevelOf c.maxLogLevel
  pool : FieldName.pool.Gives entries PoolOf c.pool

end Configuration

/-! ## Places -/

inductive PoolField where
  | checkInterval
  | fillInterval
  | maxPoolSize
deriving DecidableEq, Repr

def PoolField.all : List PoolField := [checkInterval, fillInterval, maxPoolSize]

def PoolField.name : PoolField → FieldName
  | checkInterval => .checkInterval
  | fillInterval => .fillInterval
  | maxPoolSize => .maxPoolSize

/-- The places of a mapping that are good or bad by themselves. -/
inductive Place where
  | port
  | workers
  | maxLogLevel
  | pool
  | inPool (f : PoolField)
deriving DecidableEq, Repr

/-- All places, in the order of the fields. -/
def Place.all : List Place := [port, workers, maxLogLevel, pool] ++ PoolField.all.map inPool

namespace Place

theorem mem_all (p : Place) : p ∈ all := by
  cases p with
  | inPool f => cases f <;> decide
  | _ => decide

/-- When a place of plain data is good. The fields of a pool count where the pool is a mapping. -/
def Good (entries : Entries) : Place → Prop
  | port => FieldName.port.HasInteger entries fun n => 1 ≤ n ∧ n ≤ 65535
  | workers => FieldName.workers.HasInteger entries fun n => 1 ≤ n
  | maxLogLevel =>
      FieldName.maxLogLevel.Takes entries none ∨
        (∃ k, FieldName.maxLogLevel.Takes entries (some (k, .null))) ∨
        ∃ k l, FieldName.maxLogLevel.Takes entries (some (k, .str (LogLevel.name l)))
  | pool =>
      FieldName.pool.Takes entries none ∨ (∃ k, FieldName.pool.Takes entries (some (k, .null))) ∨
        ∃ k inner, FieldName.pool.Takes entries (some (k, .dict inner))
  | inPool f =>
      ∀ k inner, FieldName.pool.Takes entries (some (k, .dict inner)) →
        f.name.HasInteger inner fun n => 0 ≤ n

variable {entries : Entries} {k : String} {v : Value}

theorem good_maxLogLevel_iff (hd : DistinctKeys entries)
    (ht : FieldName.maxLogLevel.Takes entries (some (k, v))) :
    Good entries .maxLogLevel ↔ v = .null ∨ ∃ l, v = .str (LogLevel.name l) := by
  constructor
  · rintro (h | ⟨j, h⟩ | ⟨j, l, h⟩)
    · cases ht.unique hd h
    · cases ht.unique hd h
      exact Or.inl rfl
    · cases ht.unique hd h
      exact Or.inr ⟨l, rfl⟩
  · rintro (rfl | ⟨l, rfl⟩)
    · exact Or.inr (Or.inl ⟨k, ht⟩)
    · exact Or.inr (Or.inr ⟨k, l, ht⟩)

theorem good_pool_iff (hd : DistinctKeys entries)
    (ht : FieldName.pool.Takes entries (some (k, v))) :
    Good entries .pool ↔ v = .null ∨ ∃ inner, v = .dict inner := by
  constructor
  · rintro (h | ⟨j, h⟩ | ⟨j, inner, h⟩)
    · cases ht.unique hd h
    · cases ht.unique hd h
      exact Or.inl rfl
    · cases ht.unique hd h
      exact Or.inr ⟨inner, rfl⟩
  · rintro (rfl | ⟨inner, rfl⟩)
    · exact Or.inr (Or.inl ⟨k, ht⟩)
    · exact Or.inr (Or.inr ⟨k, inner, ht⟩)

/-- Where no mapping stands for the pool, there is nothing to say of the fields in it. -/
theorem good_inPool (h : ∀ k inner, ¬ FieldName.pool.Takes entries (some (k, .dict inner))) :
    ∀ p ∈ PoolField.all.map inPool, Good entries p := by
  intro p hp
  obtain ⟨f, -, rfl⟩ := List.mem_map.mp hp
  exact fun k inner ht => absurd ht (h k inner)

/-- What there is to say of a place that is not good, and where it says so. -/
inductive Complaint (origin : Origin) (entries : Entries) : Place → Location → Cause → Prop where
  | port {k : String} {c : Cause} :
      FieldName.port.IntegerFault entries (fun n => 1 ≤ n ∧ n ≤ 65535) .portRange k c →
      Complaint origin entries .port [.key k] c
  | workers {k : String} {c : Cause} :
      FieldName.workers.IntegerFault entries (fun n => 1 ≤ n) .noWorkers k c →
      Complaint origin entries .workers [.key k] c
  | maxLogLevel {k : String} {v : Value} : FieldName.maxLogLevel.Takes entries (some (k, v)) →
      v ≠ .null → (∀ l, v ≠ .str (LogLevel.name l)) →
      Complaint origin entries .maxLogLevel [.key k] .notLevel
  | pool {k : String} {v : Value} : FieldName.pool.Takes entries (some (k, v)) → v ≠ .null →
      (∀ inner, v ≠ .dict inner) →
      Complaint origin entries .pool [.key k] (origin.wrongModel .pool)
  | inPool {k k' : String} {inner : Entries} {f : PoolField} {c : Cause} :
      FieldName.pool.Takes entries (some (k, .dict inner)) →
      f.name.IntegerFault inner (fun n => 0 ≤ n) .negative k' c →
      Complaint origin entries (.inPool f) [.key k, .key k'] c

end Place

end AgentControl
