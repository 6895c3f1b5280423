import AgentControl.Proofs.Agent.Content
import AgentControl.Proofs.Decimal.Numeral

/-! # What a form is read as

An input holds blanks only, an integer, or something else. Where all of them can be read, the form
is decoded as the mapping of the integers, the level and the pool that are there, so it is a
configuration exactly where it shows that configuration. Where some cannot, each of these is
reported and nothing else.
-/

namespace AgentControl

open Value (Entries)

variable {c : Configuration} {s : FormContent} {f : FormField} {o : Option ℤ} {n : ℤ}
  {number : FormField → Option ℤ} {level : Option LogLevel}

namespace FormContent

/-! ## Inputs -/

/-- An input of nothing but blanks. -/
def Blank (s : FormContent) (f : FormField) : Prop := Text.strip (s.text f) = ""

/-- What an input holds, blanks around it aside: nothing, or the integer that it writes. -/
inductive Holds (s : FormContent) (f : FormField) : Option ℤ → Prop where
  | nothing : s.Blank f → Holds s f none
  | integer {n : ℤ} : ¬ s.Blank f → Decimal.Writes (Text.strip (s.text f)).toList n →
      Holds s f (some n)

/-- An input that is blank or writes an integer. -/
def Readable (s : FormContent) (f : FormField) : Prop := ∃ o, s.Holds f o

theorem blank_iff : s.Blank f ↔ Text.trimBy Text.isBlank (s.text f).toList = [] := by
  rw [Blank, Text.strip, String.ofList_eq_empty_iff]

theorem parse_trimmed {cs : List Char} : Decimal.parse 10 (Text.trimBy Text.isBlank cs) = .ok n ↔
    Decimal.Writes (Text.trimBy Text.isBlank cs) n := by
  have ht : Text.Trimmed Text.isSpace (Text.trimBy Text.isBlank cs) :=
    Text.trimmed_trimBy.mono fun _ => Text.isSpace_of_isBlank
  rw [Decimal.parse_eq_ok_iff, ht.trimBy_eq]

theorem number_eq_ok_iff : s.number f = .ok o ↔ s.Holds f o := by
  unfold number
  dsimp only
  split
  · next hb =>
    have hb : s.Blank f := blank_iff.mpr (List.isEmpty_iff.mp hb)
    constructor
    · intro h
      obtain rfl := Except.ok.inj h
      exact .nothing hb
    · intro h
      cases h with
      | nothing _ => rfl
      | integer hn _ => exact absurd hb hn
  · next hb =>
    have hb : ¬ s.Blank f := fun h => hb (List.isEmpty_iff.mpr (blank_iff.mp h))
    have hw (n : ℤ) : Decimal.parse 10 (Text.trimBy Text.isBlank (s.text f).toList) = .ok n ↔
        Decimal.Writes (Text.strip (s.text f)).toList n := by
      rw [parse_trimmed, Text.strip, String.toList_ofList]
    constructor
    · intro h
      split at h
      · next n hp =>
        obtain rfl := Except.ok.inj h
        exact .integer hb ((hw n).mp hp)
      · cases h
    · intro h
      cases h with
      | nothing h => exact absurd h hb
      | integer _ h => rw [(hw _).mpr h]

/-! ## Inputs that cannot be read -/

theorem readable_iff : s.Readable f ↔ ∃ o, s.number f = .ok o :=
  exists_congr fun _ => number_eq_ok_iff.symm

end FormContent

/-- Where an input that cannot be read is reported. -/
def FormField.reportedAt : FormField → String
  | port => "agentServerPort"
  | workers => "workerThreadNumber"
  | checkInterval => "connectionPoolConfiguration.checkInterval"
  | fillInterval => "connectionPoolConfiguration.fillInterval"
  | maxPoolSize => "connectionPoolConfiguration.maxPoolSize"

theorem FormField.place_eq (f : FormField) : f.place = f.reportedAt := by
  cases f <;> decide

namespace FormContent

theorem read_of_not_readable (h : ∃ f, ¬ s.Readable f) : ∃ e, s.read = .error e ∧
    Selected s.Readable (fun f x => x = (f.reportedAt, "Input should be a valid integer"))
      FormField.all e.errors := by
  have hn : s.unreadable FormField.all ≠ [] := by
    obtain ⟨f, hf⟩ := h
    intro hu
    exact hf (readable_iff.mpr (unreadable_eq_nil_iff.mp hu f f.mem_all))
  refine ⟨⟨(s.unreadable FormField.all).map fun f => (f.place, Cause.notInteger.message), []⟩,
    ?_, ?_⟩
  · unfold read
    split
    · next hu => exact absurd hu hn
    · rfl
  · simp only [FormField.place_eq]
    refine Selected.filter_map fun f _ => ?_
    rw [readable_iff]
    cases s.number f <;> simp

/-! ## Mappings of what is there -/

/-- The mapping of the names that have a value. -/
def present (fields : List (String × Option Value)) : Entries :=
  fields.filterMap fun (k, o) => o.map fun v => (.str k, v)

theorem present_append {fields more : List (String × Option Value)} :
    present (fields ++ more) = present fields ++ present more :=
  List.filterMap_append

theorem lookup_present {k : String} {fields : List (String × Option Value)} :
    Value.lookup k (present fields) = fields.findSome? fun (l, o) => if l = k then o else none := by
  induction fields with
  | nil => rfl
  | cons field fields ih =>
    obtain ⟨l, o⟩ := field
    cases o with
    | none => simpa [present] using ih
    | some v =>
      by_cases h : l = k
      · simp [present, Value.lookup, h]
      · simpa [present, Value.lookup, h] using ih

/-- The mapping of a pool, where one of its integers is there. -/
def poolOf (number : FormField → Option ℤ) : Option Value :=
  if number .checkInterval = none ∧ number .fillInterval = none ∧ number .maxPoolSize = none
  then none
  else some (.dict (present
    [("checkInterval", (number .checkInterval).map .int),
      ("fillInterval", (number .fillInterval).map .int),
      ("maxPoolSize", (number .maxPoolSize).map .int)]))

/-- The mapping of the integers that are there, of a level if one is chosen, and of a
pool if there is one. -/
def mappingOf (number : FormField → Option ℤ) (level : Option LogLevel) : Entries :=
  present
    [("agentServerPort", (number .port).map .int),
      ("workerThreadNumber", (number .workers).map .int), ("maxLogLevel", level.map .level),
      ("connectionPoolConfiguration", poolOf number)]

theorem entries_of_holds {fields : List FormField} (h : ∀ f, s.Holds f (number f)) :
    s.entries fields = present (fields.map fun f => (f.wire, (number f).map .int)) := by
  rw [entries_of_number fun f _ => number_eq_ok_iff.mpr (h f), present, List.filterMap_map]
  simp only [Function.comp_def, Option.map_map]

theorem levelEntries_eq : s.levelEntries = present [("maxLogLevel", s.level.map .level)] := by
  unfold levelEntries
  cases s.level <;> rfl

theorem poolEntries_of_holds (h : ∀ f, s.Holds f (number f)) :
    s.poolEntries = present [("connectionPoolConfiguration", poolOf number)] := by
  have hp : FormField.poolFields.map (fun f => (f.wire, (number f).map Value.int)) =
      [("checkInterval", (number .checkInterval).map .int),
        ("fillInterval", (number .fillInterval).map .int),
        ("maxPoolSize", (number .maxPoolSize).map .int)] := rfl
  rw [poolEntries, entries_of_holds h, hp, poolOf]
  cases number .checkInterval <;> cases number .fillInterval <;> cases number .maxPoolSize <;> rfl

/-- Where every input is read, the mapping of what they hold is sent. -/
theorem wire_of_holds (h : ∀ f, s.Holds f (number f)) :
    s.wire = .dict (mappingOf number s.level) := by
  rw [wire, entries_of_holds h, levelEntries_eq, poolEntries_of_holds h, ← present_append,
    ← present_append]
  rfl

theorem read_of_holds (h : ∀ f, s.Holds f (number f)) :
    s.read = Configuration.fromWire (.dict (mappingOf number s.level)) := by
  have hu : s.unreadable FormField.all = [] :=
    unreadable_eq_nil_iff.mpr fun f _ => ⟨_, number_eq_ok_iff.mpr (h f)⟩
  rw [read, hu, wire_of_holds h]

/-! ## Decoding what is there -/

section

variable {f : FieldName} {entries : Entries} {v : Option Value} {m : ℕ} {p : ConnectionPool}
  {pool : Option ConnectionPool}

theorem exists_find?_int_iff (h : f.find? entries = (o.map Value.int).map (Prod.mk f.wire)) :
    (∃ k, f.find? entries = some (k, .int m)) ↔ o = some (m : ℤ) := by
  rw [h]
  cases o <;> simp

theorem ofEntries_pool_eq_ok_iff {a b d : Option ℤ} :
    ConnectionPool.ofEntries (present
        [("checkInterval", a.map .int), ("fillInterval", b.map .int),
          ("maxPoolSize", d.map .int)]) = .ok p ↔
      a = some (p.checkInterval : ℤ) ∧ b = some (p.fillInterval : ℤ) ∧
        d = some (p.maxPoolSize : ℤ) := by
  rw [ConnectionPool.ofEntries_eq_ok_iff]
  refine and_congr (exists_find?_int_iff ?_)
    (and_congr (exists_find?_int_iff ?_) (exists_find?_int_iff ?_)) <;>
    simp only [FieldName.find?, lookup_present]
  · cases a <;> rfl
  · cases b <;> rfl
  · cases d <;> rfl

theorem optional_pool_eq_ok_iff :
    FieldName.pool.optional (ConnectionPool.checkOptional .data) (mappingOf number level) =
        .ok pool ↔
      number .checkInterval = pool.map (fun p => (p.checkInterval : ℤ)) ∧
        number .fillInterval = pool.map (fun p => (p.fillInterval : ℤ)) ∧
          number .maxPoolSize = pool.map (fun p => (p.maxPoolSize : ℤ)) := by
  have hf : FieldName.pool.find? (mappingOf number level) =
      (poolOf number).map (Prod.mk FieldName.pool.wire) := by
    simp only [FieldName.find?, mappingOf, lookup_present]
    cases poolOf number <;> rfl
  rw [FieldName.optional_eq_ok_iff, hf, poolOf]
  split
  · next hn =>
    obtain ⟨ha, hb, hd⟩ := hn
    cases pool <;> simp [ha, hb, hd]
  · next hn =>
    have hc : ConnectionPool.checkOptional .data (.dict (present
        [("checkInterval", (number .checkInterval).map .int),
          ("fillInterval", (number .fillInterval).map .int),
          ("maxPoolSize", (number .maxPoolSize).map .int)])) = .ok pool ↔
        ∃ p : ConnectionPool, (number .checkInterval = some (p.checkInterval : ℤ) ∧
          number .fillInterval = some (p.fillInterval : ℤ) ∧
            number .maxPoolSize = some (p.maxPoolSize : ℤ)) ∧
          some p = pool := by
      simp only [← ofEntries_pool_eq_ok_iff]
      exact Checked.map_eq_ok_iff
    cases pool with
    | none => simp [hc, hn]
    | some p => simp [hc]

end

theorem fromWire_mappingOf : Configuration.fromWire (.dict (mappingOf number level)) = .ok c ↔
    level = c.maxLogLevel ∧ ∀ f, number f = (f.number? c).map fun n : ℕ => (n : ℤ) := by
  have hport : FieldName.port.find? (mappingOf number level) =
      ((number .port).map Value.int).map (Prod.mk FieldName.port.wire) := by
    simp only [FieldName.find?, mappingOf, lookup_present]
    cases number .port <;> rfl
  have hworkers : FieldName.workers.find? (mappingOf number level) =
      ((number .workers).map Value.int).map (Prod.mk FieldName.workers.wire) := by
    simp only [FieldName.find?, mappingOf, lookup_present]
    cases number .workers <;> rfl
  have hlevel : FieldName.maxLogLevel.optional checkLevel (mappingOf number level) = .ok level := by
    rw [FieldName.optional]
    simp only [FieldName.find?, mappingOf, lookup_present]
    cases level <;> rfl
  have hw : Configuration.fromWire (.dict (mappingOf number level)) = .ok c ↔
      Configuration.ofEntries .data (mappingOf number level) = .ok c :=
        Configuration.orError_eq_ok_iff
  rw [hw, Configuration.ofEntries_eq_ok_iff, exists_find?_int_iff hport,
    exists_find?_int_iff hworkers, hlevel, optional_pool_eq_ok_iff, Except.ok.injEq]
  constructor
  · rintro ⟨hp, hw, hl, ha, hb, hd⟩
    refine ⟨hl, fun f => ?_⟩
    cases f with
    | port => exact hp
    | workers => exact hw
    | checkInterval => rw [ha, FormField.number?, Option.map_map]; rfl
    | fillInterval => rw [hb, FormField.number?, Option.map_map]; rfl
    | maxPoolSize => rw [hd, FormField.number?, Option.map_map]; rfl
  · rintro ⟨hl, hn⟩
    refine ⟨hn .port, hn .workers, hl, ?_, ?_, ?_⟩ <;>
      rw [hn, FormField.number?, Option.map_map] <;> rfl

/-! ## Reading -/

theorem readable_of_read (h : s.read = .ok c) (f : FormField) : s.Readable f := by
  by_contra hf
  obtain ⟨e, he, -⟩ := read_of_not_readable ⟨f, hf⟩
  cases h.symm.trans he

/-- A form is read as the configuration that it shows. -/
theorem read_eq_ok_iff : s.read = .ok c ↔
    c.maxLogLevel = s.level ∧ ∀ f, s.Holds f ((f.number? c).map fun n : ℕ => (n : ℤ)) := by
  constructor
  · intro h
    choose number hn using readable_of_read h
    rw [read_of_holds hn, fromWire_mappingOf] at h
    exact ⟨h.1.symm, fun f => h.2 f ▸ hn f⟩
  · rintro ⟨hl, hn⟩
    rw [read_of_holds hn, fromWire_mappingOf]
    exact ⟨hl.symm, fun _ => rfl⟩

/-- The inputs of a pool show a pool or none where all of them hold natural
numbers or all are blank. -/
theorem exists_pool_iff :
    (∃ pool : Option ConnectionPool,
      s.Holds .checkInterval ((pool.map (·.checkInterval)).map fun n : ℕ => (n : ℤ)) ∧
        s.Holds .fillInterval ((pool.map (·.fillInterval)).map fun n : ℕ => (n : ℤ)) ∧
          s.Holds .maxPoolSize ((pool.map (·.maxPoolSize)).map fun n : ℕ => (n : ℤ))) ↔
      (∀ f ∈ FormField.poolFields, s.Holds f none) ∨
        ∀ f ∈ FormField.poolFields, ∃ n, s.Holds f (some n) ∧ 0 ≤ n := by
  simp only [FormField.poolFields, List.forall_mem_cons, List.not_mem_nil, false_imp_iff,
    implies_true, and_true]
  constructor
  · rintro ⟨pool, ha, hb, hd⟩
    cases pool with
    | none => exact Or.inl ⟨ha, hb, hd⟩
    | some p =>
      exact Or.inr ⟨⟨_, ha, Int.natCast_nonneg _⟩, ⟨_, hb, Int.natCast_nonneg _⟩,
        ⟨_, hd, Int.natCast_nonneg _⟩⟩
  · rintro (h | ⟨⟨a, ha, ha'⟩, ⟨b, hb, hb'⟩, ⟨d, hd, hd'⟩⟩)
    · exact ⟨none, h⟩
    · obtain ⟨a, rfl⟩ := Int.eq_ofNat_of_zero_le ha'
      obtain ⟨b, rfl⟩ := Int.eq_ofNat_of_zero_le hb'
      obtain ⟨d, rfl⟩ := Int.eq_ofNat_of_zero_le hd'
      exact ⟨some ⟨a, b, d⟩, ha, hb, hd⟩

/-- Numbers within their ranges, in all inputs of the pool or in none, are a configuration. -/
theorem exists_read_iff : (∃ c, s.read = .ok c) ↔
    (∃ n, s.Holds .port (some n) ∧ 1 ≤ n ∧ n ≤ 65535) ∧ (∃ n, s.Holds .workers (some n) ∧ 1 ≤ n) ∧
      ((∀ f ∈ FormField.poolFields, s.Holds f none) ∨
        ∀ f ∈ FormField.poolFields, ∃ n, s.Holds f (some n) ∧ 0 ≤ n) := by
  rw [← exists_pool_iff]
  simp only [read_eq_ok_iff]
  constructor
  · rintro ⟨c, -, h⟩
    have h₁ := c.one_le_port
    have h₂ := c.port_le
    have h₃ := c.one_le_workers
    exact ⟨⟨c.port, h .port, by omega, by omega⟩, ⟨c.workers, h .workers, by omega⟩, c.pool,
      h .checkInterval, h .fillInterval, h .maxPoolSize⟩
  · rintro ⟨⟨port, hport, h₁, h₂⟩, ⟨workers, hworkers, h₃⟩, pool, ha, hb, hd⟩
    obtain ⟨port, rfl⟩ := Int.eq_ofNat_of_zero_le (show 0 ≤ port by omega)
    obtain ⟨workers, rfl⟩ := Int.eq_ofNat_of_zero_le (show 0 ≤ workers by omega)
    refine ⟨⟨port, workers, s.level, pool, by omega, by omega, by omega⟩, rfl, fun f => ?_⟩
    cases f with
    | port => exact hport
    | workers => exact hworkers
    | checkInterval => exact ha
    | fillInterval => exact hb
    | maxPoolSize => exact hd

/-- What a form is read as, whatever it holds. Each input that is neither blank nor an integer is an
error, in the order of the inputs and before any other. Without one, the mapping of what is there is
decoded. So the port and the workers are needed and the pool is whole or absent, and what is read is
what is shown: a number for each input that is filled and for no other. -/
theorem read_by_content (s : FormContent) :
    ((∃ f, ¬ s.Readable f) → ∃ e, s.read = .error e ∧
      Selected s.Readable (fun f x => x = (f.reportedAt, "Input should be a valid integer"))
        [.port, .workers, .checkInterval, .fillInterval, .maxPoolSize] e.errors) ∧
    (∀ number, (∀ f, s.Holds f (number f)) →
      s.read = Configuration.fromWire (.dict (mappingOf number s.level))) ∧
    ((∃ c, s.read = .ok c) ↔
      (∃ n, s.Holds .port (some n) ∧ 1 ≤ n ∧ n ≤ 65535) ∧ (∃ n, s.Holds .workers (some n) ∧ 1 ≤ n) ∧
        ((∀ f ∈ FormField.poolFields, s.Holds f none) ∨
          ∀ f ∈ FormField.poolFields, ∃ n, s.Holds f (some n) ∧ 0 ≤ n)) ∧
    ∀ c, s.read = .ok c ↔
      c.maxLogLevel = s.level ∧ ∀ f, s.Holds f ((f.number? c).map fun n : ℕ => (n : ℤ)) :=
  ⟨read_of_not_readable, fun _ => read_of_holds, exists_read_iff, fun _ => read_eq_ok_iff⟩

/-- Integers in digits of several scripts, with signs, underscores, zeros in
front and blanks around. -/
def unusualContent : FormContent where
  text
    | .port => "\t８０８０ "
    | .workers => "+1_0"
    | .checkInterval => " -0"
    | .fillInterval => "007"
    | .maxPoolSize => "٣\n"
  level := some .warn

theorem read_by_content_unusual :
    unusualContent.read =
      .ok ⟨8080, 10, some .warn, some ⟨0, 7, 3⟩, by decide, by decide, by decide⟩ := by
  refine ((read_by_content unusualContent).2.2.2 _).mpr ⟨rfl, fun f => number_eq_ok_iff.mp ?_⟩
  cases f <;> rfl

end FormContent

end AgentControl
