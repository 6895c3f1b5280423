import AgentControl.Agent.Form
import AgentControl.Proofs.Configuration.FromWire
import AgentControl.Proofs.Configuration.RoundTrip

/-! # What the form holds

Filling with numbers that can be shown writes every input and the choice of level, so that nothing
of an earlier content is left, and what it writes is read as the configuration that it writes.
Whatever a form is read as, its numbers are short enough to be written again.
-/

namespace AgentControl

open Value (Entries)

variable {c : Configuration} {f g : FormField} {fields : List FormField} {n : ℕ}

namespace FormField

theorem mem_all (f : FormField) : f ∈ all := by cases f <;> decide

theorem mem_numbers (h : f.number? c = some n) : n ∈ c.numbers := by
  unfold Configuration.numbers
  cases f <;> simp only [number?, Option.some.injEq, Option.map_eq_some_iff] at h
  · simp [h]
  · simp [h]
  all_goals
    obtain ⟨p, hp, rfl⟩ := h
    simp [hp]

end FormField

namespace FormContent

variable {s : FormContent}

/-! ## Filling -/

/-- The text that shows a number of a configuration, or that there is none. -/
def shownText (c : Configuration) (f : FormField) : String :=
  ((f.number? c).map fun n : ℕ => Decimal.ofInt n).getD ""

/-- The content that shows a configuration and nothing else. -/
def ofConfiguration (c : Configuration) : FormContent := ⟨shownText c, c.maxLogLevel⟩

theorem textOf_of_legible (h : ∀ n ∈ c.numbers, Legible n) (f : FormField) :
    textOf c f = .ok (shownText c f) := by
  unfold textOf shownText
  cases hn : f.number? c with
  | none => rfl
  | some n => exact Decimal.text_of_legible (h n (FormField.mem_numbers hn))

theorem write_of_legible (h : ∀ n ∈ c.numbers, Legible n) : s.write c fields =
    ({ s with text := fun g => if g ∈ fields then shownText c g else s.text g }, none) := by
  induction fields generalizing s with
  | nil => simp [write]
  | cons f fields ih =>
    simp only [write, textOf_of_legible h f, ih, set, Prod.mk.injEq, FormContent.mk.injEq, and_true]
    funext g
    by_cases hf : g = f
    · simp [hf]
    · simp [hf]

/-- Nothing of what a form held is left once it has been filled. -/
theorem fill_eq (h : ∀ n ∈ c.numbers, Legible n) : s.fill c = (ofConfiguration c, none) := by
  simp only [fill, write_of_legible h, ofConfiguration, Prod.mk.injEq, FormContent.mk.injEq,
    and_true]
  funext g
  split
  · rfl
  · next hp =>
    have ha : g ∈ FormField.agentFields :=
      (List.mem_append.mp g.mem_all).resolve_right hp
    exact if_pos ha

/-! ## Reading -/

/-- The inputs that show a number are read as that number, and the others as empty. -/
theorem number_ofConfiguration (h : ∀ n ∈ c.numbers, Legible n) :
    (ofConfiguration c).number f = .ok ((f.number? c).map fun n : ℕ => (n : ℤ)) := by
  have ht : (ofConfiguration c).text f = shownText c f := rfl
  rw [shownText] at ht
  cases hn : f.number? c with
  | none =>
    rw [hn] at ht
    rw [number, ht]
    rfl
  | some n =>
    have hl : (Nat.toDigits 10 n).length ≤ Decimal.maxDigits := h n (FormField.mem_numbers hn)
    have hb := Text.trimBy_of_forall fun c (hc : c ∈ Nat.toDigits 10 n) =>
      Decimal.isBlank_of_range (Decimal.digit_range hc)
    have he : (Nat.toDigits 10 n).isEmpty = false :=
      List.isEmpty_eq_false_iff.mpr Nat.toDigits_ne_nil
    rw [hn, Option.map_some, Option.getD_some] at ht
    simp only [number, ht, Decimal.ofInt_natCast, hb, he, Decimal.parse_toDigits hl,
      Bool.false_eq_true, ite_false, Option.map_some]

theorem unreadable_eq_nil_iff : s.unreadable fields = [] ↔
    ∀ f ∈ fields, ∃ o, s.number f = .ok o := by
  rw [unreadable, List.filter_eq_nil_iff]
  refine forall₂_congr fun f _ => ?_
  cases s.number f <;> simp

theorem entries_of_number {number : FormField → Option ℤ}
    (h : ∀ f ∈ fields, s.number f = .ok (number f)) :
    s.entries fields = fields.filterMap fun f => (number f).map fun n => (.str f.wire, .int n) := by
  refine List.filterMap_congr fun f hf => ?_
  rw [h f hf]
  cases number f <;> rfl

theorem unreadable_ofConfiguration (h : ∀ n ∈ c.numbers, Legible n) :
    (ofConfiguration c).unreadable fields = [] :=
  unreadable_eq_nil_iff.mpr fun _ _ => ⟨_, number_ofConfiguration h⟩

theorem entries_ofConfiguration (h : ∀ n ∈ c.numbers, Legible n) :
    (ofConfiguration c).entries fields =
      fields.filterMap fun f => (f.number? c).map fun n : ℕ => (.str f.wire, .int n) := by
  rw [entries_of_number fun _ _ => number_ofConfiguration h]
  simp only [Option.map_map, Function.comp_def]

/-- The entries of what the form shows of a configuration, where a level stands for itself. -/
def shownEntries (c : Configuration) : Entries :=
  (.str FieldName.port.wire, .int c.port) :: (.str FieldName.workers.wire, .int c.workers) ::
    (match c.maxLogLevel with
      | none => []
      | some l => [(.str FieldName.maxLogLevel.wire, .level l)]) ++
    (match c.pool with
      | none => []
      | some p => [(.str FieldName.pool.wire, .dict p.wireEntries)])

theorem wire_ofConfiguration (h : ∀ n ∈ c.numbers, Legible n) :
    (ofConfiguration c).wire = .dict (shownEntries c) := by
  rw [wire, poolEntries, entries_ofConfiguration h, entries_ofConfiguration h]
  obtain ⟨port, workers, level, pool, _, _, _⟩ := c
  cases level <;> cases pool <;> rfl

theorem checkOptional_wireEntries {p : ConnectionPool} :
    ConnectionPool.checkOptional .data (.dict p.wireEntries) = .ok (some p) := by
  have hd : p.toWire.Denotes (.dict p.wireEntries) := Json.denotes_toValue
  have hp := hd.plain
  exact (ConnectionPool.checkOptional_eq_ok_iff hp.wellKeyed).mpr
    (.dict ConnectionPool.heldBy_wireEntries)

theorem ofEntries_shownEntries : Configuration.ofEntries .data (shownEntries c) = .ok c := by
  refine Configuration.ofEntries_eq_ok_iff.mpr ⟨⟨_, rfl⟩, ⟨_, rfl⟩, ?_, ?_⟩
  · obtain ⟨port, workers, level, pool, _, _, _⟩ := c
    cases level <;> cases pool <;> rfl
  · obtain ⟨port, workers, level, pool, _, _, _⟩ := c
    cases pool with
    | none => cases level <;> rfl
    | some p =>
      refine FieldName.optional_eq_ok_iff.mpr
        (Or.inr ⟨FieldName.pool.wire, _, ?_, checkOptional_wireEntries⟩)
      cases level <;> rfl

theorem read_ofConfiguration (h : ∀ n ∈ c.numbers, Legible n) :
    (ofConfiguration c).read = .ok c := by
  have hc : Configuration.fromWire (ofConfiguration c).wire = .ok c := by
    rw [wire_ofConfiguration h]
    exact Configuration.orError_eq_ok_iff.mpr ofEntries_shownEntries
  rw [read, unreadable_ofConfiguration h]
  exact hc

/-! ## What can be read -/

theorem natAbs_lt_of_number {m : ℤ} (h : s.number f = .ok (some m)) :
    m.natAbs < 10 ^ Decimal.maxDigits := by
  unfold number at h
  dsimp only at h
  split at h
  · cases h
  · split at h
    · next hp =>
      obtain rfl := Option.some.inj (Except.ok.inj h)
      exact Decimal.natAbs_lt_of_parse hp
    · cases h

theorem exists_of_mem_entries {k v : Value} (h : (k, v) ∈ s.entries fields) :
    ∃ m : ℤ, v = .int m ∧ m.natAbs < 10 ^ Decimal.maxDigits := by
  obtain ⟨f, -, hf⟩ := List.mem_filterMap.mp h
  split at hf
  · next m hm =>
    obtain rfl := (Prod.mk.inj (Option.some.inj hf)).2
    exact ⟨m, rfl, natAbs_lt_of_number hm⟩
  · cases hf

/-- What stands in the wire mapping of a form: numbers, a level, and a pool as a mapping. -/
inductive WireEntry (s : FormContent) : Value → Prop where
  | int {n : ℤ} : n.natAbs < 10 ^ Decimal.maxDigits → WireEntry s (.int n)
  | level {l : LogLevel} : WireEntry s (.level l)
  | pool : WireEntry s (.dict (s.entries FormField.poolFields))

theorem wireEntry_of_mem {entries : Entries} {k v : Value} (hw : s.wire = .dict entries)
    (h : (k, v) ∈ entries) : WireEntry s v := by
  obtain rfl := Value.dict.inj hw
  rcases List.mem_append.mp h with h | h
  · rcases List.mem_append.mp h with h | h
    · obtain ⟨m, rfl, hl⟩ := exists_of_mem_entries h
      exact .int hl
    · unfold levelEntries at h
      split at h
      · cases h
      · obtain rfl := (Prod.mk.inj (List.mem_singleton.mp h)).2
        exact .level
  · unfold poolEntries at h
    split at h
    · cases h
    · next he =>
      obtain rfl := (Prod.mk.inj (List.mem_singleton.mp h)).2
      exact .pool

theorem WireEntry.legible (h : s.WireEntry (.int (n : ℤ))) : Legible n := by
  cases h with
  | int h => exact legible_of_natAbs_lt h

theorem legible_of_mem_entries {k : Value} (h : (k, .int (n : ℤ)) ∈ s.entries fields) :
    Legible n := by
  obtain ⟨m, hm, hl⟩ := exists_of_mem_entries h
  obtain rfl := Value.int.inj hm
  exact legible_of_natAbs_lt hl

theorem WireEntry.legible_pool {v : Value} {p : ConnectionPool} (h : s.WireEntry v)
    (hv : PoolOf v (some p)) :
    ∀ n ∈ [p.checkInterval, p.fillInterval, p.maxPoolSize], Legible n := by
  cases hv with
  | pool => cases h
  | dict hp =>
    cases h with
    | pool => exact hp.legible fun _ _ => legible_of_mem_entries

/-- The numbers that a form is read as can be written again. -/
theorem legible_of_read (h : s.read = .ok c) : ∀ n ∈ c.numbers, Legible n := by
  unfold read at h
  split at h
  · rcases Configuration.heldBy_of_fromWire h with hw | ⟨entries, hw, hc⟩
    · cases hw
    · exact hc.legible (fun _ _ hm => (wireEntry_of_mem hw hm).legible)
        fun _ _ _ hm hv => (wireEntry_of_mem hw hm).legible_pool hv
  · cases h

end FormContent

/-! ## Loading -/

/-- Whatever a form held before, a configuration can be loaded, and then the form is read as that
one and nothing of what it held is left. -/
theorem Form.read_after_load (h : ∀ n ∈ c.numbers, Legible n) (s : Form) :
    (s.step (.load c)).1.content.read = .ok c ∧
      ((s.step (.load c)).1.step .read).2.configuration = some (.ok c) ∧
      (s.step (.load c)).2.raised = none ∧
      ∀ t : Form, (t.step (.load c)).1.content = (s.step (.load c)).1.content := by
  have hs (s : Form) : s.step (.load c) = ({ s with content := .ofConfiguration c }, {}) := by
    simp only [step, FormContent.fill_eq h]
  have hr : (s.step (.load c)).1.content.read = .ok c := by
    rw [hs]
    exact FormContent.read_ofConfiguration h
  refine ⟨hr, congrArg some hr, ?_, fun t => ?_⟩
  · rw [hs]
  · rw [hs, hs]

namespace Form

/-- A form with text in all its inputs and an agent that runs. -/
def staleForm : Form :=
  { content := ⟨fun _ => " 1_0 stale", some .debug⟩, agentRunning := true,
    status := ⟨"Agent running", true⟩,
    controller := ⟨true, some (Configuration.longConfiguration 2)⟩ }

theorem read_after_load_stale :
    (∀ n ∈ (Configuration.longConfiguration 4299).numbers, Legible n) ∧
      (staleForm.step (.load (Configuration.longConfiguration 4299))).1.content.read =
        .ok (Configuration.longConfiguration 4299) :=
  ⟨Configuration.legible_long (by decide),
    (read_after_load (Configuration.legible_long (by decide)) staleForm).1⟩

end Form

end AgentControl
