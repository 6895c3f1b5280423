import AgentControl.Proofs.Configuration.Agreement
import AgentControl.Proofs.Configuration.RoundTrip
import AgentControl.Proofs.Json.Size
import AgentControl.Proofs.Text.Parts

/-! # The normal form of a document

Whatever a configuration was decoded from, its own text is decoded to it again and tells it from all
others: a number that was read is short enough to be read once more. A document that is rejected has
at least one error, and each of them fits on a line.
-/

namespace AgentControl

open Value (Entries Plain)

variable {c c' : Configuration} {e : ConfigurationError}
  {bytes bytes' blanks rest rest' : List UInt8} {indent : Option ℕ}

/-! ## Numbers -/

namespace Json

variable {j : Json} {entries : Entries} {k v : Value} {n : ℕ}

theorem Short.entry (h : j.Short) (hd : j.Denotes (.dict entries)) (hm : (k, v) ∈ entries) :
    ∃ i : Json, i.Short ∧ i.Denotes v := by
  cases hd with
  | object _ hk _ hv =>
    obtain ⟨l, i, rfl, hl⟩ := hk _ hm
    cases h with
    | object h => exact ⟨i, h _ (mem_of_lastMember hl), hv l i v hl hm⟩

theorem Short.legible (h : j.Short) (hd : j.Denotes (.int (n : ℤ))) : Legible n := by
  cases hd with
  | int =>
    cases h with
    | int h => exact legible_of_natAbs_lt h

theorem Short.legible_entry (h : j.Short) (hd : j.Denotes (.dict entries))
    (hm : (k, .int (n : ℤ)) ∈ entries) : Legible n := by
  obtain ⟨i, hi, hv⟩ := h.entry hd hm
  exact hi.legible hv

end Json

namespace Configuration

/-- The numbers that a document gives can be written again. -/
theorem legible_of_fromJson (h : fromJson bytes = .ok c) : ∀ n ∈ c.numbers, Legible n := by
  obtain ⟨j, entries, hj, hd, hc⟩ := heldBy_of_fromJson h
  have hs := Json.short_of_read hj
  refine hc.legible (fun _ _ => hs.legible_entry hd) fun k v p hm hv => ?_
  obtain ⟨i, hi, hdv⟩ := hs.entry hd hm
  cases hv with
  | pool => cases hdv
  | dict hp => exact hp.legible fun _ _ => hi.legible_entry hdv

/-! ## Text -/

theorem bytesOf_append (s t : String) : bytesOf (s ++ t) = bytesOf s ++ bytesOf t := by
  rw [bytesOf, String.toList_append, Utf8.encode_append]
  rfl

theorem check_toWire : check .json c.toWire.toValue = .ok c := by
  rw [toValue_toWire]
  exact ofEntries_of_heldBy plain_wireEntries heldBy_wireEntries

theorem toWire_injective : Function.Injective toWire := by
  intro c c' h
  have hc : check .json c.toWire.toValue = .ok c := check_toWire
  rw [h, check_toWire] at hc
  exact (Except.ok.inj hc).symm

/-- The text of a configuration is decoded to it, whatever blanks are behind it. -/
theorem fromJson_of_legible (h : ∀ n ∈ c.numbers, Legible n)
    (hb : ∀ b ∈ blanks, Json.isBlank b = true) :
    fromJson (bytesOf (c.toJson indent) ++ blanks) = .ok c := by
  have hr : Json.read (bytesOf (c.toJson indent) ++ blanks) = .ok c.toWire :=
    Json.read_print_blanks (readable_toWire h) indent hb
  rw [fromJson, hr]
  simp only [check_toWire, orError]

/-- The text of what was decoded is decoded again. -/
theorem fromJson_of_decoded (h : fromJson bytes = .ok c)
    (hb : ∀ b ∈ blanks, Json.isBlank b = true) :
    fromJson (bytesOf (c.toJson indent) ++ blanks) = .ok c :=
  fromJson_of_legible (legible_of_fromJson h) hb

/-- Texts that begin alike are of the same configuration, unless they go on as a number. -/
theorem eq_of_toJson_append (h : fromJson bytes = .ok c) (h' : fromJson bytes' = .ok c')
    (hr : Json.EndsNumber rest) (hr' : Json.EndsNumber rest')
    (he : bytesOf (c.toJson indent) ++ rest = bytesOf (c'.toJson indent) ++ rest') : c = c' := by
  obtain ⟨fuel, hf, hf'⟩ : ∃ fuel, (bytesOf (c.toJson indent)).length ≤ fuel ∧
      (bytesOf (c'.toJson indent)).length ≤ fuel := ⟨_, Nat.le_max_left _ _, Nat.le_max_right _ _⟩
  have hv : Json.value fuel Json.maxDepth (bytesOf (c.toJson indent) ++ rest) =
      .ok (c.toWire, rest) :=
    Json.value_print (readable_toWire (legible_of_fromJson h)) hr hf
  have hv' : Json.value fuel Json.maxDepth (bytesOf (c'.toJson indent) ++ rest') =
      .ok (c'.toWire, rest') :=
    Json.value_print (readable_toWire (legible_of_fromJson h')) hr' hf'
  rw [he, hv'] at hv
  exact (toWire_injective (Prod.mk.inj (Except.ok.inj hv)).1).symm

theorem toJson_inj (h : fromJson bytes = .ok c) (h' : fromJson bytes' = .ok c') :
    c.toJson indent = c'.toJson indent ↔ c = c' := by
  constructor
  · intro he
    exact eq_of_toJson_append h h' Json.endsNumber_nil Json.endsNumber_nil
      (congrArg (fun s => bytesOf s ++ []) he)
  · intro he
    rw [he]

end Configuration

/-! ## Errors -/

/-- A text without a line feed. -/
def OneLine (s : String) : Prop := '\n' ∉ s.toList

instance {s : String} : Decidable (OneLine s) := inferInstanceAs (Decidable (_ ∉ _))

theorem OneLine.append {s t : String} (hs : OneLine s) (ht : OneLine t) : OneLine (s ++ t) :=
  Text.not_mem_append hs ht

theorem oneLine_toString (n : ℕ) : OneLine (toString n) := by
  intro h
  have hd : '\n' ∈ Nat.toDigits 10 n := by simpa using h
  exact absurd (Decimal.digit_range hd).1 (by decide)

theorem Json.Cause.oneLine (cause : Json.Cause) : OneLine cause.text := by
  cases cause <;> decide

theorem Json.Fault.oneLine (f : Json.Fault) : OneLine (f.text bytes) :=
  (((f.cause.oneLine.append (by decide)).append (oneLine_toString _)).append (by decide)).append
    (oneLine_toString _)

section Complaint

variable {entries : Entries} {p : Place} {l : Location} {cause : Cause}

theorem FieldName.oneLine {f : FieldName} {k : String} (h : k = f.wire ∨ k = f.own)
    (hw : OneLine f.wire) (ho : OneLine f.own) : OneLine k := by
  rcases h with rfl | rfl
  · exact hw
  · exact ho

theorem FieldName.IntegerFault.oneLine {f : FieldName} {range : ℤ → Prop} {why : Refusal}
    {k : String}
    (h : f.IntegerFault entries range why k cause) (hr : OneLine (Cause.refused why).message) :
    OneLine cause.message := by
  cases h with
  | missing _ => exact (by decide : OneLine Cause.missing.message)
  | notInteger _ _ => exact (by decide : OneLine Cause.notInteger.message)
  | outOfRange _ _ => exact hr

theorem Place.Complaint.oneLine (h : p.Complaint .json entries l cause) :
    OneLine (locationText l) ∧ OneLine cause.message := by
  cases h with
  | port h | workers h =>
    rw [locationText_key]
    exact ⟨FieldName.oneLine h.key (by decide) (by decide), h.oneLine (by decide)⟩
  | maxLogLevel h _ _ | pool h _ _ =>
    rw [locationText_key]
    exact ⟨FieldName.oneLine h.key (by decide) (by decide), by decide⟩
  | @inPool k k' inner f _ h hf =>
    have hk : OneLine k := FieldName.oneLine h.key (by decide) (by decide)
    have hk' : OneLine k' :=
      FieldName.oneLine hf.key (by cases f <;> decide) (by cases f <;> decide)
    have hl : locationText [.key k, .key k'] = k ++ "." ++ k' := by
      simp [locationText, Text.join, Step.text]
    rw [hl]
    exact ⟨(hk.append (by decide)).append hk', hf.oneLine (by decide)⟩

end Complaint

namespace Configuration

theorem errors_of_fail {cause : Cause} {v : Value}
    (h : orError (Checked.fail cause v : Checked Configuration) = .error e) :
    e.errors = [("", cause.message)] := by
  obtain rfl := Except.error.inj h
  rfl

theorem oneLine_of_ofEntries {entries : Entries} {is : List Issue} (hp : Plain (.dict entries))
    (h : ofEntries .json entries = .error is) :
    is ≠ [] ∧ ∀ x ∈ (ConfigurationError.ofIssues is).errors, OneLine x.1 ∧ OneLine x.2 := by
  constructor
  · have hj := @judged_ofEntries .json entries hp
    rw [h] at hj
    exact hj.1
  · intro x hx
    obtain ⟨p, l, cause, hc, rfl⟩ := (selected_errors hp h).exists_of_mem hx
    exact hc.oneLine

/-- What is rejected is rejected for a reason, and no place and no message goes over a line. -/
theorem errors_of_fromJson (h : fromJson bytes = .error e) :
    e.errors ≠ [] ∧ ∀ x ∈ e.errors, OneLine x.1 ∧ OneLine x.2 := by
  have hfail {cause : Cause} {v : Value} (hm : OneLine cause.message)
      (h : orError (Checked.fail cause v : Checked Configuration) = .error e) :
      e.errors ≠ [] ∧ ∀ x ∈ e.errors, OneLine x.1 ∧ OneLine x.2 := by
    have h₀ : OneLine "" := by decide
    rw [errors_of_fail h]
    exact ⟨List.cons_ne_nil _ _, List.forall_mem_singleton.mpr ⟨h₀, hm⟩⟩
  unfold fromJson at h
  split at h
  · next j hj =>
    have hp : j.toValue.Plain := Json.denotes_toValue.plain
    by_cases hv : ∃ entries, j.toValue = .dict entries
    · obtain ⟨entries, he⟩ := hv
      rw [he] at h hp
      obtain ⟨is, hc, rfl⟩ := orError_eq_error h
      obtain ⟨hn, hl⟩ := oneLine_of_ofEntries hp hc
      exact ⟨by simpa [ConfigurationError.ofIssues] using hn, hl⟩
    · rw [check_eq_fail hp (not_exists.mp hv)] at h
      exact hfail (by decide) h
  · next f hf =>
    have hm : OneLine (Cause.invalidJson (f.text bytes)).message :=
      OneLine.append (by decide) f.oneLine
    exact hfail hm h

end Configuration

end AgentControl
