import AgentControl.Proofs.Configuration.FromWire
import AgentControl.Proofs.Json.Denotation
import AgentControl.Proofs.Json.RoundTrip

/-! # The two decoders

JSON text is decoded as any value that it denotes. The values that one document denotes are similar
mappings or none, so both decoders take the same configuration or report the same places.
-/

namespace AgentControl

open Value (Entries Plain Kin)

/-! ## Values of one document -/

/-- Values that one document denotes. -/
def Codenoted (v w : Value) : Prop := ∃ j, Json.Denotes j v ∧ Json.Denotes j w

section Codenoted

variable {ms : List (String × Json)} {es fs : Entries} {v w : Value}

theorem lookup_codenoted (he : Json.Denotes (.object ms) (.dict es))
    (hf : Json.Denotes (.object ms) (.dict fs)) (k : String) :
    (Value.lookup k es = none ∧ Value.lookup k fs = none) ∨
      ∃ v w, Value.lookup k es = some v ∧ Value.lookup k fs = some w ∧ Codenoted v w := by
  rcases he.lookup with ⟨hm, h₁⟩ | ⟨j, v, hm, h₁, hv⟩
  · rcases hf.lookup with ⟨_, h₂⟩ | ⟨i, w, hm', _, _⟩
    · exact Or.inl ⟨h₁, h₂⟩
    · cases hm.symm.trans hm'
  · rcases hf.lookup with ⟨hm', _⟩ | ⟨i, w, hm', h₂, hw⟩
    · cases hm.symm.trans hm'
    · cases hm.symm.trans hm'
      exact Or.inr ⟨v, w, h₁, h₂, j, hv, hw⟩

theorem alike_codenoted (he : Json.Denotes (.object ms) (.dict es))
    (hf : Json.Denotes (.object ms) (.dict fs)) (f : FieldName) : f.Alike Codenoted es fs := by
  rcases lookup_codenoted he hf f.wire with ⟨h₁, h₂⟩ | ⟨v, w, h₁, h₂, hc⟩
  · have hn₁ := Value.lookup_eq_none_iff.mp h₁
    have hn₂ := Value.lookup_eq_none_iff.mp h₂
    rcases lookup_codenoted he hf f.own with ⟨h₃, h₄⟩ | ⟨v, w, h₃, h₄, hc⟩
    · exact .nothing (.nothing hn₁ (Value.lookup_eq_none_iff.mp h₃))
        (.nothing hn₂ (Value.lookup_eq_none_iff.mp h₄))
    · exact .under (.own hn₁ (Value.mem_of_lookup h₃)) (.own hn₂ (Value.mem_of_lookup h₄)) hc
  · exact .under (.wire (Value.mem_of_lookup h₁)) (.wire (Value.mem_of_lookup h₂)) hc

theorem Codenoted.kin (h : Codenoted v w) : Kin v w := by
  obtain ⟨j, hv, hw⟩ := h
  cases hv with
  | array => cases hw; exact .lists
  | object => cases hw; exact .dicts
  | _ => cases hw; exact .same

theorem Codenoted.similarPool (h : Codenoted v w) : SimilarPool v w := by
  have hk := h.kin
  obtain ⟨j, hv, hw⟩ := h
  by_cases hd : ∃ inner, v = .dict inner
  · obtain ⟨es, rfl⟩ := hd
    cases hv with
    | object hd hk₁ hk₂ hv =>
      cases hw with
      | object hd' hk₁' hk₂' hw =>
        refine .dicts fun f => ?_
        exact (alike_codenoted (.object hd hk₁ hk₂ hv) (.object hd' hk₁' hk₂' hw) f.name).mono
          fun _ _ => Codenoted.kin
  · exact .kin (fun inner h => hd ⟨inner, h⟩) hk

theorem similar_of_denotes (he : Json.Denotes (.object ms) (.dict es))
    (hf : Json.Denotes (.object ms) (.dict fs)) : Similar es fs := by
  have ha := alike_codenoted he hf
  exact ⟨(ha _).mono fun _ _ => Codenoted.kin, (ha _).mono fun _ _ => Codenoted.kin,
    (ha _).mono fun _ _ => Codenoted.kin, (ha _).mono fun _ _ => Codenoted.similarPool⟩

end Codenoted

/-! ## Agreement -/

/-- Where something else stands in place of an object, and the model that the object would be. -/
inductive Displaced (v : Value) : String → Model → Prop where
  | whole : (∀ entries, v ≠ .dict entries) → Displaced v "" .configuration
  | pool {entries : Entries} {k : String} {w : Value} : v = .dict entries →
      FieldName.pool.Takes entries (some (k, w)) → w ≠ .null → (∀ inner, w ≠ .dict inner) →
      Displaced v k .pool

/-- Entries of the errors of the two decoders that say the same of the same place. -/
inductive SameEntry (v : Value) : String × String → String × String → Prop where
  | same {place text : String} : (∀ m, ¬ Displaced v place m) →
      SameEntry v (place, text) (place, text)
  | displaced {place : String} {m : Model} : Displaced v place m →
      SameEntry v (place, "Input should be an object")
        (place, "Input should be a valid dictionary or instance of " ++ m.title)

@[simp] theorem locationText_key {k : String} : locationText [.key k] = k := by
  simp [locationText, Text.join, Step.text]

section Agreement

variable {o : Origin} {entries : Entries} {p : Place} {l : Location} {c : Cause}

theorem Place.Complaint.displaced (h : Complaint o entries .pool l c) :
    Displaced (.dict entries) (locationText l) .pool := by
  cases h with
  | pool ht h₀ hn =>
    rw [locationText_key]
    exact .pool rfl ht h₀ hn

/-- Inside a mapping only a pool's own place stands for an object. -/
theorem Place.Complaint.not_displaced (hd : Value.DistinctKeys entries)
    (h : p.Complaint o entries l c) (hp : p ≠ .pool) (m : Model) :
    ¬ Displaced (.dict entries) (locationText l) m := by
  intro hm
  generalize hl : locationText l = place at hm
  cases hm with
  | whole hn => exact hn entries rfl
  | pool he ht _ hn =>
    cases he
    have hk := ht.key
    rw [← hl] at hk
    cases h with
    | pool => exact hp rfl
    | inPool ht' _ =>
      cases ht.unique hd ht'
      exact hn _ rfl
    | port hf =>
      rw [locationText_key] at hk
      rcases hf.key with rfl | rfl <;> exact absurd hk (by decide)
    | workers hf =>
      rw [locationText_key] at hk
      rcases hf.key with rfl | rfl <;> exact absurd hk (by decide)
    | maxLogLevel ht' _ _ =>
      rw [locationText_key] at hk
      rcases ht'.key with rfl | rfl <;> exact absurd hk (by decide)

theorem sameEntry_of_complaint {l' : Location} {c' : Cause} (hp : Plain (.dict entries))
    (h : p.Complaint .json entries l c) (h' : p.Complaint .data entries l' c') :
    SameEntry (.dict entries) (locationText l, c.message) (locationText l', c'.message) := by
  obtain ⟨rfl, hc, hc'⟩ := h.agree hp h'
  by_cases hpool : p = .pool
  · subst hpool
    obtain ⟨rfl, rfl⟩ := hc' rfl
    exact .displaced h.displaced
  · obtain rfl := hc hpool
    exact .same (h.not_displaced hp.distinctKeys hpool)

end Agreement

namespace Configuration

variable {j : Json} {v : Value}

theorem heldBy_of_fromJson {bytes : List UInt8} {c : Configuration}
    (h : fromJson bytes = .ok c) : ∃ (j : Json) (entries : Entries), Json.read bytes = .ok j ∧
      j.Denotes (.dict entries) ∧ c.HeldBy entries := by
  unfold fromJson at h
  split at h
  · next j hj =>
    have hv : j.Denotes j.toValue := Json.denotes_toValue
    rcases heldBy_of_check (orError_eq_ok_iff.mp h) with hc | ⟨entries, he, hc⟩
    · rw [hc] at hv
      cases hv
    · exact ⟨j, entries, hj, he ▸ hv, hc⟩
  · cases orError_eq_ok_iff.mp h

/-- A document and a value that it denotes are checked alike. -/
theorem check_denotes (h : Json.Denotes j v) :
    (∃ c, orError (check .json j.toValue) = .ok c ∧ fromWire v = .ok c) ∨
      ∃ e e', orError (check .json j.toValue) = .error e ∧ fromWire v = .error e' ∧
        List.Forall₂ (SameEntry v) e.errors e'.errors := by
  by_cases hv : ∃ entries, v = .dict entries
  · obtain ⟨entries, rfl⟩ := hv
    obtain ⟨ms, rfl⟩ : ∃ ms, j = .object ms := by
      cases h
      exact ⟨_, rfl⟩
    have hj : Json.Denotes (.object ms) (.dict (Json.addMembers [] ms)) := Json.denotes_toValue
    have hw : fromWire (.dict entries) = orError (ofEntries .data entries) := rfl
    have hr : check .json (Json.object ms).toValue = ofEntries .json (Json.addMembers [] ms) := rfl
    rw [hw, hr]
    rcases @ofEntries_similar _ _ .data .json (similar_of_denotes h hj) h.plain hj.plain with
      ⟨c, h₁, h₂⟩ | ⟨is, js, h₁, h₂, hf⟩
    · exact Or.inl ⟨c, orError_eq_ok_iff.mpr h₂, orError_eq_ok_iff.mpr h₁⟩
    · refine Or.inr ⟨_, _, congrArg orError h₂, congrArg orError h₁, ?_⟩
      refine List.forall₂_map_left_iff.mpr (List.forall₂_map_right_iff.mpr (hf.flip.imp ?_))
      rintro i i' ⟨p, hi, hi'⟩
      exact sameEntry_of_complaint h.plain hi' hi
  · have hn : ∀ entries, v ≠ .dict entries := fun entries he => hv ⟨entries, he⟩
    have hn' : ∀ entries, j.toValue ≠ .dict entries := by
      intro entries he
      cases j with
      | object ms =>
        cases h
        exact hn _ rfl
      | _ => cases he
    have hj := @Json.denotes_toValue j
    refine Or.inr ⟨_, _, congrArg orError (check_eq_fail hj.plain hn'),
      congrArg orError (check_eq_fail h.plain hn), ?_⟩
    exact .cons (.displaced (.whole hn)) .nil

theorem fromJson_of_heldBy {bytes : List UInt8} {entries : Entries} {c : Configuration}
    (hj : Json.read bytes = .ok j) (hd : Json.Denotes j (.dict entries)) (hc : c.HeldBy entries) :
    fromJson bytes = .ok c := by
  have hr : fromJson bytes = orError (check .json j.toValue) := by rw [fromJson, hj]
  have hw := fromWire_of_heldBy hd.plain hc
  rw [hr]
  rcases check_denotes hd with ⟨d, h₁, h₂⟩ | ⟨e, e', _, h₂, _⟩
  · cases hw.symm.trans h₂
    exact h₁
  · cases hw.symm.trans h₂

/-- The text decoder agrees with the decoder of values: text that is a JSON document denotes values,
and on each of them both give the same configuration or errors that say the same entry by entry.
Text that is none is one error at the empty place. -/
theorem fromJson_agrees (bytes : List UInt8) :
    (∀ j, Json.read bytes = .ok j → (∃ v, Json.Denotes j v) ∧ ∀ v, Json.Denotes j v →
      (∃ c, fromJson bytes = .ok c ∧ fromWire v = .ok c) ∨
        ∃ e e', fromJson bytes = .error e ∧ fromWire v = .error e' ∧
          List.Forall₂ (SameEntry v) e.errors e'.errors) ∧
      ∀ f, Json.read bytes = .error f → ∃ e, fromJson bytes = .error e ∧
        e.errors = [("", "Invalid JSON: " ++ f.text bytes)] := by
  refine ⟨fun j hj => ⟨⟨_, Json.denotes_toValue⟩, fun v hv => ?_⟩, fun f hf => ?_⟩
  · have hr : fromJson bytes = orError (check .json j.toValue) := by rw [fromJson, hj]
    rw [hr]
    exact check_denotes hv
  · have hr : fromJson bytes =
        orError (Checked.fail (.invalidJson (f.text bytes)) (.bytes bytes)) := by rw [fromJson, hf]
    exact ⟨_, hr, rfl⟩

/-- A port given twice, no worker, and a list in place of a pool. -/
def doubledMembers : List (String × Json) :=
  [("agentServerPort", .bool true), ("connectionPoolConfiguration", .array []),
    ("agentServerPort", .int 80), ("workerThreadNumber", .int 0)]

theorem fromJson_agrees_doubled :
    ∃ e e', fromJson (bytesOf ((Json.object doubledMembers).print (some 2))) = .error e ∧
      fromWire (.dict (Json.addMembers [] doubledMembers).reverse) = .error e' ∧
      List.Forall₂ (SameEntry (.dict (Json.addMembers [] doubledMembers).reverse))
        e.errors e'.errors ∧
      e'.errors = [("workerThreadNumber", "Value error, Worker thread number must be at least 1"),
        ("connectionPoolConfiguration",
          "Input should be a valid dictionary or instance of ConnectionPoolConfiguration")] := by
  have hr : Json.Readable Json.maxDepth (.object doubledMembers) := by
    refine .object ?_
    simp only [doubledMembers, List.forall_mem_cons]
    exact ⟨.bool, .array (List.forall_mem_nil _), .int (by decide), .int (by decide),
      List.forall_mem_nil _⟩
  have hv : Json.Denotes (.object doubledMembers)
      (.dict (Json.addMembers [] doubledMembers).reverse) :=
    Json.Denotes.perm Json.denotes_toValue (List.reverse_perm _).symm
  rcases ((fromJson_agrees _).1 _ (Json.read_print hr (some 2))).2 _ hv with
    ⟨c, _, hc⟩ | ⟨e, e', h₁, h₂, h⟩
  · cases hc
  · refine ⟨e, e', h₁, h₂, h, ?_⟩
    obtain rfl := Except.error.inj h₂
    rfl

end Configuration

end AgentControl
