import AgentControl.Proofs.Configuration.Similarity

/-! # Decoding wire mappings

Plain data is decoded by the wire contract and by nothing else: what a mapping holds decides, or
else every place that is bad is reported.
-/

namespace AgentControl

open Value (Entries Plain)

/-- An entry of the errors that says what there is to say of a place. -/
def Place.Reports (origin : Origin) (entries : Entries) (p : Place) (e : String × String) : Prop :=
  ∃ l c, p.Complaint origin entries l c ∧ e = (locationText l, c.message)

namespace Configuration

variable {o : Origin} {v : Value} {entries : Entries}

theorem check_eq_fail (hv : v.Plain) (h : ∀ entries, v ≠ .dict entries) :
    check o v = (Checked.fail (o.wrongModel .configuration) v : Checked _) := by
  cases hv with
  | dict _ _ _ => exact absurd rfl (h _)
  | _ => rfl

theorem orError_eq_ok_iff {α : Type} {r : Checked α} {a : α} : orError r = .ok a ↔ r = .ok a := by
  cases r <;> simp [orError]

theorem orError_eq_error {α : Type} {r : Checked α} {e : ConfigurationError}
    (h : orError r = .error e) : ∃ is, r = .error is ∧ e = .ofIssues is := by
  cases r with
  | ok a => cases h
  | error is => exact ⟨is, rfl, (Except.error.inj h).symm⟩

theorem heldBy_of_check {c : Configuration} (h : check o v = .ok c) :
    v = .configuration c ∨ ∃ entries, v = .dict entries ∧ c.HeldBy entries := by
  unfold check at h
  split at h
  · exact Or.inl (congrArg Value.configuration (Except.ok.inj h))
  · exact Or.inr ⟨_, rfl, heldBy_of_ofEntries h⟩
  · cases h

theorem heldBy_of_fromWire {c : Configuration} (h : fromWire v = .ok c) :
    v = .configuration c ∨ ∃ entries, v = .dict entries ∧ c.HeldBy entries :=
  heldBy_of_check (orError_eq_ok_iff.mp h)

theorem fromWire_of_heldBy {c : Configuration} (hp : Plain (.dict entries))
    (h : c.HeldBy entries) : fromWire (.dict entries) = .ok c :=
  orError_eq_ok_iff.mpr (ofEntries_of_heldBy hp h)

theorem ofEntries_isOk_iff (hp : Plain (.dict entries)) :
    (∃ c, ofEntries o entries = .ok c) ↔ ∀ p : Place, p.Good entries := by
  have hj := @judged_ofEntries o entries hp
  constructor
  · rintro ⟨c, hc⟩ p
    rw [hc] at hj
    exact hj p p.mem_all
  · intro hg
    cases hr : ofEntries o entries with
    | ok c => exact ⟨c, rfl⟩
    | error is =>
      rw [hr] at hj
      exact absurd (hj.2.eq_nil fun p _ => hg p) hj.1

theorem selected_errors (hp : Plain (.dict entries)) {is : List Issue}
    (h : ofEntries o entries = .error is) :
    Selected (Place.Good entries) (Place.Reports o entries) Place.all
      (ConfigurationError.ofIssues is).errors := by
  have hj := @judged_ofEntries o entries hp
  rw [h] at hj
  have hs := @Selected.transfer _ _ _ _ _ _ _ _ (Place.Good entries) (Place.Reports o entries) id
    (fun i : Issue => (locationText i.location, i.cause.message)) hj.2 (fun _ _ => Iff.rfl)
    fun p i hi => ⟨_, _, hi, rfl⟩
  rwa [List.map_id] at hs

theorem fromWire_similar {es fs : Entries} (h : Similar es fs) (hp : Plain (.dict es))
    (hq : Plain (.dict fs)) : (fromWire (.dict fs)).mapError ConfigurationError.errors =
      (fromWire (.dict es)).mapError ConfigurationError.errors := by
  have he : fromWire (.dict es) = orError (ofEntries .data es) := rfl
  have hf : fromWire (.dict fs) = orError (ofEntries .data fs) := rfl
  rcases @ofEntries_similar _ _ .data .data h hp hq with ⟨c, h₁, h₂⟩ | ⟨is, js, h₁, h₂, h⟩
  · rw [he, hf, h₁, h₂]
  · rw [he, hf, h₁, h₂]
    have hm : List.Forall₂ (· = ·) (ConfigurationError.ofIssues js).errors
        (ConfigurationError.ofIssues is).errors := by
      refine List.forall₂_map_left_iff.mpr (List.forall₂_map_right_iff.mpr ?_)
      refine h.flip.imp fun j i ⟨p, hi, hj⟩ => ?_
      obtain ⟨hl, hc, hc'⟩ := hi.agree hp hj
      by_cases hpool : p = .pool
      · rw [hl, (hc' hpool).1, (hc' hpool).2]
      · rw [hl, hc hpool]
    exact congrArg Except.error (List.forall₂_eq_eq_eq ▸ hm)

/-- Decodes plain data by the wire contract. Anything but a mapping is one error at the empty place.
A mapping is the configuration that it holds, where every place is good, and else one error for each
place that is not, in the order of the fields. Nothing else in it counts, nor how it is ordered. -/
theorem fromWire_contract (hv : v.Plain) :
    ((∀ entries, v ≠ .dict entries) → ∃ e, fromWire v = .error e ∧
        e.errors = [("", "Input should be a valid dictionary or instance of Configuration")]) ∧
      ∀ entries, v = .dict entries →
        (∀ c, fromWire v = .ok c ↔ c.HeldBy entries) ∧
          ((∃ c, fromWire v = .ok c) ↔ ∀ p : Place, p.Good entries) ∧
          (∀ e, fromWire v = .error e →
            Selected (Place.Good entries) (Place.Reports .data entries) Place.all e.errors) ∧
          (∀ others, Plain (.dict others) → Similar entries others →
            (fromWire (.dict others)).mapError ConfigurationError.errors =
              (fromWire v).mapError ConfigurationError.errors) ∧
          ∀ others, entries.Perm others →
            (fromWire (.dict others)).mapError ConfigurationError.errors =
              (fromWire v).mapError ConfigurationError.errors := by
  refine ⟨fun hn => ?_, ?_⟩
  · exact ⟨_, congrArg orError (check_eq_fail hv hn), rfl⟩
  rintro entries rfl
  have hok (c : Configuration) :
      fromWire (.dict entries) = .ok c ↔ ofEntries .data entries = .ok c := orError_eq_ok_iff
  refine ⟨fun c => ?_, ?_, fun e he => ?_, fun others hq hs => ?_, fun others ho => ?_⟩
  · exact (hok c).trans (ofEntries_eq_ok_iff_heldBy hv)
  · exact (exists_congr hok).trans (ofEntries_isOk_iff hv)
  · obtain ⟨is, hr, rfl⟩ := orError_eq_error he
    exact selected_errors hv hr
  · exact fromWire_similar hs hv hq
  · exact fromWire_similar (.of_perm hv.distinctKeys ho) hv (hv.perm ho)

/-- Wrong at five places, with one name of a field and with both, and with keys
that nothing reads. -/
def mixedEntries : Entries :=
  [(.str "zone", .list [.null]), (.str "agent_server_port", .int 8080),
    (.str "agentServerPort", .bool true), (.str "max_log_level", .str "info"),
    (.str "connection_pool_configuration",
      .dict [(.str "fill_interval", .int (-1)), (.str "fillInterval", .int 0),
        (.str "max_pool_size", .int (-3))])]

theorem fromWire_contract_mixed :
    Plain (.dict mixedEntries) ∧ Plain (.dict mixedEntries.tail.reverse) ∧
      (fromWire (.dict mixedEntries.tail.reverse)).mapError ConfigurationError.errors =
        .error [("agentServerPort", "Input should be a valid integer"),
          ("workerThreadNumber", "Field required"),
          ("max_log_level",
            "Input should be 'OFF', 'ERROR', 'WARN', 'INFO', 'DEBUG' or 'TRACE'"),
          ("connection_pool_configuration.checkInterval", "Field required"),
          ("connection_pool_configuration.max_pool_size",
            "Value error, Value must not be negative")] := by
  have hp : Plain (.dict mixedEntries) := by decide
  have hq : Plain (.dict mixedEntries.tail.reverse) := by decide
  have hs : Similar mixedEntries mixedEntries.tail.reverse := by
    refine .of_lookup ?_
    simp only [List.forall_mem_cons]
    exact ⟨⟨rfl, rfl⟩, ⟨rfl, rfl⟩, ⟨rfl, rfl⟩, ⟨rfl, rfl⟩, List.forall_mem_nil _⟩
  refine ⟨hp, hq, ?_⟩
  rw [((fromWire_contract hp).2 _ rfl).2.2.2.1 _ hq hs]
  rfl

end Configuration

end AgentControl
