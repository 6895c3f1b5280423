import AgentControl.Configuration.Session
import AgentControl.Proofs.Configuration.Agreement
import AgentControl.Proofs.Configuration.RoundTrip

/-! # Runs of editing sessions

What each command may do to a session, said by its outcome: a step that raises does nothing,
building and decoding take a configuration that holds what was given, an assignment changes its own
field, and nothing else changes a configuration. Every run keeps to this from the start on.
-/

namespace AgentControl

open Value (Entries)

/-! ## Assignments -/

/-- The second configuration is the first with one field holding what was assigned to it. -/
inductive Assigned (c d : Configuration) : String → Value → Prop where
  | port : d.workers = c.workers → d.maxLogLevel = c.maxLogLevel → d.pool = c.pool →
      Assigned c d FieldName.port.own (.int d.port)
  | workers : d.port = c.port → d.maxLogLevel = c.maxLogLevel → d.pool = c.pool →
      Assigned c d FieldName.workers.own (.int d.workers)
  | maxLogLevel {v : Value} : d.port = c.port → d.workers = c.workers → d.pool = c.pool →
      LevelOf v d.maxLogLevel → Assigned c d FieldName.maxLogLevel.own v
  | pool {v : Value} : d.port = c.port → d.workers = c.workers → d.maxLogLevel = c.maxLogLevel →
      PoolOf v d.pool → Assigned c d FieldName.pool.own v

section Assign

variable {c d : Configuration} {field : String} {v : Value}

theorem Checked.report_eq_ok_iff {α : Type} {r : Checked α} {m : Model} {a : α} :
    r.report m = .ok a ↔ r = .ok a := by
  cases r <;> simp [report]

theorem Configuration.assigned_eq_ok_iff {α : Type} {f : FieldName} {check : Value → Checked α}
    {a : α} : assigned f check v = .ok a ↔ check v = .ok a :=
  Checked.within_eq_ok_iff

theorem assigned_of_assignChecked (h : c.assignChecked field v = .ok d) : Assigned c d field v := by
  unfold Configuration.assignChecked at h
  split at h
  · next hf =>
    obtain ⟨⟨p, _, _⟩, hp, rfl⟩ := Checked.map_eq_ok_iff.mp h
    obtain ⟨n, rfl, hn⟩ := checkInteger_eq_ok_iff.mp (Configuration.assigned_eq_ok_iff.mp hp)
    obtain rfl := portOf?_eq_some_iff.mp hn
    exact hf ▸ .port rfl rfl rfl
  split at h
  · next hf =>
    obtain ⟨⟨w, _⟩, hw, rfl⟩ := Checked.map_eq_ok_iff.mp h
    obtain ⟨n, rfl, hn⟩ := checkInteger_eq_ok_iff.mp (Configuration.assigned_eq_ok_iff.mp hw)
    obtain rfl := workersOf?_eq_some_iff.mp hn
    exact hf ▸ .workers rfl rfl rfl
  split at h
  · next hf =>
    obtain ⟨l, hl, rfl⟩ := Checked.map_eq_ok_iff.mp h
    have hl := checkLevel_eq_ok_iff.mp (Configuration.assigned_eq_ok_iff.mp hl)
    exact hf ▸ .maxLogLevel rfl rfl rfl hl
  split at h
  · next hf =>
    obtain ⟨p, hp, rfl⟩ := Checked.map_eq_ok_iff.mp h
    have hp := ConnectionPool.poolOf_of_checkOptional (Configuration.assigned_eq_ok_iff.mp hp)
    exact hf ▸ .pool rfl rfl rfl hp
  · cases h

theorem assignChecked_of_assigned (hv : v.WellKeyed) (h : Assigned c d field v) :
    c.assignChecked field v = .ok d := by
  obtain ⟨port, workers, level, pool, h₁, h₂, h₃⟩ := d
  unfold Configuration.assignChecked
  cases h with
  | port hw hl hp =>
    have h : Configuration.assigned .port checkPort (.int port) = .ok ⟨port, h₁, h₂⟩ :=
      Configuration.assigned_eq_ok_iff.mpr
        (checkInteger_eq_ok_iff.mpr ⟨port, rfl, portOf?_eq_some_iff.mpr rfl⟩)
    rw [if_pos rfl, h]
    subst hw hl hp
    rfl
  | workers hn hl hp =>
    have h : Configuration.assigned .workers checkWorkers (.int workers) = .ok ⟨workers, h₃⟩ :=
      Configuration.assigned_eq_ok_iff.mpr
        (checkInteger_eq_ok_iff.mpr ⟨workers, rfl, workersOf?_eq_some_iff.mpr rfl⟩)
    rw [if_neg (by decide), if_pos rfl, h]
    subst hn hl hp
    rfl
  | maxLogLevel hn hw hp hl =>
    have h : Configuration.assigned .maxLogLevel checkLevel v = .ok level :=
      Configuration.assigned_eq_ok_iff.mpr (checkLevel_eq_ok_iff.mpr hl)
    rw [if_neg (by decide), if_neg (by decide), if_pos rfl, h]
    subst hn hw hp
    rfl
  | pool hn hw hl hp =>
    have h : Configuration.assigned .pool (ConnectionPool.checkOptional .data) v = .ok pool :=
      Configuration.assigned_eq_ok_iff.mpr
        ((ConnectionPool.checkOptional_eq_ok_iff hv).mpr hp)
    rw [if_neg (by decide), if_neg (by decide), if_neg (by decide), if_pos rfl, h]
    subst hn hw hl
    rfl

/-- An assignment is accepted exactly where the field can hold the value. -/
theorem assign_eq_ok_iff (hv : v.WellKeyed) : c.assign field v = .ok d ↔ Assigned c d field v :=
  Checked.report_eq_ok_iff.trans ⟨assigned_of_assignChecked, assignChecked_of_assigned hv⟩

theorem assigned_of_assign (h : c.assign field v = .ok d) : Assigned c d field v :=
  assigned_of_assignChecked (Checked.report_eq_ok_iff.mp h)

end Assign

/-! ## Steps -/

namespace Configuration

/-- The ranges that a configuration keeps to, in hand and on the wire. -/
structure Valid (c : Configuration) : Prop where
  port : 1 ≤ c.port ∧ c.port ≤ 65535
  workers : 1 ≤ c.workers
  maxLogLevel : c.maxLogLevel = none ∨ ∃ l ∈ LogLevel.all, c.maxLogLevel = some l
  pool : c.pool = none ∨ ∃ p, c.pool = some p ∧
    0 ≤ p.checkInterval ∧ 0 ≤ p.fillInterval ∧ 0 ≤ p.maxPoolSize
  wire : ∃ entries, c.toWire.toValue = .dict entries ∧ ∀ p : Place, p.Good entries

theorem valid (c : Configuration) : c.Valid := by
  refine ⟨⟨c.one_le_port, c.port_le⟩, c.one_le_workers, ?_, ?_, ?_⟩
  · cases c.maxLogLevel with
    | none => exact Or.inl rfl
    | some l => exact Or.inr ⟨l, l.mem_all, rfl⟩
  · cases c.pool with
    | none => exact Or.inl rfl
    | some p => exact Or.inr ⟨p, rfl, Nat.zero_le _, Nat.zero_le _, Nat.zero_le _⟩
  · refine ⟨c.wireEntries, toValue_toWire, (@ofEntries_isOk_iff .data _ plain_wireEntries).mp ?_⟩
    exact ⟨c, ofEntries_of_heldBy plain_wireEntries heldBy_wireEntries⟩

end Configuration

namespace Session

/-- An answer that stands for an exception. -/
def Answer.Raised : Answer → Prop
  | .refused _ | .undecodable _ | .noPool | .negativeIndent => True
  | _ => False

/-- The kept configuration that was taken up last is the current one. -/
def Coherent (s : Session) : Prop :=
  ∀ slot, s.heldAs = some slot → s.kept.lookup slot = s.current

/-- A session that took up a new configuration. -/
def Adopts (s s' : Session) (c : Configuration) : Prop :=
  s'.current = some c ∧ s'.kept = s.kept

/-- A session in which an assignment replaced the current configuration. -/
def Replaces (s s' : Session) (c : Configuration) : Prop :=
  s'.current = some c ∧
    ∀ slot, s.heldAs ≠ some slot → s'.kept.lookup slot = s.kept.lookup slot

/-- What a command does to a session, by its outcome. What is plain is refused only where there is
no configuration to take. -/
def Effect (s s' : Session) (a : Answer) : Command → Prop
  | .construct fields =>
      (∃ c : Configuration, c.HeldBy fields ∧ Adopts s s' c ∧ a = .done) ∨
        s' = s ∧ (∃ r, a = .refused r) ∧
          (Value.Plain (.dict fields) → ¬ ∃ c : Configuration, c.HeldBy fields)
  | .fromJson bytes =>
      (∃ (c : Configuration) (j : Json) (entries : Entries), Json.read bytes = .ok j ∧
          j.Denotes (.dict entries) ∧ c.HeldBy entries ∧ Adopts s s' c ∧ a = .done) ∨
        s' = s ∧ (∃ e, a = .undecodable e) ∧
          ¬ ∃ (c : Configuration) (j : Json) (entries : Entries), Json.read bytes = .ok j ∧
            j.Denotes (.dict entries) ∧ c.HeldBy entries
  | .fromWire v =>
      (∃ c : Configuration, (v = .configuration c ∨ ∃ entries, v = .dict entries ∧
          c.HeldBy entries) ∧ Adopts s s' c ∧ a = .done) ∨
        s' = s ∧ (∃ e, a = .undecodable e) ∧
          (v.Plain → ¬ ∃ (c : Configuration) (entries : Entries), v = .dict entries ∧
            c.HeldBy entries)
  | .assign field v =>
      (s.current = none ∧ s' = s ∧ a = .done) ∨
        (∃ c d, s.current = some c ∧ Assigned c d field v ∧ Replaces s s' d ∧ a = .done) ∨
        s' = s ∧ (∃ r, a = .refused r) ∧
          (v.WellKeyed → ∀ c, s.current = some c → ¬ ∃ d, Assigned c d field v)
  | .assignPool field v =>
      s' = s ∧ ∀ c, s.current = some c → (c.pool = none ∧ a = .noPool) ∨
        ∃ p, c.pool = some p ∧ a = .refused ⟨.pool, [⟨[.key field], .frozen, v⟩]⟩
  | .save slot =>
      s'.current = s.current ∧ ∀ c, s.current = some c → s'.kept.lookup slot = some c
  | .load slot => s' = s ∨ ∃ c, s.kept.lookup slot = some c ∧ Adopts s s' c
  | .toWire | .toJson _ | .summary | .reparse _ | .equals _ => s' = s

/-- A step that keeps to what a command may do. -/
structure SoundStep (s : Session) (command : Command) (s' : Session) (a : Answer) : Prop where
  valid : ∀ c, s'.current = some c → c.Valid
  atomic : a.Raised → s' = s
  effect : Effect s s' a command
  coherent : s'.Coherent

variable {s : Session} {c : Configuration} {slot : String}

@[simp] theorem reading_fst {answer : Configuration → Answer} : (s.reading answer).1 = s := by
  unfold reading
  split <;> rfl

theorem lookup_replaced {kept : List (String × Configuration)} {l : String} :
    (kept.map fun e => if e.1 = slot then (e.1, c) else e).lookup l =
      (kept.lookup l).map fun d => if l = slot then c else d := by
  induction kept with
  | nil => rfl
  | cons e kept ih =>
    obtain ⟨k, d⟩ := e
    have he : (if k = slot then (k, c) else (k, d)) = (k, if k = slot then c else d) := by
      split <;> rfl
    rw [List.map_cons, he, lookup_cons_ite, lookup_cons_ite, ih]
    by_cases hl : l = k
    · subst hl
      simp
    · simp only [hl, if_false]

theorem lookup_filter_ne {kept : List (String × Configuration)} {l : String} (h : l ≠ slot) :
    (kept.filter fun e => e.1 ≠ slot).lookup l = kept.lookup l := by
  induction kept with
  | nil => rfl
  | cons e kept ih =>
    obtain ⟨k, d⟩ := e
    rw [lookup_cons_ite]
    by_cases hk : k = slot
    · rw [List.filter_cons_of_neg (by simp [hk]), ih, if_neg (hk ▸ h)]
    · rw [List.filter_cons_of_pos (by simp [hk]), lookup_cons_ite, ih]

theorem adopts_adopt : Adopts s (s.adopt c) c := ⟨rfl, rfl⟩

theorem replaces_replace : Replaces s (s.replace c) c := by
  unfold replace
  split
  · exact ⟨rfl, fun _ _ => rfl⟩
  · next held hh =>
    refine ⟨rfl, fun slot hs => ?_⟩
    have hne : slot ≠ held := fun he => hs (he ▸ hh)
    simp only [lookup_replaced, hne, if_false, Option.map_id']

/-- All that a step can come to: it leaves the session as it was, whatever it answers, or it is done
and has taken up, replaced or kept a configuration. -/
inductive Outcome (s : Session) : Session → Answer → Prop where
  | still {a : Answer} : Outcome s s a
  | adopt {c : Configuration} : Outcome s (s.adopt c) .done
  | replace {c d : Configuration} : s.current = some c → Outcome s (s.replace d) .done
  | keep {slot : String} {c : Configuration} : s.current = some c → Outcome s (s.keep slot c) .done
  | load {slot : String} {c : Configuration} : s.kept.lookup slot = some c →
      Outcome s ⟨some c, s.kept, some slot⟩ .done

theorem outcome_reading {answer : Configuration → Answer} :
    Outcome s (s.reading answer).1 (s.reading answer).2 := by
  rw [reading_fst]
  exact .still

theorem outcome_step {command : Command} :
    Outcome s (s.step command).1 (s.step command).2 := by
  cases command with
  | construct fields =>
    simp only [step]
    split
    · exact .adopt
    · exact .still
  | fromJson bytes =>
    simp only [step]
    split
    · exact .adopt
    · exact .still
  | fromWire v =>
    simp only [step]
    split
    · exact .adopt
    · exact .still
  | assign field v =>
    simp only [step]
    split
    · exact .still
    · next hc =>
      split
      · exact .replace hc
      · exact .still
  | save slot =>
    simp only [step]
    split
    · exact .still
    · next hc => exact .keep hc
  | load slot =>
    simp only [step]
    split
    · exact .still
    · next hc => exact .load hc
  | _ => exact outcome_reading

theorem Outcome.atomic {s' : Session} {a : Answer} (h : Outcome s s' a) (ha : a.Raised) :
    s' = s := by
  cases h with
  | still => rfl
  | adopt | replace | keep | load => cases ha

theorem Outcome.coherent {s' : Session} {a : Answer} (h : Outcome s s' a) (hs : s.Coherent) :
    s'.Coherent := by
  cases h with
  | still => exact hs
  | adopt => exact nofun
  | replace hc =>
    unfold Session.replace
    split
    · exact nofun
    · next held hh =>
      rintro slot ⟨⟩
      rw [lookup_replaced, hs held hh, hc, Option.map_some, if_pos rfl]
  | @keep slot c hc =>
    intro l hl
    have hl : (if s.heldAs = some slot then none else s.heldAs) = some l := hl
    split at hl
    · cases hl
    · next hne =>
      have hls : l ≠ slot := fun he => hne (he ▸ hl)
      show ((slot, c) :: s.kept.filter _).lookup l = s.current
      rw [lookup_cons_ite, if_neg hls, lookup_filter_ne hls, hs l hl]
  | load hc =>
    rintro slot ⟨⟩
    exact hc

theorem effect_construct {fields : Entries} :
    Effect s (s.step (.construct fields)).1 (s.step (.construct fields)).2 (.construct fields) := by
  simp only [step]
  split
  · next c hc =>
    have hc := Configuration.heldBy_of_ofEntries (Checked.report_eq_ok_iff.mp hc)
    exact Or.inl ⟨c, hc, adopts_adopt, rfl⟩
  · next hr =>
    refine Or.inr ⟨rfl, ⟨_, rfl⟩, ?_⟩
    rintro hp ⟨c, hc⟩
    have hf : Configuration.ofFields fields = .ok c :=
      Checked.report_eq_ok_iff.mpr (Configuration.ofEntries_of_heldBy hp hc)
    cases hr.symm.trans hf

theorem effect_fromJson {bytes : List UInt8} :
    Effect s (s.step (.fromJson bytes)).1 (s.step (.fromJson bytes)).2 (.fromJson bytes) := by
  simp only [step]
  split
  · next c hc =>
    obtain ⟨j, entries, hj, hd, hc⟩ := Configuration.heldBy_of_fromJson hc
    exact Or.inl ⟨c, j, entries, hj, hd, hc, adopts_adopt, rfl⟩
  · next he =>
    refine Or.inr ⟨rfl, ⟨_, rfl⟩, ?_⟩
    rintro ⟨c, j, entries, hj, hd, hc⟩
    cases he.symm.trans (Configuration.fromJson_of_heldBy hj hd hc)

theorem effect_fromWire {v : Value} :
    Effect s (s.step (.fromWire v)).1 (s.step (.fromWire v)).2 (.fromWire v) := by
  simp only [step]
  split
  · next c hc =>
    exact Or.inl ⟨c, Configuration.heldBy_of_fromWire hc, adopts_adopt, rfl⟩
  · next he =>
    refine Or.inr ⟨rfl, ⟨_, rfl⟩, ?_⟩
    rintro hp ⟨c, entries, rfl, hc⟩
    cases he.symm.trans (Configuration.fromWire_of_heldBy hp hc)

theorem effect_assign {field : String} {v : Value} :
    Effect s (s.step (.assign field v)).1 (s.step (.assign field v)).2 (.assign field v) := by
  simp only [step]
  split
  · next hn => exact Or.inl ⟨hn, rfl, rfl⟩
  · next c hc =>
    split
    · next d hd =>
      exact Or.inr (Or.inl ⟨c, d, hc, assigned_of_assign hd, replaces_replace, rfl⟩)
    · next hr =>
      refine Or.inr (Or.inr ⟨rfl, ⟨_, rfl⟩, ?_⟩)
      rintro hv c' hc' ⟨d, hd⟩
      cases hc.symm.trans hc'
      cases hr.symm.trans ((assign_eq_ok_iff hv).mpr hd)

theorem effect_assignPool {field : String} {v : Value} :
    Effect s (s.step (.assignPool field v)).1 (s.step (.assignPool field v)).2
      (.assignPool field v) := by
  refine ⟨reading_fst, fun c hc => ?_⟩
  simp only [step, reading, hc]
  cases hp : c.pool with
  | none => exact Or.inl ⟨rfl, rfl⟩
  | some p => exact Or.inr ⟨p, rfl, rfl⟩

theorem effect_save :
    Effect s (s.step (.save slot)).1 (s.step (.save slot)).2 (.save slot) := by
  simp only [step]
  split
  · next hn =>
    refine ⟨rfl, fun c hc => ?_⟩
    rw [hn] at hc
    cases hc
  · next c hc =>
    refine ⟨rfl, fun d hd => ?_⟩
    show ((slot, c) :: s.kept.filter _).lookup slot = some d
    rw [lookup_cons_ite, if_pos rfl, ← hc, hd]

theorem effect_load :
    Effect s (s.step (.load slot)).1 (s.step (.load slot)).2 (.load slot) := by
  simp only [step]
  split
  · exact Or.inl rfl
  · next c hc => exact Or.inr ⟨c, hc, rfl, rfl⟩

theorem effect_step {command : Command} :
    Effect s (s.step command).1 (s.step command).2 command := by
  cases command with
  | construct fields => exact effect_construct
  | fromJson bytes => exact effect_fromJson
  | fromWire v => exact effect_fromWire
  | assign field v => exact effect_assign
  | assignPool field v => exact effect_assignPool
  | save slot => exact effect_save
  | load slot => exact effect_load
  | _ => exact reading_fst

theorem soundStep {command : Command} (hs : s.Coherent) :
    SoundStep s command (s.step command).1 (s.step command).2 :=
  ⟨fun c _ => c.valid, outcome_step.atomic, effect_step, outcome_step.coherent hs⟩

/-! ## Runs -/

/-- A run of which every step is sound. -/
inductive SoundRun : Session → List Command → List (Session × Answer) → Prop where
  | nil {s : Session} : SoundRun s [] []
  | cons {s s' : Session} {a : Answer} {command : Command} {commands : List Command}
      {rest : List (Session × Answer)} : SoundStep s command s' a → SoundRun s' commands rest →
      SoundRun s (command :: commands) ((s', a) :: rest)

theorem soundRun_of_coherent {commands : List Command} (hs : s.Coherent) :
    SoundRun s commands (s.run commands) := by
  induction commands generalizing s with
  | nil => exact .nil
  | cons command commands ih =>
    have h := @soundStep s command hs
    exact .cons h (ih h.coherent)

/-- Every run from the start is sound, whatever the commands and their outcomes. -/
theorem soundRun_start (commands : List Command) : SoundRun start commands (start.run commands) :=
  soundRun_of_coherent nofun

end Session

end AgentControl
