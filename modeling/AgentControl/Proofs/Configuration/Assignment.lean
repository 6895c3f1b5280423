import AgentControl.Configuration.Session
import AgentControl.Proofs.Configuration.Decoding

/-! # Assignment as construction

A value that is assigned passes the check that it would pass as a field of a new configuration, and
nothing else of the configuration counts. So an assignment comes to what building from the same
fields with that one replaced comes to, and assignments to different fields do not see each other.
-/

namespace AgentControl

open Value (Entries)

namespace Configuration

/-! ## Fields -/

inductive Field where
  | port
  | workers
  | maxLogLevel
  | pool
deriving DecidableEq, Repr

namespace Field

def all : List Field := [port, workers, maxLogLevel, pool]

def name : Field → FieldName
  | port => .port
  | workers => .workers
  | maxLogLevel => .maxLogLevel
  | pool => .pool

/-- What a configuration holds in a field. -/
def value (c : Configuration) : Field → Value
  | port => .int c.port
  | workers => .int c.workers
  | maxLogLevel => (c.maxLogLevel.map Value.level).getD .null
  | pool => (c.pool.map Value.pool).getD .null

end Field

/-- The fields of a configuration under the library's own names. -/
def ownEntries (c : Configuration) : Entries :=
  Field.all.map fun f => (.str f.name.own, f.value c)

/-- A value that has been checked for a field. -/
inductive Setting where
  | port (p : { p : ℕ // 1 ≤ p ∧ p ≤ 65535 })
  | workers (w : { w : ℕ // 1 ≤ w })
  | maxLogLevel (l : Option LogLevel)
  | pool (p : Option ConnectionPool)

namespace Setting

def field : Setting → Field
  | port _ => .port
  | workers _ => .workers
  | maxLogLevel _ => .maxLogLevel
  | pool _ => .pool

theorem one_le_port (p : { p : Nat // 1 ≤ p ∧ p ≤ 65535 }) : 1 ≤ p.1 := p.2.1

theorem port_le (p : { p : Nat // 1 ≤ p ∧ p ≤ 65535 }) : p.1 ≤ 65535 := p.2.2

theorem one_le_workers (w : { w : Nat // 1 ≤ w }) : 1 ≤ w.1 := w.2

/-- The configuration with the field set. -/
def apply (c : Configuration) : Setting → Configuration
  | port p => ⟨p.1, c.workers, c.maxLogLevel, c.pool, one_le_port p, port_le p, c.one_le_workers⟩
  | workers w => ⟨c.port, w.1, c.maxLogLevel, c.pool, c.one_le_port, c.port_le, one_le_workers w⟩
  | maxLogLevel l => { c with maxLogLevel := l }
  | pool p => { c with pool := p }

theorem apply_comm {s t : Setting} (h : s.field ≠ t.field) (c : Configuration) :
    t.apply (s.apply c) = s.apply (t.apply c) := by
  cases s <;> cases t <;> first | rfl | exact absurd rfl h

end Setting

/-- The check that a value for a field has to pass. -/
def Field.check (v : Value) : Field → Checked Setting
  | port => (checkPort v).map .port
  | workers => (checkWorkers v).map .workers
  | maxLogLevel => (checkLevel v).map .maxLogLevel
  | pool => (ConnectionPool.checkOptional .data v).map .pool

variable {c : Configuration} {f g : Field} {v w : Value}

theorem Field.field_of_check {s : Setting} (h : f.check v = .ok s) : s.field = f := by
  cases f <;> obtain ⟨a, -, rfl⟩ := Checked.map_eq_ok_iff.mp h <;> rfl

end Configuration

/-! ## Two ways to one check -/

namespace Checked

variable {α β γ : Type} {r : Checked α}

theorem within_map {k : Step} {h : α → β} :
    within k (r.map h) = (r.within k).map h := by
  cases r <;> rfl

theorem map_ok {a : α} {h : α → β} : Except.map h (.ok a : Checked α) = .ok (h a) := rfl

theorem map_map {h : α → β} {i : β → γ} : (r.map h).map i = r.map fun a => i (h a) := by
  cases r <;> rfl

theorem ok_both {b : β} : both (.ok b) r = r.map fun a => (b, a) := by
  cases r <;> rfl

theorem both_ok {b : β} : r.both (.ok b) = r.map fun a => (a, b) := by
  cases r <;> rfl

end Checked

namespace Configuration

variable {c : Configuration} {f g : Field} {v w : Value}

theorem assignChecked_own :
    c.assignChecked f.name.own v =
      ((f.check v).within (.key f.name.own)).map fun s => s.apply c := by
  unfold assignChecked
  cases f with
  | port =>
    rw [if_pos (by rfl), Field.check, Checked.within_map, Checked.map_map]
    refine congrArg (Except.map · (assigned .port checkPort v)) (funext ?_)
    rintro ⟨p, h₁, h₂⟩
    rfl
  | workers =>
    rw [if_neg (by decide), if_pos (by rfl), Field.check, Checked.within_map, Checked.map_map]
    rfl
  | maxLogLevel =>
    rw [if_neg (by decide), if_neg (by decide), if_pos (by rfl), Field.check, Checked.within_map,
      Checked.map_map]
    rfl
  | pool =>
    rw [if_neg (by decide), if_neg (by decide), if_neg (by decide), if_pos (by rfl), Field.check,
      Checked.within_map, Checked.map_map]
    rfl

theorem ofEntries_own (value : Field → Value) :
    ofEntries .data (Field.all.map fun f => (.str f.name.own, value f)) =
      ((assigned .port checkPort (value .port)).both
        ((assigned .workers checkWorkers (value .workers)).both
          ((assigned .maxLogLevel checkLevel (value .maxLogLevel)).both
            (assigned .pool (ConnectionPool.checkOptional .data) (value .pool))))).map
        fun t => ⟨t.1.1, t.2.1.1, t.2.2.1, t.2.2.2, t.1.2.1, t.1.2.2, t.2.1.2⟩ := by
  rw [ofEntries_eq]
  rfl

theorem assigned_port_value : assigned .port checkPort (Field.port.value c) =
    .ok ⟨c.port, c.one_le_port, c.port_le⟩ :=
  Checked.within_eq_ok_iff.mpr
    (checkInteger_eq_ok_iff.mpr ⟨c.port, rfl, portOf?_eq_some_iff.mpr rfl⟩)

theorem assigned_workers_value : assigned .workers checkWorkers (Field.workers.value c) =
    .ok ⟨c.workers, c.one_le_workers⟩ :=
  Checked.within_eq_ok_iff.mpr
    (checkInteger_eq_ok_iff.mpr ⟨c.workers, rfl, workersOf?_eq_some_iff.mpr rfl⟩)

theorem assigned_maxLogLevel_value :
    assigned .maxLogLevel checkLevel (Field.maxLogLevel.value c) = .ok c.maxLogLevel := by
  unfold Field.value
  cases c.maxLogLevel <;> rfl

theorem assigned_pool_value :
    assigned .pool (ConnectionPool.checkOptional .data) (Field.pool.value c) = .ok c.pool := by
  unfold Field.value
  cases c.pool <;> rfl

theorem put_ownEntries : Value.put f.name.own v c.ownEntries =
    Field.all.map fun g => (.str g.name.own, if g = f then v else g.value c) := by
  cases f <;> rfl

/-- Building from the fields of a configuration with one of them replaced is its check as well. -/
theorem ofEntries_put : ofEntries .data (Value.put f.name.own v c.ownEntries) =
    ((f.check v).within (.key f.name.own)).map fun s => s.apply c := by
  rw [put_ownEntries, ofEntries_own]
  -- what the other three fields hold passes its check, so one check is left
  cases f <;>
    simp only [reduceCtorEq, ite_true, ite_false, assigned_port_value, assigned_workers_value,
      assigned_maxLogLevel_value, assigned_pool_value, Checked.both_ok, Checked.ok_both,
      Checked.map_ok, Checked.map_map, Checked.within_map, Field.check] <;>
    rfl

theorem assignChecked_of_ne {field : String} (h : ∀ g : Field, field ≠ g.name.own) :
    c.assignChecked field v = Checked.within (.key field) (Checked.fail (.noField field) v) := by
  have h₁ : field ≠ FieldName.port.own := h .port
  have h₂ : field ≠ FieldName.workers.own := h .workers
  have h₃ : field ≠ FieldName.maxLogLevel.own := h .maxLogLevel
  have h₄ : field ≠ FieldName.pool.own := h .pool
  rw [assignChecked, if_neg h₁, if_neg h₂, if_neg h₃, if_neg h₄]

theorem Field.wire_ne_own : f.name.wire ≠ g.name.own := by
  cases f <;> cases g <;> decide

/-- Whether an assignment is accepted, and what it sets or what is wrong with it, does not hang on
the configuration. -/
theorem assign_cases (f : Field) (v : Value) :
    (∃ r, ∀ c, assign c f.name.own v = .error r) ∨
      ∃ s : Setting, s.field = f ∧ ∀ c, assign c f.name.own v = .ok (s.apply c) := by
  have ha (c : Configuration) : assign c f.name.own v = Checked.report .configuration
      (((f.check v).within (.key f.name.own)).map fun s => s.apply c) :=
    congrArg (Checked.report .configuration) assignChecked_own
  cases hv : f.check v with
  | error is =>
    rw [hv] at ha
    exact Or.inl ⟨_, ha⟩
  | ok s =>
    rw [hv] at ha
    exact Or.inr ⟨s, Field.field_of_check hv, ha⟩

end Configuration

/-! ## Assignments in a session -/

namespace Session

open AgentControl.Configuration (Field Setting)

/-- Two commands that do not see each other: either order gives each of them the same answer and
leaves the same session. -/
structure Independent (s : Session) (a b : Command) : Prop where
  first : (s.step a).2 = ((s.step b).1.step a).2
  second : ((s.step a).1.step b).2 = (s.step b).2
  last : ((s.step a).1.step b).1 = ((s.step b).1.step a).1

variable {s : Session} {c d : Configuration} {field : String} {v : Value}

@[simp] theorem current_replace : (s.replace c).current = some c := by
  unfold replace
  split <;> rfl

theorem replace_replace : (s.replace c).replace d = s.replace d := by
  unfold replace
  cases s.heldAs with
  | none => rfl
  | some slot =>
    have hm (e : String × Configuration) :
        (if (if e.1 = slot then (e.1, c) else e).1 = slot then
            ((if e.1 = slot then (e.1, c) else e).1, d)
          else if e.1 = slot then (e.1, c) else e) = if e.1 = slot then (e.1, d) else e := by
      by_cases he : e.1 = slot
      · rw [if_pos he, if_pos he, if_pos he]
      · rw [if_neg he, if_neg he]
    simp only [List.map_map, Function.comp_def, hm]

/-- What an assignment does to a session with a current configuration. -/
theorem step_assign_cases (f : Field) (v : Value) :
    (∃ r, ∀ (s : Session) (c : Configuration), s.current = some c →
        s.step (.assign f.name.own v) = (s, .refused r)) ∨
      ∃ a : Setting, a.field = f ∧ ∀ (s : Session) (c : Configuration), s.current = some c →
        s.step (.assign f.name.own v) = (s.replace (a.apply c), .done) := by
  rcases Configuration.assign_cases f v with ⟨r, hr⟩ | ⟨a, hf, ha⟩
  · refine Or.inl ⟨r, fun s c hc => ?_⟩
    simp only [step, hc, hr]
  · refine Or.inr ⟨a, hf, fun s c hc => ?_⟩
    simp only [step, hc, ha]

theorem independent_assign {f g : Field} {w : Value} (h : f ≠ g) :
    s.Independent (.assign f.name.own v) (.assign g.name.own w) := by
  cases hc : s.current with
  | none =>
    have hn (field : String) (x : Value) : s.step (.assign field x) = (s, .done) := by
      simp only [step, hc]
    exact ⟨by simp only [hn], by simp only [hn], by simp only [hn]⟩
  | some c =>
    rcases step_assign_cases f v with ⟨r, hf⟩ | ⟨a, rfl, hf⟩ <;>
      rcases step_assign_cases g w with ⟨q, hg⟩ | ⟨b, rfl, hg⟩ <;>
      have hfs := hf s c hc <;> have hgs := hg s c hc
    · refine ⟨?_, ?_, ?_⟩ <;> simp only [hfs, hgs]
    · have hfd := hf (s.replace (b.apply c)) _ current_replace
      refine ⟨?_, ?_, ?_⟩ <;> simp only [hfs, hgs, hfd]
    · have hgd := hg (s.replace (a.apply c)) _ current_replace
      refine ⟨?_, ?_, ?_⟩ <;> simp only [hfs, hgs, hgd]
    · have hfd := hf (s.replace (b.apply c)) _ current_replace
      have hgd := hg (s.replace (a.apply c)) _ current_replace
      refine ⟨?_, ?_, ?_⟩ <;> simp only [hfs, hgs, hfd, hgd, replace_replace]
      rw [Setting.apply_comm h]

end Session

namespace Configuration

/-- Assigning to a field of a configuration is building one from its fields with that one replaced:
both take the same values, come to the same configuration and report the same issues. Under a wire
name nothing can be assigned, and assignments to different fields can be made in either order. -/
theorem assign_as_construction (c : Configuration) :
    (∀ (f : Field) (v : Value),
        c.assign f.name.own v = ofFields (Value.put f.name.own v c.ownEntries)) ∧
      ∀ s : Session, s.current = some c →
        (∀ (f : Field) (v : Value), s.step (.assign f.name.wire v) =
          (s, .refused ⟨.configuration, [⟨[.key f.name.wire], .noField f.name.wire, v⟩]⟩)) ∧
        ∀ (f g : Field) (v w : Value), f ≠ g →
          s.Independent (.assign f.name.own v) (.assign g.name.own w) := by
  refine ⟨fun f v => ?_, fun s hs => ⟨fun f v => ?_, fun f g v w h => ?_⟩⟩
  · rw [assign, ofFields, assignChecked_own, ofEntries_put]
  · have hw : c.assign f.name.wire v =
        .error ⟨.configuration, [⟨[.key f.name.wire], .noField f.name.wire, v⟩]⟩ := by
      rw [assign, assignChecked_of_ne fun _ => Field.wire_ne_own]
      rfl
    simp only [Session.step, hs, hw]
  · exact Session.independent_assign h

def heldConfiguration : Configuration :=
  ⟨8080, 4, some .info, some ⟨30, 10, 100⟩, by decide, by decide, by decide⟩

/-- A session with a kept configuration that has been taken up again. -/
def heldSession : Session :=
  ⟨some heldConfiguration, [("first", heldConfiguration)], some "first"⟩

/-- A refused assignment and one of a pool, which is given with one name of each kind. -/
theorem assign_as_construction_held :
    heldSession.current = some heldConfiguration ∧ Field.workers ≠ Field.pool ∧
      heldSession.Independent (.assign "worker_thread_number" (.bool true))
        (.assign "connection_pool_configuration"
          (.dict [(.str "checkInterval", .int 0), (.str "fill_interval", .int 1),
            (.str "maxPoolSize", .int 0)])) :=
  ⟨rfl, by decide, ((assign_as_construction heldConfiguration).2 heldSession rfl).2 .workers .pool
    _ _ (by decide)⟩

end Configuration

end AgentControl
