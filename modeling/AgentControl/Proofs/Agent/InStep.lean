import Mathlib.Data.List.Induction
import AgentControl.Proofs.Agent.Content
import AgentControl.Proofs.Configuration.Session
import AgentControl.Proofs.Configuration.Summary

/-! # The form and its controller

The form, its status line and the controller each keep whether the agent runs. Along every run they
say the same, and the controller holds the configuration of the last start that was not refused.
-/

namespace AgentControl

/-! ## Controllers -/

namespace Controller

@[simp] theorem stop_fst {s : Controller} : s.stop.1 = ⟨false, s.last⟩ := by
  obtain ⟨running, last⟩ := s
  cases running <;> rfl

end Controller

namespace Form

variable {s : Form} {c : Configuration} {command : Command} {commands : List Command}

/-! ## Runs -/

/-- The form after a run. -/
def after (s : Form) (commands : List Command) : Form :=
  ((s.run commands).getLast?.map Prod.fst).getD s

@[simp] theorem after_nil : s.after [] = s := rfl

theorem after_cons : s.after (command :: commands) = (s.step command).1.after commands := by
  rw [after, run, List.getLast?_cons, Option.map_some, Option.getD_some, after]
  cases (Form.run _ commands).getLast? <;> rfl

theorem after_append {more : List Command} :
    s.after (commands ++ more) = (s.after commands).after more := by
  induction commands generalizing s with
  | nil => rfl
  | cons command commands ih => rw [List.cons_append, after_cons, after_cons, ih]

theorem after_snoc : s.after (commands ++ [command]) = ((s.after commands).step command).1 := by
  rw [after_append, after_cons, after_nil]

/-! ## Steps -/

/-- The status line of a running or a stopped agent. -/
def statusOf (running : Bool) : StatusLine :=
  if running then ⟨"Agent running", true⟩ else ⟨"Agent stopped", false⟩

/-- The form, its status line and the controller agree on whether the agent runs. -/
structure InStep (s : Form) : Prop where
  running : s.agentRunning = s.controller.running
  status : s.status = statusOf s.agentRunning

@[simp] theorem note_agentRunning {running : Bool} : (s.note running).agentRunning = running := by
  unfold note
  split
  · next h => exact h.symm
  · rfl

@[simp] theorem note_controller {running : Bool} : (s.note running).controller = s.controller := by
  unfold note
  split <;> rfl

@[simp] theorem note_content {running : Bool} : (s.note running).content = s.content := by
  unfold note
  split <;> rfl

/-- A note keeps the status line right, whether or not it is news. -/
theorem note_status {running : Bool} (h : s.status = statusOf s.agentRunning) :
    (s.note running).status = statusOf running := by
  unfold note
  split
  · next hr => rw [h, hr]
  · cases running <;> rfl

theorem InStep.note {running : Bool} (h : s.status = statusOf s.agentRunning)
    (hr : s.controller.running = running) : (s.note running).InStep := by
  refine ⟨?_, ?_⟩
  · rw [note_agentRunning, note_controller, hr]
  · rw [note_agentRunning, note_status h]

theorem startAgent_of_error {e : ConfigurationError} (h : s.content.read = .error e) :
    s.startAgent = (s, { notices := [⟨"Invalid configuration", e.message, true⟩] }) := by
  rw [startAgent, h]

/-- A configuration that was read from the form has a summary to notify of. -/
theorem startAgent_of_ok (h : s.content.read = .ok c) :
    ∃ line, c.summary = .ok line ∧
      s.startAgent = (({ s with controller := ⟨true, some c⟩ } : Form).note true,
        { configuration := some (.ok c), notices := [⟨"Agent started", line, false⟩],
          records := (s.controller.start c).2 }) := by
  obtain ⟨line, hs⟩ := Configuration.exists_summary (FormContent.legible_of_read h)
  refine ⟨line, hs, ?_⟩
  simp only [startAgent, h, hs]
  rfl

theorem stopAgent_fst :
    s.stopAgent.1 = ({ s with controller := ⟨false, s.controller.last⟩ } : Form).note false := by
  rw [← Controller.stop_fst]
  rfl

theorem inStep_start (initial : Option Configuration) : (start initial).InStep := by
  cases initial <;> exact ⟨rfl, rfl⟩

theorem InStep.step (h : s.InStep) (command : Command) : (s.step command).1.InStep := by
  cases command with
  | set f text => exact ⟨h.running, h.status⟩
  | choose level => exact ⟨h.running, h.status⟩
  | read => exact h
  | load c => exact ⟨h.running, h.status⟩
  | start =>
    cases hr : s.content.read with
    | error e =>
      rw [Form.step, startAgent_of_error hr]
      exact h
    | ok c =>
      obtain ⟨line, -, ha⟩ := startAgent_of_ok hr
      rw [Form.step, ha]
      exact InStep.note h.status rfl
  | stop =>
    rw [Form.step, stopAgent_fst]
    exact InStep.note h.status rfl

theorem inStep_after (initial : Option Configuration) (commands : List Command) :
    ((start initial).after commands).InStep := by
  induction commands using List.reverseRecOn with
  | nil => exact inStep_start initial
  | append_singleton commands command ih =>
    rw [after_snoc]
    exact ih.step command

/-! ## The last start -/

/-- Every start of a run is refused. -/
def Refused (s : Form) (commands : List Command) : Prop :=
  ∀ before rest, commands = before ++ .start :: rest →
    ∃ e, (s.after before).content.read = .error e

/-- What the form was read as at the last start of a run that was not refused. -/
inductive LastStart (s : Form) (commands : List Command) : Option Configuration → Prop where
  | never : s.Refused commands → LastStart s commands none
  | started {before rest : List Command} {c : Configuration} :
      commands = before ++ .start :: rest → (s.after before).content.read = .ok c →
      (s.after (before ++ [.start])).Refused rest → LastStart s commands (some c)

theorem refused_nil : s.Refused [] := by
  intro before rest h
  cases before <;> cases h

theorem Refused.snoc (h : s.Refused commands)
    (hc : command = .start → ∃ e, (s.after commands).content.read = .error e) :
    s.Refused (commands ++ [command]) := by
  intro before rest he
  rcases List.eq_nil_or_concat rest with rfl | ⟨rest, last, rfl⟩
  · obtain ⟨rfl, hs⟩ := List.append_inj' he rfl
    exact hc (List.singleton_inj.mp hs)
  · rw [List.concat_eq_append, ← List.cons_append, ← List.append_assoc] at he
    obtain ⟨rfl, -⟩ := List.append_inj' he rfl
    exact h before rest rfl

variable {last : Option Configuration}

theorem LastStart.snoc (h : LastStart s commands last)
    (hc : command = .start → ∃ e, (s.after commands).content.read = .error e) :
    LastStart s (commands ++ [command]) last := by
  cases h with
  | never hn => exact .never (hn.snoc hc)
  | @started before rest c he hr hn =>
    subst he
    refine .started (List.append_assoc ..) hr (hn.snoc fun hs => ?_)
    rw [← after_append, List.append_assoc]
    exact hc hs

theorem lastStart_snoc_start (h : (s.after commands).content.read = .ok c) :
    LastStart s (commands ++ [.start]) (some c) :=
  .started rfl h refused_nil

theorem step_controller (h : command ≠ .start) :
    (s.step command).1.controller.last = s.controller.last := by
  cases command with
  | start => exact absurd rfl h
  | stop => rw [step, stopAgent_fst, note_controller]
  | _ => rfl

theorem lastStart_after (initial : Option Configuration) (commands : List Command) :
    LastStart (start initial) commands ((start initial).after commands).controller.last := by
  induction commands using List.reverseRecOn with
  | nil => cases initial <;> exact .never refused_nil
  | append_singleton commands command ih =>
    rw [after_snoc]
    by_cases hc : command = .start
    · subst hc
      cases hr : ((start initial).after commands).content.read with
      | error e =>
        rw [step, startAgent_of_error hr]
        exact ih.snoc fun _ => ⟨e, hr⟩
      | ok c =>
        obtain ⟨line, -, ha⟩ := startAgent_of_ok hr
        rw [step, ha, note_controller]
        exact lastStart_snoc_start hr
    · rw [step_controller hc]
      exact ih.snoc fun h => absurd h hc

theorem LastStart.legible (h : LastStart s commands (some c)) : ∀ n ∈ c.numbers, Legible n := by
  cases h with
  | started _ hr _ => exact FormContent.legible_of_read hr

/-- What holds of a form that came up as another one and has followed commands since. -/
structure Reached (first : Form) (commands : List Command) (s : Form) : Prop where
  inStep : s.InStep
  last : LastStart first commands s.controller.last
  valid : ∀ c, s.controller.last = some c → c.Valid ∧ ∀ n ∈ c.numbers, Legible n
  stopped : (s.step .stop).1.controller = ⟨false, s.controller.last⟩
  accepted : ∀ c, s.content.read = .ok c →
    (s.step .start).2.configuration = some (.ok c) ∧
      (s.step .start).1.controller = ⟨true, some c⟩ ∧ (s.step .start).1.content = s.content
  refused : ∀ e, s.content.read = .error e →
    (s.step .start).2.configuration = none ∧ (s.step .start).1 = s

/-- After every run the form, its status line and the controller are in step, and the controller
holds what was read at the last start that was not refused. -/
theorem reached_after (initial : Option Configuration) (commands : List Command) :
    Reached (start initial) commands ((start initial).after commands) where
  inStep := inStep_after initial commands
  last := lastStart_after initial commands
  valid := by
    intro c hc
    have hlast := lastStart_after initial commands
    rw [hc] at hlast
    exact ⟨c.valid, hlast.legible⟩
  stopped := by
    rw [step, stopAgent_fst, note_controller]
  accepted := by
    intro c hr
    obtain ⟨line, -, ha⟩ := startAgent_of_ok hr
    rw [step, ha]
    exact ⟨rfl, note_controller, note_content⟩
  refused := by
    intro e he
    rw [step, startAgent_of_error he]
    exact ⟨rfl, rfl⟩

end Form

end AgentControl
