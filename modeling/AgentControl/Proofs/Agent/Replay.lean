import AgentControl.Proofs.Agent.InStep
import AgentControl.Proofs.Configuration.Normal

/-! # Replaying the log

The controller logs every request that it follows. From the messages alone an observer can tell,
after each request, whether the agent runs and which configuration it was given last.
-/

open AgentControl.Configuration (fromJson bytesOf)

namespace AgentControl.Controller

/-! ## Runs -/

/-- A request to the controller. -/
inductive Call where
  | start (c : Configuration)
  | stop

/-- The configuration that a call starts the agent with. -/
def Call.configuration? : Call → Option Configuration
  | start c => some c
  | stop => none

variable {s : Controller} {c : Configuration} {call : Call} {calls before rest : List Call}
  {text : String} {records : List LogRecord}

def step (s : Controller) : Call → Controller × List LogRecord
  | .start c => s.start c
  | .stop => s.stop

/-- A new controller and its log after a run. -/
def run (calls : List Call) : Controller × List LogRecord :=
  calls.foldl (fun r call => ((r.1.step call).1, r.2 ++ (r.1.step call).2)) ({}, [])

def after (calls : List Call) : Controller := (run calls).1

def log (calls : List Call) : List LogRecord := (run calls).2

theorem run_snoc : run (calls ++ [call]) =
    (((after calls).step call).1, log calls ++ ((after calls).step call).2) :=
  List.foldl_concat ..

theorem after_snoc : after (calls ++ [call]) = ((after calls).step call).1 := by
  rw [after, run_snoc]

theorem after_snoc_start : after (calls ++ [.start c]) = ⟨true, some c⟩ := by
  rw [after_snoc]
  rfl

theorem after_snoc_stop : after (calls ++ [.stop]) = ⟨false, (after calls).last⟩ := by
  rw [after_snoc, step, stop_fst]

theorem log_snoc : log (calls ++ [call]) = log calls ++ ((after calls).step call).2 := by
  rw [log, run_snoc]

/-- The log only grows. -/
theorem log_prefix_append : log before <+: log (before ++ rest) := by
  induction rest using List.reverseRecOn with
  | nil => simp
  | append_singleton rest call ih =>
    rw [← List.append_assoc, log_snoc]
    exact ih.trans (List.prefix_append ..)

/-! ## Running -/

/-- The agent was started and not stopped since. -/
def Started (calls : List Call) : Prop :=
  ∃ before c rest, calls = before ++ .start c :: rest ∧ .stop ∉ rest

theorem not_started_nil : ¬ Started [] := by
  rintro ⟨before, c, rest, h, -⟩
  cases before <;> cases h

theorem started_snoc_start : Started (calls ++ [.start c]) :=
  ⟨calls, c, [], rfl, List.not_mem_nil⟩

theorem not_started_snoc_stop : ¬ Started (calls ++ [.stop]) := by
  rintro ⟨before, c, rest, h, hn⟩
  -- the last call is not that start, so it is one of those behind it
  have hl : (.start c :: rest : List Call).getLast? = some .stop := by
    rw [← List.getLast?_append_of_ne_nil before (List.cons_ne_nil _ _), ← h, List.getLast?_concat]
  cases List.mem_of_getLast? hl with
  | tail _ hm => exact hn hm

theorem running_iff : (after calls).running = true ↔ Started calls := by
  induction calls using List.reverseRecOn with
  | nil => exact iff_of_false nofun not_started_nil
  | append_singleton calls call _ =>
    cases call with
    | start c =>
      rw [after_snoc_start]
      exact iff_of_true rfl started_snoc_start
    | stop =>
      rw [after_snoc_stop]
      exact iff_of_false nofun not_started_snoc_stop

/-- A stop in vain changes nothing. -/
theorem after_snoc_stop_of_not_started (h : ¬ Started calls) :
    after (calls ++ [.stop]) = after calls := by
  have hr : (after calls).running = false := Bool.eq_false_iff.mpr fun hr => h (running_iff.mp hr)
  rw [after_snoc_stop, ← hr]

/-! ## What is logged -/

/-- The log that calls leave, where the calls before one tell which records it adds. -/
inductive Logged : List Call → List LogRecord → Prop where
  | new : Logged [] []
  | started {calls : List Call} {records : List LogRecord} {c : Configuration} {text : String} :
      Logged calls records → ¬ Started calls → fromJson (bytesOf text) = .ok c →
      Logged (calls ++ [.start c])
        (records ++
          [⟨"agent_console.tui.controller", 20, "Received agent configuration: " ++ text⟩])
  | restarted {calls : List Call} {records : List LogRecord} {c : Configuration} {text : String} :
      Logged calls records → Started calls → fromJson (bytesOf text) = .ok c →
      Logged (calls ++ [.start c])
        (records ++
          [⟨"agent_console.tui.controller", 20,
            "Agent already running, restarting with new configuration"⟩,
            ⟨"agent_console.tui.controller", 20, "Received agent configuration: " ++ text⟩])
  | stopped {calls : List Call} {records : List LogRecord} :
      Logged calls records → Started calls →
      Logged (calls ++ [.stop])
        (records ++ [⟨"agent_console.tui.controller", 20, "Stopping agent"⟩])
  | idle {calls : List Call} {records : List LogRecord} :
      Logged calls records → ¬ Started calls →
      Logged (calls ++ [.stop])
        (records ++
          [⟨"agent_console.tui.controller", 10, "Stop requested but agent is not running"⟩])

theorem fromJson_text (h : ∀ n ∈ c.numbers, Legible n) :
    fromJson (bytesOf (c.toJson none)) = .ok c := by
  rw [← List.append_nil (bytesOf _)]
  exact Configuration.fromJson_of_legible h (List.forall_mem_nil _)

theorem Logged.step (h : Logged calls records)
    (hc : ∀ c, call = .start c → ∀ n ∈ c.numbers, Legible n) :
    Logged (calls ++ [call]) (records ++ ((after calls).step call).2) := by
  by_cases hs : Started calls
  · have hr := running_iff.mpr hs
    cases call with
    | start c =>
      rw [Controller.step, start, if_pos hr]
      exact h.restarted hs (fromJson_text (hc c rfl))
    | stop =>
      rw [Controller.step, stop, if_pos hr]
      exact h.stopped hs
  · have hr := mt running_iff.mp hs
    cases call with
    | start c =>
      rw [Controller.step, start, if_neg hr]
      exact h.started hs (fromJson_text (hc c rfl))
    | stop =>
      rw [Controller.step, stop, if_neg hr]
      exact h.idle hs

theorem logged_log (h : ∀ c, .start c ∈ calls → ∀ n ∈ c.numbers, Legible n) :
    Logged calls (log calls) := by
  -- from the right end, as what a call logs hangs on all the calls before it
  induction calls using List.reverseRecOn with
  | nil => exact .new
  | append_singleton calls call ih =>
    rw [log_snoc]
    refine (ih fun c hc => h c (List.mem_append_left _ hc)).step ?_
    rintro c rfl
    exact h c (by simp)

/-! ## The observer -/

/-- The text that a message gives as a configuration. -/
def textIn? (message : String) : Option String :=
  (message.toList.dropPrefix? "Received agent configuration: ".toList).map String.ofList

@[simp] theorem textIn?_received :
    textIn? ("Received agent configuration: " ++ text) = some text := by
  rw [textIn?, String.toList_append, List.dropPrefix?_append_of_beq _ (beq_self_eq_true _),
    Option.map_some, String.ofList_toList]

@[simp] theorem textIn?_restarting :
    textIn? "Agent already running, restarting with new configuration" = none := rfl

@[simp] theorem textIn?_stopping : textIn? "Stopping agent" = none := rfl

@[simp] theorem textIn?_idle : textIn? "Stop requested but agent is not running" = none := rfl

/-- What an observer makes of a message. -/
def observe (seen : Controller) (message : String) : Controller :=
  match textIn? message with
  | some text => ⟨true, (fromJson (bytesOf text)).toOption⟩
  | none => if message = "Stopping agent" then { seen with running := false } else seen

/-- The controller that messages tell of. -/
def replay (messages : List String) : Controller := messages.foldl observe {}

theorem replay_append {messages more : List String} :
    replay (messages ++ more) = more.foldl observe (replay messages) :=
  List.foldl_append

theorem observe_received (h : fromJson (bytesOf text) = .ok c) :
    observe s ("Received agent configuration: " ++ text) = ⟨true, some c⟩ := by
  simp only [observe, textIn?_received, h]
  rfl

theorem Logged.replay_eq (h : Logged calls records) :
    replay (records.map LogRecord.message) = after calls := by
  induction h with
  | new => rfl
  | started _ _ ht | restarted _ _ ht =>
    rw [after_snoc_start, List.map_append, replay_append]
    exact observe_received ht
  | stopped _ _ ih =>
    rw [after_snoc_stop, List.map_append, replay_append, ih]
    rfl
  | idle _ hs ih =>
    rw [after_snoc_stop_of_not_started hs, List.map_append, replay_append, ih]
    rfl

/-- Each configuration that was started is in the log once, in the order of the starts. -/
theorem Logged.map_texts (h : Logged calls records) :
    (records.filterMap fun r => textIn? r.message).map (fun text => fromJson (bytesOf text)) =
      (calls.filterMap Call.configuration?).map .ok := by
  induction h with
  | new => rfl
  | started _ _ ht ih | restarted _ _ ht ih =>
      simpa [List.filterMap_cons, Call.configuration?, ht] using ih
  | stopped _ _ ih | idle _ _ ih => simpa [List.filterMap_cons, Call.configuration?] using ih

/-! ## The account -/

/-- The log of a run on a new controller is a faithful account of it. -/
structure Account (calls : List Call) : Prop where
  logged : Logged calls (log calls)
  received : ((log calls).filterMap fun r => textIn? r.message).map
    (fun text => fromJson (bytesOf text)) =
    (calls.filterMap Call.configuration?).map .ok
  idle : ∀ before rest, calls = before ++ .stop :: rest → ¬ Started before →
    after (before ++ [.stop]) = after before
  running : ∀ before, before <+: calls → ((after before).running = true ↔ Started before)
  replayed : ∀ before, before <+: calls →
    log before <+: log calls ∧ replay ((log before).map LogRecord.message) = after before

/-- The log of a new controller accounts for every run, if what it starts can be read back. -/
theorem account_of_legible (h : ∀ c, .start c ∈ calls → ∀ n ∈ c.numbers, Legible n) :
    Account calls where
  logged := logged_log h
  received := (logged_log h).map_texts
  idle := fun _ _ _ => after_snoc_stop_of_not_started
  running := fun _ _ => running_iff
  replayed := by
    rintro before ⟨rest, rfl⟩
    refine ⟨log_prefix_append, (logged_log fun c hc => ?_).replay_eq⟩
    exact h c (List.mem_append_left _ hc)

/-- A start, a restart, a stop and a stop in vain. -/
def busyCalls : List Call :=
  [.start (.longConfiguration 4299), .start (.longConfiguration 0), .stop, .stop]

/-- The log still tells of the restart after both stops. -/
theorem account_of_legible_busy :
    (∀ c, .start c ∈ busyCalls → ∀ n ∈ c.numbers, Legible n) ∧
      replay ((log busyCalls).map LogRecord.message) = ⟨false, some (.longConfiguration 0)⟩ := by
  have h : ∀ c, .start c ∈ busyCalls → ∀ n ∈ c.numbers, Legible n := by
    simp only [busyCalls, List.mem_cons, Call.start.injEq, reduceCtorEq, List.not_mem_nil, or_false]
    rintro c (rfl | rfl)
    · exact Configuration.legible_long (by decide)
    · exact Configuration.legible_long (by decide)
  exact ⟨h, ((account_of_legible h).replayed _ List.prefix_rfl).2⟩

end AgentControl.Controller
