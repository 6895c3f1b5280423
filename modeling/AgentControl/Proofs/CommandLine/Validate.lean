import AgentControl.CommandLine.Run
import AgentControl.Proofs.Configuration.Normal
import AgentControl.Proofs.Configuration.Summary
import AgentControl.Proofs.CommandLine.Words
import AgentControl.Proofs.Settings.Precedence

/-! # Checking a configuration from the command line

A file that is accepted is printed in its normal form, which is accepted again and printed the same
way, and differs for different configurations. One that is rejected is not printed; each error is
reported on a line of its own.
-/

namespace AgentControl.CommandLine

variable {env : Surroundings} {disk : Disk} {words parts : List String} {config : Option String}
  {verbose : Bool} {path : String} {bytes : List UInt8} {time : String} {r : LogRecord} {f : File}
  {e : ConfigurationError} {c c' : Configuration} {errors : List (String × String)}

/-! ## Requests to check a file -/

theorem locate_of_spotOf (h : spotOf disk path = .file parts f) :
    disk.locate (Path.ofText path) = .file parts f := by
  unfold spotOf at h
  split at h
  · cases h
  · dsimp only at h
    split at h
    · next hl =>
      split at h
      · cases h
      · exact h
    · exact h

/-- Only a file is taken where a file is asked for. -/
theorem checkPath_file_iff {param kind : String} :
    checkPath disk param kind path true = .ok () ↔ ∃ parts f, spotOf disk path = .file parts f := by
  unfold checkPath
  cases spotOf disk path <;> simp

theorem spotOf_of_validateCommand (h : validateCommand disk words = .ok (.validate path)) :
    ∃ parts f, spotOf disk path = .file parts f := by
  obtain ⟨p, -, h⟩ := bind_eq_ok_iff.mp h
  split at h
  · cases h
  · next first rest hw =>
    obtain ⟨⟨⟩, hc, h⟩ := bind_eq_ok_iff.mp h
    obtain ⟨⟨⟩, -, h⟩ := bind_eq_ok_iff.mp h
    cases h
    cases hp : checkPath disk "PATH" "File" path true with
    | error m =>
      rw [hp] at hc
      cases hc
    | ok u => exact checkPath_file_iff.mp hp

theorem validateCommand_of_commandOf (h : commandOf disk words = .ok (.validate path)) :
    ∃ rest, validateCommand disk rest = .ok (.validate path) := by
  cases words with
  | nil => cases h
  | cons name rest =>
    simp only [commandOf] at h
    split at h
    · obtain ⟨p, -, h⟩ := bind_eq_ok_iff.mp h
      obtain ⟨⟨⟩, -, h⟩ := bind_eq_ok_iff.mp h
      cases h
    · split at h
      · exact ⟨rest, h⟩
      · split at h
        · obtain ⟨p, -, h⟩ := bind_eq_ok_iff.mp h
          obtain ⟨⟨⟩, -, h⟩ := bind_eq_ok_iff.mp h
          cases h
        · obtain ⟨p, -, h⟩ := bind_eq_ok_iff.mp h
          cases h

/-- A request to check a file is made only where there is one. -/
theorem exists_file_of_request (h : requestOf disk words = .ok ⟨config, verbose, .validate path⟩) :
    ∃ parts f, disk.locate (Path.ofText path) = .file parts f := by
  unfold requestOf at h
  dsimp only at h
  split at h
  · cases h
  · obtain ⟨p, -, h⟩ := bind_eq_ok_iff.mp h
    obtain ⟨command, hc, h⟩ := bind_eq_ok_iff.mp h
    cases h
    obtain ⟨rest, hv⟩ := validateCommand_of_commandOf hc
    obtain ⟨parts, f, hs⟩ := spotOf_of_validateCommand hv
    exact ⟨parts, f, locate_of_spotOf hs⟩

/-- The words that ask for a check of a file, whatever its name is. -/
def validateWords (path : String) : List String := ["validate", "--", path]

theorem requestOf_validateWords (h : spotOf disk path = .file parts f) :
    requestOf disk (validateWords path) = .ok ⟨none, false, .validate path⟩ := by
  have hp : checkPath disk "PATH" "File" path true = .ok () := checkPath_file_iff.mpr ⟨parts, f, h⟩
  have hc : commonOf disk (validateWords path) = .ok ⟨[], validateWords path⟩ := rfl
  have hv : commandOf disk (validateWords path) = .ok (.validate path) := by
    change (orMisused .validate (checkPath disk "PATH" "File" path true) >>= _) = _
    rw [hp]
    rfl
  change (commonOf disk (validateWords path) >>= _) = _
  rw [hc]
  change (commandOf disk (validateWords path) >>= _) = _
  rw [hv]
  rfl

/-! ## Runs -/

/-- The words ask for a check of a file that holds these bytes. -/
structure Checks (disk : Disk) (words : List String) (verbose : Bool) (path : String)
    (bytes : List UInt8) : Prop where
  request : ∃ config, requestOf disk words = .ok ⟨config, verbose, .validate path⟩
  file : ∃ parts f, disk.locate (Path.ofText path) = .file parts f ∧ f.content = bytes

theorem checks_of_request (h : requestOf disk words = .ok ⟨config, verbose, .validate path⟩) :
    ∃ bytes, Checks disk words verbose path bytes := by
  obtain ⟨parts, f, hf⟩ := exists_file_of_request h
  exact ⟨f.content, ⟨config, h⟩, parts, f, hf, rfl⟩

theorem checks_validateWords (h : spotOf disk path = .file parts f) :
    Checks disk (validateWords path) false path f.content :=
  ⟨⟨none, requestOf_validateWords h⟩, parts, f, locate_of_spotOf h, rfl⟩

/-- How the file is called in what is printed. -/
def shownPath (disk : Disk) (path : String) : String := (Path.ofText path).text disk.home

/-- What is logged to the screen when a file is checked: that it is, for those who want to know. -/
def noticeOf (time : String) (disk : Disk) (verbose : Bool) (path : String) : String :=
  if verbose then
    LogSystem.line time
      (.debug validateLogger ("Validating agent configuration " ++ shownPath disk path))
  else ""

theorem weightOf_of_weights {logs : LogSystem} {logger : String} (h : logs.weights = []) :
    logs.weightOf logger = logs.rootWeight := by
  have hn (names : List String) : names.findSome? (fun n => logs.weights.lookup n) = none := by
    rw [List.findSome?_eq_none_iff, h]
    exact fun _ _ => rfl
  rw [LogSystem.weightOf, hn]
  rfl

theorem log_setupScreen : (({ disk } : LogSystem).setupScreen verbose).log time r =
    { ({ disk } : LogSystem).setupScreen verbose with
      screen :=
        if LogSystem.verbosity verbose 20 ≤ r.weight then LogSystem.line time r else "" } := by
  rw [LogSystem.log, weightOf_of_weights rfl]
  change (if LogSystem.verbosity verbose 20 ≤ r.weight then _ else _) = _
  split
  · simp [LogSystem.setupScreen, LogSystem.deliver]
  · rfl

/-- The logging while a file is checked. -/
def checkLogs (time : String) (disk : Disk) (verbose : Bool) (path : String) : LogSystem :=
  { ({ disk } : LogSystem).setupScreen verbose with screen := noticeOf time disk verbose path }

theorem log_checkLogs : (({ disk } : LogSystem).setupScreen verbose).log time (.debug validateLogger
    ("Validating agent configuration " ++ shownPath disk path)) =
      checkLogs time disk verbose path := by
  rw [log_setupScreen]
  cases verbose <;> rfl

theorem disk_setupScreen : (({ disk } : LogSystem).setupScreen verbose).disk = disk := rfl

theorem run_of_checks (h : Checks disk words verbose path bytes) :
    (∀ c, Configuration.fromJson bytes = .ok c →
      run env disk words = approve (checkLogs env.time disk verbose path) c) ∧
    ∀ e, Configuration.fromJson bytes = .error e →
      run env disk words =
        .refused (checkLogs env.time disk verbose path) (invalidText (shownPath disk path) e) := by
  obtain ⟨⟨config, hr⟩, parts, f, hf, rfl⟩ := h
  have hl := @log_checkLogs disk verbose path env.time
  have hf' : (checkLogs env.time disk verbose path).disk.locate (Path.ofText path) =
      .file parts f := hf
  rw [shownPath] at hl ⊢
  constructor
  · intro c hc
    simp only [run, hr, perform, runValidate, disk_setupScreen, hl, hf', hc]
  · intro e he
    simp only [run, hr, perform, runValidate, disk_setupScreen, hl, hf', he]

/-! ## What is printed -/

/-- The line that reports an error, where the empty place is the root. -/
inductive ErrorLine : String × String → String → Prop where
  | root {message : String} : ErrorLine ("", message) ("  <root>: " ++ message)
  | place {place message : String} :
      place ≠ "" → ErrorLine (place, message) ("  " ++ place ++ ": " ++ message)

/-- A run that prints a configuration and says that it is valid. -/
structure Passed (c : Configuration) (o : Outcome) : Prop where
  exitCode : o.exitCode = 0
  stdout : ∃ line, c.summary = .ok line ∧
    o.stdout = c.toJson (some 2) ++ "\nOK: " ++ line ++ "\n"
  crash : o.crash = none

/-- A run that prints nothing and reports errors, at least one and each on a line of its own, behind
what was logged. -/
structure Rejected (errors : List (String × String)) (notice file : String) (o : Outcome) :
    Prop where
  exitCode : o.exitCode = 1
  stdout : o.stdout = ""
  crash : o.crash = none
  errors_ne_nil : errors ≠ []
  stderr : ∃ lines, List.Forall₂ ErrorLine errors lines ∧ (∀ line ∈ lines, OneLine line) ∧
    o.stderr = notice ++ "Error: " ++
      Text.join "\n" ((file ++ ": invalid agent configuration") :: lines) ++ "\n"

theorem approve_of_summary {logs : LogSystem} {line : String} (h : c.summary = .ok line) :
    approve logs c = .done logs (c.toJson (some 2) ++ "\nOK: " ++ line ++ "\n") := by
  have ht : c.toJson (some 2) ++ "\n" ++ "OK: " = c.toJson (some 2) ++ "\nOK: " :=
    String.append_assoc
  simp only [approve, h, ht]

theorem run_of_ok (h : Checks disk words verbose path bytes)
    (hc : Configuration.fromJson bytes = .ok c) :
    Passed c (run env disk words) := by
  obtain ⟨line, hs⟩ := Configuration.exists_summary (Configuration.legible_of_fromJson hc)
  rw [(run_of_checks h).1 c hc, approve_of_summary hs]
  exact ⟨rfl, ⟨line, hs, rfl⟩, rfl⟩

theorem errorLine (place message : String) :
    ErrorLine (place, message)
      ("  " ++ (if place.isEmpty then "<root>" else place) ++ ": " ++ message) := by
  by_cases hp : place = ""
  · subst hp
    have hr : "  " ++ (if "".isEmpty then "<root>" else "") ++ ": " = "  <root>: " := by decide
    rw [hr]
    exact .root
  · rw [if_neg (by simpa using hp)]
    exact .place hp

theorem ErrorLine.oneLine {x : String × String} {line : String} (h : ErrorLine x line)
    (h₁ : OneLine x.1) (h₂ : OneLine x.2) : OneLine line := by
  cases h with
  | root => exact OneLine.append (by decide) h₂
  | place _ => exact ((OneLine.append (by decide) h₁).append (by decide)).append h₂

theorem run_of_error (h : Checks disk words verbose path bytes)
    (he : Configuration.fromJson bytes = .error e) :
    Rejected e.errors (noticeOf env.time disk verbose path) (shownPath disk path)
      (run env disk words) := by
  obtain ⟨hn, ho⟩ := Configuration.errors_of_fromJson he
  rw [(run_of_checks h).2 e he]
  refine ⟨rfl, rfl, rfl, hn, _, ?_, ?_, rfl⟩
  · refine List.forall₂_map_right_iff.mpr (List.forall₂_same.mpr ?_)
    rintro ⟨place, message⟩ -
    exact errorLine place message
  · intro line hl
    obtain ⟨⟨place, message⟩, hx, rfl⟩ := List.mem_map.mp hl
    obtain ⟨h₁, h₂⟩ := ho _ hx
    exact (errorLine place message).oneLine h₁ h₂

/-- What is printed begins with the text of the configuration, and goes on behind a line feed. -/
theorem Passed.stdout_eq {o : Outcome} (h : Passed c o) : ∃ rest, Json.EndsNumber rest ∧
    Configuration.bytesOf o.stdout = Configuration.bytesOf (c.toJson (some 2)) ++ rest := by
  obtain ⟨line, -, ho⟩ := h.stdout
  refine ⟨Configuration.bytesOf ("\nOK: " ++ (line ++ "\n")), ?_, ?_⟩
  · rw [Configuration.bytesOf_append]
    exact Json.endsNumber_cons rfl rfl
  · rw [ho, String.append_assoc, String.append_assoc, Configuration.bytesOf_append]

theorem Passed.stdout_unique {o o' : Outcome} (h : Passed c o) (h' : Passed c o') :
    o.stdout = o'.stdout := by
  obtain ⟨line, hs, ho⟩ := h.stdout
  obtain ⟨line', hs', ho'⟩ := h'.stdout
  rw [ho, ho', Except.ok.inj (hs.symm.trans hs')]

theorem Passed.stdout_inj {o o' : Outcome} {bytes' : List UInt8} (h : Passed c o)
    (h' : Passed c' o') (hc : Configuration.fromJson bytes = .ok c)
    (hc' : Configuration.fromJson bytes' = .ok c') : o.stdout = o'.stdout ↔ c = c' := by
  constructor
  · intro he
    obtain ⟨rest, hr, hb⟩ := h.stdout_eq
    obtain ⟨rest', hr', hb'⟩ := h'.stdout_eq
    rw [he, hb'] at hb
    exact Configuration.eq_of_toJson_append hc hc' hr hr' hb.symm
  · rintro rfl
    exact h.stdout_unique h'

/-- Whenever a check is asked for, there is a file to check, and the run approves it or reports what
is wrong with it. It never breaks off. -/
theorem passed_or_rejected (h : requestOf disk words = .ok ⟨config, verbose, .validate path⟩) :
    ∃ bytes, Checks disk words verbose path bytes ∧
      ((∃ c, Configuration.fromJson bytes = .ok c ∧ Passed c (run env disk words)) ∨
        ∃ e, Configuration.fromJson bytes = .error e ∧ Rejected e.errors
          (noticeOf env.time disk verbose path) (shownPath disk path) (run env disk words)) := by
  obtain ⟨bytes, hb⟩ := checks_of_request h
  refine ⟨bytes, hb, ?_⟩
  cases hc : Configuration.fromJson bytes with
  | ok c => exact Or.inl ⟨c, rfl, run_of_ok hb hc⟩
  | error e => exact Or.inr ⟨e, rfl, run_of_error hb hc⟩

/-- Checking a file succeeds where the file is accepted, and then prints the configuration in a form
that is accepted again and printed the same, with blanks behind it or without, and that tells the
configuration from all others. A file that is not accepted is reported, error by error. -/
theorem run_validate_normalises (h : Checks disk words verbose path bytes) :
    ((run env disk words).exitCode = 0 ↔ ∃ c, Configuration.fromJson bytes = .ok c) ∧
    (∀ c, Configuration.fromJson bytes = .ok c → Passed c (run env disk words) ∧
      (∀ blanks, (∀ b ∈ blanks, Json.isBlank b = true) → ∀ env' disk' words' verbose' path',
        Checks disk' words' verbose' path' (Configuration.bytesOf (c.toJson (some 2)) ++ blanks) →
          (run env' disk' words').exitCode = 0 ∧
            (run env' disk' words').stdout = (run env disk words).stdout) ∧
      ∀ env' disk' words' verbose' path' bytes', Checks disk' words' verbose' path' bytes' →
        ∀ c', Configuration.fromJson bytes' = .ok c' →
          (c.toJson (some 2) = c'.toJson (some 2) ↔ c = c') ∧
            ((run env disk words).stdout = (run env' disk' words').stdout ↔ c = c')) ∧
    ∀ e, Configuration.fromJson bytes = .error e →
      Rejected e.errors (noticeOf env.time disk verbose path) (shownPath disk path)
        (run env disk words) := by
  refine ⟨?_, fun c hc => ?_, fun e he => run_of_error h he⟩
  · cases hr : Configuration.fromJson bytes with
    | ok c => exact iff_of_true (run_of_ok h hr).exitCode ⟨c, rfl⟩
    | error e =>
      have hx : (run env disk words).exitCode = 1 := (run_of_error h hr).exitCode
      rw [hx]
      exact iff_of_false Nat.one_ne_zero (by rintro ⟨_, ⟨⟩⟩)
  · have hp : Passed c (run env disk words) := run_of_ok h hc
    refine ⟨hp, ?_, ?_⟩
    · intro blanks hb env' disk' words' verbose' path' h'
      have hp' : Passed c (run env' disk' words') :=
        run_of_ok h' (Configuration.fromJson_of_decoded hc hb)
      exact ⟨hp'.exitCode, hp'.stdout_unique hp⟩
    · intro env' disk' words' verbose' path' bytes' h' c' hc'
      exact ⟨Configuration.toJson_inj hc hc', hp.stdout_inj (run_of_ok h' hc') hc hc'⟩

/-- Surroundings in which a console ends as it was started. -/
def idle : Surroundings := ⟨"2026-01-01 12:00:00", fun console => (console, [])⟩

/-- A port under both names, workers given twice, a null, and a name that nothing reads. -/
def doubledText : String :=
  "\x7b\"agent_server_port\": 1, \"zone\": [[]], \"agentServerPort\": 8443,\t" ++
    "\"workerThreadNumber\": 0, \"maxLogLevel\": null, \"worker_thread_number\": 7, " ++
    "\"workerThreadNumber\": 12\x7d\n"

def doubledConfiguration : Configuration := ⟨8443, 12, none, none, by decide, by decide, by decide⟩

theorem fromJson_doubledText :
    Configuration.fromJson (Configuration.bytesOf doubledText) = .ok doubledConfiguration := by
  have h : (Configuration.fromJson (Configuration.bytesOf doubledText)).toOption =
      some doubledConfiguration := by
    decide +kernel
  cases hr : Configuration.fromJson (Configuration.bytesOf doubledText) with
  | ok c =>
    rw [hr] at h
    rw [Option.some.inj h]
  | error e =>
    rw [hr] at h
    cases h

/-- A disk with one file to check. -/
def fileDisk (text : String) : Disk := Settings.diskOf "agent.json" text

theorem checks_fileDisk (text : String) : Checks (fileDisk text) (validateWords "agent.json") false
    "agent.json" (Configuration.bytesOf text) := by
  have hp : Path.ofText "agent.json" = ⟨.here, ["agent.json"]⟩ := by decide +kernel
  have hn : ((Text.splitOn '/' "agent.json".toList).getLast?).getD [] = "agent.json".toList := by
    decide +kernel
  have hs : spotOf (fileDisk text) "agent.json" = .file ["home", "agent.json"] ⟨[], text⟩ := by
    rw [spotOf, hp, hn]
    rfl
  exact checks_validateWords hs

theorem run_validate_normalises_doubled :
    Checks (fileDisk doubledText) (validateWords "agent.json") false "agent.json"
        (Configuration.bytesOf doubledText) ∧
      (run idle (fileDisk doubledText) (validateWords "agent.json")).stdout =
        "\x7b\n  \"agentServerPort\": 8443,\n  \"workerThreadNumber\": 12\n\x7d\n" ++
          "OK: port=8443 workers=12 log=default pool=default\n" ∧
      (run idle (fileDisk (doubledConfiguration.toJson (some 2)))
        (validateWords "agent.json")).stdout =
        (run idle (fileDisk doubledText) (validateWords "agent.json")).stdout := by
  have h := checks_fileDisk doubledText
  obtain ⟨-, hok, -⟩ := @run_validate_normalises idle _ _ _ _ _ h
  obtain ⟨hp, hf, -⟩ := hok _ fromJson_doubledText
  have h' := checks_fileDisk (doubledConfiguration.toJson (some 2))
  rw [← List.append_nil (Configuration.bytesOf _)] at h'
  refine ⟨h, ?_, (hf [] (List.forall_mem_nil _) idle _ _ _ _ h').2⟩
  obtain ⟨line, hs, ho⟩ := hp.stdout
  have hl : doubledConfiguration.summary =
      .ok "port=8443 workers=12 log=default pool=default" := by
    decide +kernel
  rw [ho, Except.ok.inj (hs.symm.trans hl)]
  decide +kernel

end AgentControl.CommandLine
