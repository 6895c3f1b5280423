import AgentControl.Log.System

/-! # A log that is set up

Once its file is open, the console logs to that file alone, and no record reaches the screen.
-/

namespace AgentControl.LogSystem

variable {s : LogSystem} {hs : List LogHandler} {time text : String} {weight : Nat} {r : LogRecord}
  {rs : List LogRecord}

theorem handlers_deliver (h : LogHandler) : (s.deliver text weight h).handlers = s.handlers := by
  cases h with
  | screen | other _ => rfl
  | file parts least maxBytes backups =>
    simp only [deliver]
    split <;> rfl

theorem handlers_foldl_deliver :
    (hs.foldl (fun s h => s.deliver text weight h) s).handlers = s.handlers := by
  induction hs generalizing s with
  | nil => rfl
  | cons h hs ih => rw [List.foldl_cons, ih, handlers_deliver]

theorem screen_foldl_deliver (hn : .screen ∉ hs) :
    (hs.foldl (fun s h => s.deliver text weight h) s).screen = s.screen := by
  induction hs generalizing s with
  | nil => rfl
  | cons h hs ih =>
    rw [List.foldl_cons, ih (List.not_mem_of_not_mem_cons hn)]
    cases h with
    | screen => exact absurd List.mem_cons_self hn
    | other _ => rfl
    | file parts least maxBytes backups =>
      simp only [deliver]
      split <;> rfl

theorem handlers_log : (s.log time r).handlers = s.handlers := by
  unfold log
  split
  · exact handlers_foldl_deliver
  · rfl

/-- Records stay off a screen that nothing logs to. -/
theorem screen_logAll (hn : .screen ∉ s.handlers) : (s.logAll time rs).screen = s.screen := by
  induction rs generalizing s with
  | nil => rfl
  | cons r rs ih =>
    have hr : (s.logAll time (r :: rs)) = (s.log time r).logAll time rs := rfl
    rw [hr, ih (by rwa [handlers_log]), log]
    split
    · exact screen_foldl_deliver hn
    · rfl

theorem logAll_append {more : List LogRecord} :
    s.logAll time (rs ++ more) = (s.logAll time rs).logAll time more :=
  List.foldl_append

/-- Logging to a file that is open, from the least record on that settings let pass. -/
def toFile (d : Disk) (parts : List String) (settings : LoggingSettings) (verbose : Bool) :
    LogSystem :=
  { disk := d
    rootWeight := verbosity verbose settings.level.weight
    handlers :=
      [.file parts (verbosity verbose settings.level.weight) settings.maxBytes settings.backupCount]
    weights := quietLoggers }

theorem setup_of_open {settings : LoggingSettings} {verbose : Bool} {disk d : Disk}
    {parts : List String} (h : openLog disk settings.file = (d, .ok parts)) :
    ({ disk } : LogSystem).setup settings verbose = (toFile d parts settings verbose, none) := by
  simp only [setup, withoutFiles, List.foldl_nil, h]
  rfl

end AgentControl.LogSystem
