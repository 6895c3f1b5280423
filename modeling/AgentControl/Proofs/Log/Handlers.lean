import AgentControl.Log.System
import AgentControl.Proofs.Disk.Opening

/-! # The handlers of the root

However often the log is set up, and whatever handlers the root had before, one handler for a file
is left: that of the last call, behind all others, which stay as they stood. The handlers for files
that made way are closed.
-/

namespace AgentControl

/-! ## Opening the log file -/

namespace LogSystem

variable {s : LogSystem} {d d' : Disk} {file : String} {parts : List String}

/-- A log file is open: a disk that starts paths where they started before holds it
where its path leads. -/
structure Opened (d : Disk) (file : String) (d' : Disk) (parts : List String) : Prop where
  start : d'.start = d.start
  way : d.wayTo? file = some parts
  found : ∃ f, d'.find? parts = some (.file f)

theorem opened_of_openLog (h : openLog d file = (d', .ok parts)) : Opened d file d' parts := by
  unfold openLog at h
  split at h
  · cases h
  · next path hp =>
    split at h
    · cases h
    · split at h
      · cases h
      · next d₁ hd =>
        have hs : d₁.start = d.start :=
          (congrArg (·.1.start) hd).symm.trans Disk.start_makeDirectories
        dsimp only at h
        split at h
        · next d₂ ho =>
          cases h
          refine ⟨(Disk.start_openFile ho).trans hs, ?_,
            Disk.find?_openFile Disk.not_mem_settled ho⟩
          rw [← Disk.wayTo?_congr hs, Disk.wayTo?, hp]
          rfl
        · cases h

/-! ## Removing handlers -/

/-- The handlers of the root that are for files. -/
def files (s : LogSystem) : List LogHandler := s.handlers.filter (·.isFile)

/-- The handlers of the root that are for anything else. -/
def others (s : LogSystem) : List LogHandler := s.handlers.filter (!·.isFile)

/-- Going through the handlers that are left of a copy leaves those that were kept before, and of
the rest those that are not for files. -/
theorem foldl_dropFile {kept hs : List LogHandler} (hk : ∀ h ∈ kept, h.isFile = false)
    (he : s.handlers = kept ++ hs) :
    hs.foldl dropFile s =
      { s with
        handlers := kept ++ hs.filter (!·.isFile)
        closed := s.closed ++ hs.filter (·.isFile) } := by
  -- on what is left of the copy: nothing kept is for a file, so erasing takes the next one itself
  induction hs generalizing s kept with
  | nil =>
    rw [List.append_nil] at he
    simp [← he]
  | cons h hs ih =>
    rw [List.foldl_cons]
    by_cases hf : h.isFile
    · have hn : h ∉ kept := fun hm => Bool.noConfusion ((hk h hm).symm.trans hf)
      have hd : s.dropFile h = { s with handlers := kept ++ hs, closed := s.closed ++ [h] } := by
        rw [dropFile, if_pos hf, he, List.erase_append_right _ hn, List.erase_cons_head]
      rw [hd, ih hk rfl]
      simp [hf]
    · have hd : s.dropFile h = s := by rw [dropFile, if_neg hf]
      have hk' : ∀ k ∈ kept ++ [h], k.isFile = false :=
        List.forall_mem_append.mpr ⟨hk, List.forall_mem_singleton.mpr (Bool.not_eq_true _ ▸ hf)⟩
      rw [hd, ih hk' (by rw [he, List.append_assoc, List.singleton_append])]
      simp [hf]

theorem withoutFiles_eq :
    s.withoutFiles = { s with handlers := s.others, closed := s.closed ++ s.files } :=
  foldl_dropFile (List.forall_mem_nil _) rfl

end LogSystem

/-! ## Setting up the log -/

/-- A call that sets up the log. -/
structure SetupCall where
  settings : LoggingSettings
  verbose : Bool

namespace SetupCall

/-- From which records on a call lets the console log. -/
def severity (c : SetupCall) : Severity := if c.verbose then .debug else c.settings.level

/-- The handler that a call makes for a file, which may grow to as many megabytes
as the settings say. -/
def handler (c : SetupCall) (parts : List String) : LogHandler :=
  .file parts c.severity.weight (c.settings.maxSizeMb * 1024 * 1024) c.settings.backupCount

/-- The handler that a call makes on a disk. -/
def handler? (c : SetupCall) (d : Disk) : Option LogHandler :=
  (d.wayTo? c.settings.file).map c.handler

theorem verbosity_eq (c : SetupCall) :
    LogSystem.verbosity c.verbose c.settings.level.weight = c.severity.weight := by
  unfold LogSystem.verbosity severity
  split <;> rfl

end SetupCall

namespace LogSystem

variable {s t : LogSystem} {c last : SetupCall} {cs before : List SetupCall} {parts : List String}

/-- What a call that succeeds makes of the root. -/
structure Replaced (s : LogSystem) (c : SetupCall) (parts : List String) (t : LogSystem) :
    Prop where
  opened : Opened s.disk c.settings.file t.disk parts
  handlers : t.handlers = s.others ++ [c.handler parts]
  closed : t.closed = s.closed ++ s.files
  level : t.rootWeight = c.severity.weight

theorem replaced_of_setup (h : s.setup c.settings c.verbose = (t, none)) :
    ∃ parts, Replaced s c parts t := by
  unfold setup at h
  rw [withoutFiles_eq, c.verbosity_eq] at h
  dsimp only at h
  split at h
  · cases h
  · next disk parts ho =>
    cases h
    exact ⟨parts, opened_of_openLog ho, rfl, rfl, rfl⟩

theorem Replaced.others_eq (h : Replaced s c parts t) : t.others = s.others := by
  have hi : s.others.filter (!·.isFile) = s.others := by rw [others, List.filter_filter]; simp
  rw [others, h.handlers, List.filter_append, hi]
  exact List.append_nil _

theorem Replaced.files_eq (h : Replaced s c parts t) : t.files = [c.handler parts] := by
  have hi : s.others.filter (·.isFile) = [] := by rw [others, List.filter_filter]; simp
  rw [files, h.handlers, List.filter_append, hi]
  rfl

theorem Replaced.handler? (h : Replaced s c parts t) :
    c.handler? s.disk = some (c.handler parts) := by
  rw [SetupCall.handler?, h.opened.way, Option.map_some]

/-- Sets up the log once for every call, up to the first that fails. -/
def setupAll (s : LogSystem) : List SetupCall → LogSystem × Option DiskFault
  | [] => (s, none)
  | c :: cs =>
      match s.setup c.settings c.verbose with
      | (s, none) => s.setupAll cs
      | (s, some fault) => (s, some fault)

theorem setupAll_cons (h : s.setupAll (c :: cs) = (t, none)) :
    ∃ u, s.setup c.settings c.verbose = (u, none) ∧ u.setupAll cs = (t, none) := by
  rw [setupAll] at h
  split at h
  · next u hu => exact ⟨u, hu, h⟩
  · cases h

theorem setupAll_append (h : s.setupAll (before ++ cs) = (t, none)) :
    ∃ u, s.setupAll before = (u, none) ∧ u.setupAll cs = (t, none) := by
  induction before generalizing s with
  | nil => exact ⟨s, rfl, h⟩
  | cons c before ih =>
    obtain ⟨v, hv, hr⟩ := setupAll_cons h
    obtain ⟨u, hu, ht⟩ := ih hr
    refine ⟨u, ?_, ht⟩
    rw [setupAll, hv]
    exact hu

/-- What calls leave as it was, and what has become of the handlers for files: those of before and
those that the calls made are closed or still there. -/
theorem setupAll_keeps (h : s.setupAll cs = (t, none)) :
    t.disk.start = s.disk.start ∧ t.others = s.others ∧
      ∃ made, made.map some = cs.map (·.handler? s.disk) ∧
        t.closed ++ t.files = s.closed ++ s.files ++ made := by
  induction cs generalizing s with
  | nil =>
    cases h
    exact ⟨rfl, rfl, [], rfl, (List.append_nil _).symm⟩
  | cons c cs ih =>
    obtain ⟨u, hu, hr⟩ := setupAll_cons h
    obtain ⟨parts, hc⟩ := replaced_of_setup hu
    obtain ⟨hs, ho, made, hm, hcl⟩ := ih hr
    refine ⟨hs.trans hc.opened.start, ho.trans hc.others_eq, c.handler parts :: made, ?_, ?_⟩
    · have hw : (fun c : SetupCall => c.handler? u.disk) = fun c => c.handler? s.disk := by
        funext c
        rw [SetupCall.handler?, SetupCall.handler?, Disk.wayTo?_congr hc.opened.start]
      rw [List.map_cons, List.map_cons, hc.handler?, hm, hw]
    · rw [hcl, hc.closed, hc.files_eq, List.append_assoc _ _ made, List.singleton_append]

/-- One handler for a file is left once the log has been set up, the last call's, which writes to a
file that is there. All others of the root stay in front of it, and the handlers for files that made
way are closed. -/
theorem handlers_setupAll (h : s.setupAll (before ++ [last]) = (t, none)) :
    ∃ parts f made,
      s.disk.wayTo? last.settings.file = some parts ∧ t.disk.find? parts = some (.file f) ∧
      t.handlers = s.others ++ [last.handler parts] ∧ t.files = [last.handler parts] ∧
      0 < last.settings.maxSizeMb * 1024 * 1024 ∧
      made.map some = before.map (·.handler? s.disk) ∧ t.closed = s.closed ++ s.files ++ made ∧
      t.rootWeight = last.severity.weight := by
  obtain ⟨u, hb, hl⟩ := setupAll_append h
  obtain ⟨v, hv, hn⟩ := setupAll_cons hl
  obtain rfl : v = t := congrArg Prod.fst hn
  obtain ⟨hs, ho, made, hm, hc⟩ := setupAll_keeps hb
  obtain ⟨parts, hp⟩ := replaced_of_setup hv
  obtain ⟨f, hf⟩ := hp.opened.found
  refine ⟨parts, f, made, ?_, hf, ?_, hp.files_eq, ?_, hm, hp.closed.trans hc, hp.level⟩
  · rw [← Disk.wayTo?_congr hs, hp.opened.way]
  · rw [hp.handlers, ho]
  · have := last.settings.maxSizeMb_pos
    omega

/-- A root with handlers of every kind, one for a file twice. -/
def crowded : LogSystem :=
  { disk := Disk.ofHome ["home"]
    handlers := [.file ["old.log"] 30 1024 1, .other 1, .file ["old.log"] 30 1024 1, .screen,
      .other 2] }

/-- A call with verbose records and larger files, then one with few records and smaller ones. -/
def crowdedCalls : List SetupCall :=
  [⟨{ maxSizeMb := 20, backupCount := 9 }, true⟩,
    ⟨{ level := .error, file := "~/logs/../console.log", maxSizeMb := 3, backupCount := 7 }, false⟩]

theorem handlers_setupAll_crowded :
    let r := crowded.setupAll crowdedCalls
    let old := LogHandler.file ["old.log"] 30 1024 1
    r.2 = none ∧ r.1.rootWeight = 40 ∧
      r.1.handlers = [.other 1, .screen, .other 2, .file ["home", "console.log"] 40 3145728 7] ∧
      r.1.closed =
        [old, old, .file ["home", ".agent-console", "logs", "console.log"] 10 20971520 9] := by
  intro r old
  have hr : r.2 = none := by decide +kernel
  have h : crowded.setupAll (crowdedCalls.dropLast ++ [crowdedCalls.getLast (by decide)]) =
      (r.1, none) := Prod.ext rfl hr
  obtain ⟨parts, f, made, hw, -, hh, -, -, hm, hc, hl⟩ := handlers_setupAll h
  obtain rfl : ["home", "console.log"] = parts :=
    Option.some.inj (Eq.trans (by decide +kernel) hw)
  have hmade : made = [.file ["home", ".agent-console", "logs", "console.log"] 10 20971520 9] :=
    (List.map_inj_right fun _ _ => Option.some.inj).mp (hm.trans (by decide +kernel))
  refine ⟨hr, hl, hh, ?_⟩
  rw [hc, hmade]
  rfl

end LogSystem

end AgentControl
