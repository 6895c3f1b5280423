import AgentControl.CommandLine.Run
import AgentControl.Proofs.Settings.Precedence

/-! # Failures of loading

A settings file that cannot be used is reported with its path, as long as its bytes are a text in
which every scalar fits its tag. Otherwise what is reported is where the bytes or the scalar go
wrong, and not in which file.
-/

namespace AgentControl

open CommandLine (isReported)
open Value (Entries)

/-- A text stands somewhere in a message. -/
def Mentions (message text : String) : Prop := text.toList <:+: message.toList

instance {message text : String} : Decidable (Mentions message text) :=
  inferInstanceAs (Decidable (_ <:+: _))

section

variable {message text before behind : String}

theorem mentions_append : Mentions (before ++ text) text := by
  rw [Mentions, String.toList_append]
  exact (List.suffix_append _ _).isInfix

theorem Mentions.append (h : Mentions message text) : Mentions (message ++ behind) text := by
  rw [Mentions, String.toList_append]
  exact h.trans (List.prefix_append _ _).isInfix

end

/-- The fault is reported as one of content, with a path in its message. -/
def LoadFault.Names (fault : LoadFault) (path : String) : Prop :=
  isReported fault = true ∧ Mentions fault.message path

/-- The fault tells where bytes or a scalar go wrong, and keeps no path. -/
inductive LoadFault.Unplaced : LoadFault → Prop where
  | undecodable {fault : Utf8.Fault} : Unplaced (.undecodable fault)
  | scalar {fault : Yaml.Fault} : fault ≠ .malformed → Unplaced (.scalar fault)

namespace Settings

def Fault.Names (fault : Fault) (path : String) : Prop :=
  match fault with
  | unread fault => fault.Names path
  | invalid _ _ => Mentions fault.message path

/-- The bytes are a text in which every scalar fits its tag. The text may still be malformed. -/
def Fitting (bytes : List UInt8) : Prop :=
  ∃ cs, Utf8.decode bytes = .ok cs ∧
    ∀ fault, Yaml.document (uniformLines cs) = .error fault → fault = .malformed

instance {bytes : List UInt8} : Decidable (Fitting bytes) :=
  match hd : Utf8.decode bytes with
  | .error _ => isFalse fun ⟨_, h, _⟩ => by cases hd.symm.trans h
  | .ok cs =>
      match hv : Yaml.document (uniformLines cs) with
      | .ok _ => isTrue ⟨cs, hd, fun _ h => by cases hv.symm.trans h⟩
      | .error fault =>
          decidable_of_iff (fault = .malformed)
            ⟨fun h => ⟨cs, hd, fun _ hf => Except.error.inj (hv.symm.trans hf) ▸ h⟩,
              fun ⟨ds, h, hf⟩ => hf fault (Except.ok.inj (hd.symm.trans h) ▸ hv)⟩

/-- What a path leads to is a file or nothing at all. -/
def IsFileOrNothing (spot : Spot) : Prop :=
  spot ≠ .nameTooLong ∧ ∀ parts, spot ≠ .directory parts

/-- If a path leads to a file that is read, its bytes are fitting. -/
def FitsAt (disk : Disk) (path : Path) : Prop :=
  ∀ parts f, disk.locate path = .file parts f → isYamlSuffix path.suffix = true → Fitting f.content

variable {disk : Disk} {name : Option String} {file shown : String} {path : Path} {os : Overrides}
  {bytes : List UInt8} {entries : Entries} {fault : LoadFault}

theorem names_notYaml : (LoadFault.notYaml shown).Names shown := ⟨rfl, mentions_append⟩

theorem names_notMapping : (LoadFault.notMapping shown).Names shown := ⟨rfl, mentions_append⟩

theorem names_malformed : (LoadFault.malformed shown).Names shown :=
  ⟨rfl, mentions_append.append.append⟩

theorem ofBytes_names (hb : Fitting bytes) (h : ofBytes shown bytes = .error fault) :
    fault.Names shown := by
  obtain ⟨cs, hd, hv⟩ := hb
  simp only [ofBytes, hd] at h
  split at h
  · exact Except.error.inj h ▸ names_malformed
  · next he hn => exact absurd (hv _ hn) he
  · split at h
    · cases h
    · exact Except.error.inj h ▸ names_notMapping

theorem ofBytes_unplaced (hb : ¬ Fitting bytes) :
    ∃ fault, ofBytes shown bytes = .error fault ∧ fault.Unplaced := by
  unfold ofBytes
  cases hd : Utf8.decode bytes with
  | error fault => exact ⟨_, rfl, .undecodable⟩
  | ok cs =>
    have hv : ∃ fault, Yaml.document (uniformLines cs) = .error fault ∧ fault ≠ .malformed := by
      by_contra hn
      refine hb ⟨cs, hd, fun fault hf => ?_⟩
      by_contra he
      exact hn ⟨fault, hf, he⟩
    obtain ⟨fault, hf, hn⟩ := hv
    refine ⟨.scalar fault, ?_, .scalar hn⟩
    simp only [hf]

theorem ofFile_of_file {parts : List String} {f : File} (he : (Path.ofText file).expand = some path)
    (hl : disk.locate path = .file parts f) :
    ofFile disk file =
      if isYamlSuffix path.suffix then ofBytes (path.text disk.home) f.content
      else .error (.notYaml (path.text disk.home)) := by
  simp only [ofFile, he, hl]

theorem ofFile_names (he : (Path.ofText file).expand = some path)
    (hs : IsFileOrNothing (disk.locate path)) (hb : FitsAt disk path)
    (h : ofFile disk file = .error fault) : fault.Names (path.text disk.home) := by
  cases hl : disk.locate path with
  | missing | underFile =>
    simp only [ofFile, he, hl] at h
    cases h
  | nameTooLong => exact absurd hl hs.1
  | directory parts => exact absurd hl (hs.2 parts)
  | file parts f =>
    rw [ofFile_of_file he hl] at h
    split at h
    · next hy => exact ofBytes_names (hb parts f hl hy) h
    · exact Except.error.inj h ▸ names_notYaml

theorem ofFile_unplaced (he : (Path.ofText file).expand = some path) (hb : ¬ FitsAt disk path) :
    ∃ fault, ofFile disk file = .error fault ∧ fault.Unplaced := by
  have hf : ∃ parts f, disk.locate path = .file parts f ∧ isYamlSuffix path.suffix = true ∧
      ¬ Fitting f.content := by
    simpa only [FitsAt, not_forall, exists_prop] using hb
  obtain ⟨parts, f, hl, hy, hn⟩ := hf
  rw [ofFile_of_file he hl, if_pos hy]
  exact ofBytes_unplaced hn

theorem load_of_error (h : ofFile disk (fileOf name) = .error fault) :
    load disk name os = .error (.unread fault) := by
  simp only [load_eq, h]

theorem load_names {fault : Fault} (h : load disk name os = .error fault)
    (hf : ∀ fault, ofFile disk (fileOf name) = .error fault → fault.Names shown) :
    fault.Names shown ∨ fault.Names (fileOf name) := by
  cases ho : ofFile disk (fileOf name) with
  | error unread =>
    rw [load_of_error ho] at h
    exact Or.inl (Except.error.inj h ▸ hf unread ho)
  | ok entries =>
    simp only [load_eq, ho] at h
    split at h
    · cases h
    · exact Or.inr (Except.error.inj h ▸ mentions_append.append.append)

/-- A file or nothing at all is loaded, or reported by its path, if its bytes are fitting. If not,
the report tells no path, under whatever overrides. -/
theorem failures_named (he : (Path.ofText (fileOf name)).expand = some path)
    (hs : IsFileOrNothing (disk.locate path)) :
    (FitsAt disk path →
      (∀ fault, ofFile disk (fileOf name) = .error fault → fault.Names (path.text disk.home)) ∧
        ∀ os fault, load disk name os = .error fault →
          fault.Names (path.text disk.home) ∨ fault.Names (fileOf name)) ∧
      (¬ FitsAt disk path → ∃ fault, ofFile disk (fileOf name) = .error fault ∧ fault.Unplaced ∧
        ∀ os, load disk name os = .error (.unread fault)) := by
  constructor
  · intro hb
    have hf : ∀ fault, ofFile disk (fileOf name) = .error fault →
        fault.Names (path.text disk.home) :=
      fun _ h => ofFile_names he hs hb h
    exact ⟨hf, fun _ _ h => load_names h hf⟩
  · intro hb
    obtain ⟨fault, hf, hu⟩ := ofFile_unplaced he hb
    exact ⟨fault, hf, hu, fun _ => load_of_error hf⟩

/-- The fault that a file could not be read for. -/
def fault? : Except LoadFault Entries → Option LoadFault
  | .error fault => some fault
  | .ok _ => none

theorem fault?_eq_some_iff {r : Except LoadFault Entries} {fault : LoadFault} :
    fault? r = some fault ↔ r = .error fault := by
  cases r <;> simp [fault?]

/-- A date that no calendar has is reported by neither the file nor its place in it. -/
theorem date_unnamed :
    ∃ fault, ofFile (diskOf "console.yaml" "a: 2001-13-40\n") "console.yaml" = .error fault ∧
      fault.message = "month must be in 1..12" ∧ ¬ fault.Names "console.yaml" := by
  have h : fault? (ofFile (diskOf "console.yaml" "a: 2001-13-40\n") "console.yaml") =
      some (.scalar (.calendar .monthRange)) := by
    decide +kernel
  exact ⟨_, fault?_eq_some_iff.mp h, rfl, fun hn => absurd hn.2 (by decide +kernel)⟩

theorem failures_named_list :
    (Path.ofText (fileOf (some "console.yaml"))).expand = some ⟨.here, ["console.yaml"]⟩ ∧
      IsFileOrNothing ((diskOf "console.yaml" "- 1\n").locate ⟨.here, ["console.yaml"]⟩) ∧
      FitsAt (diskOf "console.yaml" "- 1\n") ⟨.here, ["console.yaml"]⟩ ∧
      ∃ fault, ofFile (diskOf "console.yaml" "- 1\n")
        (fileOf (some "console.yaml")) = .error fault ∧
        fault.Names "console.yaml" := by
  have he : (Path.ofText (fileOf (some "console.yaml"))).expand =
      some ⟨.here, ["console.yaml"]⟩ := by
    decide +kernel
  have hl : (diskOf "console.yaml" "- 1\n").locate ⟨.here, ["console.yaml"]⟩ =
      .file ["home", "console.yaml"] ⟨[], "- 1\n"⟩ := by
    decide +kernel
  have hs : IsFileOrNothing ((diskOf "console.yaml" "- 1\n").locate ⟨.here, ["console.yaml"]⟩) := by
    rw [hl]
    exact ⟨nofun, nofun⟩
  have hb : FitsAt (diskOf "console.yaml" "- 1\n") ⟨.here, ["console.yaml"]⟩ := by
    intro parts f hf _
    obtain ⟨-, rfl⟩ := Spot.file.inj (hl.symm.trans hf)
    decide +kernel
  have hf :
      (fault? (ofFile (diskOf "console.yaml" "- 1\n") (fileOf (some "console.yaml")))).isSome =
        true := by
    decide +kernel
  obtain ⟨fault, hfault⟩ := Option.isSome_iff_exists.mp hf
  rw [fault?_eq_some_iff] at hfault
  have ht : Path.text (diskOf "console.yaml" "- 1\n").home ⟨.here, ["console.yaml"]⟩ =
      "console.yaml" := by
    decide +kernel
  have hn := ((failures_named he hs).1 hb).1 fault hfault
  rw [ht] at hn
  exact ⟨he, hs, hb, fault, hfault, hn⟩

end Settings

end AgentControl
