import AgentControl.Disk.Directories

/-! # Opening files

Making directories and opening files leaves the places where they are that paths start from. A file
that was opened is there, under the way that its path is written for.
-/

namespace AgentControl

namespace Disk

variable {d d' : Disk} {names parts above : List String} {name shown : String} {f : File}
  {e : Entry} {anchor : Anchor}

/-! ## Where paths start -/

theorem start_put : (d.put parts e).start = d.start := by
  funext anchor
  cases anchor <;> rfl

theorem start_makeDirectory {start : List String}
    (h : d.makeDirectory start above name shown = some (.ok d')) : d'.start = d.start := by
  unfold makeDirectory at h
  split at h
  · cases h
  · cases h
  · cases h
  · cases h
  · split at h
    · cases h
      rfl
    · cases h
    · cases h
    · cases h
      exact start_put

theorem start_makeDirectories : (makeDirectories anchor d names).1.start = d.start := by
  induction names generalizing d with
  | nil => rfl
  | cons name above ih =>
    unfold makeDirectories
    dsimp only
    split
    · next h => exact start_makeDirectory h
    · rfl
    · -- the one above was missing: the same directory is tried once more after it was made
      split
      · next h => exact (congrArg (·.1.start) h).symm.trans ih
      · next d₁ h =>
        have hs : d₁.start = d.start := (congrArg (·.1.start) h).symm.trans ih
        split
        · next h => exact (start_makeDirectory h).trans hs
        · exact hs
        · exact hs

/-- A file that is opened was there, or it is put in place. -/
theorem openFile_cases (h : d.openFile parts = .ok d') :
    (d' = d ∧ ∃ ps f, d.walk parts [] = .file ps f) ∨ d' = d.put parts (.file ⟨[], ""⟩) := by
  unfold openFile at h
  split at h
  · cases h
  · next ps f hw =>
    cases h
    exact .inl ⟨rfl, ps, f, hw⟩
  · split at h
    · cases h
      exact .inr rfl
    · cases h
  · cases h
  · cases h

theorem start_openFile (h : d.openFile parts = .ok d') : d'.start = d.start := by
  obtain ⟨rfl, -⟩ | rfl := openFile_cases h
  · rfl
  · exact start_put

/-- The way from the root that the text of a path is written for, if it is known. -/
def wayTo? (d : Disk) (text : String) : Option (List String) :=
  (Path.ofText text).expand.map d.absolute

theorem wayTo?_congr (h : d'.start = d.start) : d'.wayTo? = d.wayTo? := by
  funext text
  have ha : d'.absolute = d.absolute := by
    funext path
    rw [absolute, absolute, h]
  rw [wayTo?, wayTo?, ha]

/-! ## What is there -/

theorem find?_put : (d.put parts e).find? parts = some e := by
  have hn : (d.entries.filter (·.1 != parts)).lookup parts = none := by
    refine List.lookup_eq_none_iff.mpr fun entry he => ?_
    obtain ⟨-, hne⟩ := List.mem_filter.mp he
    simpa [ne_comm] using hne
  rw [find?, put, List.lookup_append, hn, List.lookup_cons_self]
  rfl

theorem not_mem_settled : ".." ∉ settled parts := by
  have h (done : List String) (hd : ".." ∉ done) : ".." ∉ parts.foldl
      (fun (done : List String) name => if name = ".." then done.tail else name :: done) done := by
    induction parts generalizing done with
    | nil => exact hd
    | cons name parts ih =>
      rw [List.foldl_cons]
      split
      · exact ih _ fun hm => hd (List.mem_of_mem_tail hm)
      · next hn => exact ih _ (List.not_mem_cons_of_ne_of_not_mem (Ne.symm hn) hd)
  rw [settled, List.mem_reverse]
  exact h [] List.not_mem_nil

/-- A way without steps up leads to the file that stands under its names. -/
theorem find?_of_walk (hn : ".." ∉ names) (h : d.walk names above = .file parts f) :
    parts = above ++ names ∧ d.find? parts = some (.file f) := by
  induction names generalizing above with
  | nil => cases h
  | cons name rest ih =>
    have hname : name ≠ ".." := (List.ne_of_not_mem_cons hn).symm
    rw [walk, step, if_neg hname] at h
    by_cases hl : 255 < name.utf8ByteSize
    · rw [if_pos hl] at h
      cases h
    · rw [if_neg hl] at h
      cases he : d.find? (above ++ [name]) with
      | none =>
        rw [he] at h
        cases h
      | some entry =>
        cases entry with
        | directory =>
          rw [he] at h
          rw [← List.singleton_append, ← List.append_assoc]
          exact ih (List.not_mem_of_not_mem_cons hn) h
        | file g =>
          rw [he] at h
          dsimp only at h
          split at h
          · next hr =>
            cases h
            rw [List.isEmpty_iff.mp hr]
            exact ⟨rfl, he⟩
          · cases h

theorem find?_openFile (hn : ".." ∉ parts) (h : d.openFile parts = .ok d') :
    ∃ f, d'.find? parts = some (.file f) := by
  obtain ⟨rfl, ps, f, hw⟩ | rfl := openFile_cases h
  · obtain ⟨rfl, hf⟩ := find?_of_walk hn hw
    exact ⟨f, hf⟩
  · exact ⟨_, find?_put⟩

end Disk

end AgentControl
