import Mathlib.Data.List.Basic
import AgentControl.Issue

/-! # Outcomes of checks

A check over several places passes where each of them is good, and else reports those that are not,
one entry each and in their order. Checks made of checks keep to this.
-/

namespace AgentControl

/-! ## Selections -/

/-- One entry for each member of a list that is not good, in the order of the list. -/
inductive Selected {ι β : Type} (Good : ι → Prop) (R : ι → β → Prop) : List ι → List β → Prop where
  | nil : Selected Good R [] []
  | good {p : ι} {ps : List ι} {es : List β} : Good p → Selected Good R ps es →
      Selected Good R (p :: ps) es
  | bad {p : ι} {e : β} {ps : List ι} {es : List β} : ¬ Good p → R p e → Selected Good R ps es →
      Selected Good R (p :: ps) (e :: es)

namespace Selected

variable {ι κ β γ : Type} {G : ι → Prop} {R : ι → β → Prop} {ps qs : List ι} {es fs : List β}

theorem append (h : Selected G R ps es) (h' : Selected G R qs fs) :
    Selected G R (ps ++ qs) (es ++ fs) := by
  induction h with
  | nil => exact h'
  | good hp _ ih => exact .good hp ih
  | bad hp hr _ ih => exact .bad hp hr ih

theorem nil_iff : Selected G R ps [] ↔ ∀ p ∈ ps, G p := by
  constructor
  · intro h
    generalize he : ([] : List β) = es at h
    induction h with
    | nil => simp
    | good hp _ ih => exact List.forall_mem_cons.mpr ⟨hp, ih he⟩
    | bad _ _ _ _ => cases he
  · intro h
    induction ps with
    | nil => exact .nil
    | cons p ps ih =>
      obtain ⟨hp, hps⟩ := List.forall_mem_cons.mp h
      exact .good hp (ih hps)

theorem eq_nil (h : Selected G R ps es) (hg : ∀ p ∈ ps, G p) : es = [] := by
  induction h with
  | nil => rfl
  | good _ _ ih => exact ih (List.forall_mem_cons.mp hg).2
  | bad hp _ _ _ => exact absurd (List.forall_mem_cons.mp hg).1 hp

theorem exists_of_mem {e : β} (h : Selected G R ps es) (he : e ∈ es) : ∃ p, R p e := by
  induction h with
  | nil => cases he
  | good _ _ ih => exact ih he
  | bad _ hr _ ih =>
    rcases List.mem_cons.mp he with rfl | he
    · exact ⟨_, hr⟩
    · exact ih he

/-- What does not pass a test is selected by filtering. -/
theorem filter_map {t : ι → Bool} {g : ι → β} (ht : ∀ p ∈ ps, t p = true ↔ ¬ G p) :
    Selected G (fun p e => e = g p) ps ((ps.filter t).map g) := by
  induction ps with
  | nil => exact .nil
  | cons p ps ih =>
    obtain ⟨hp, hps⟩ := List.forall_mem_cons.mp ht
    by_cases h : t p = true
    · rw [List.filter_cons_of_pos h]
      exact .bad (hp.mp h) rfl (ih hps)
    · rw [List.filter_cons_of_neg h]
      exact .good (not_not.mp fun hn => h (hp.mpr hn)) (ih hps)

theorem transfer {H : κ → Prop} {S : κ → γ → Prop} {g : ι → κ} {f : β → γ}
    (h : Selected G R ps es) (hg : ∀ p ∈ ps, G p ↔ H (g p)) (hr : ∀ p e, R p e → S (g p) (f e)) :
    Selected H S (ps.map g) (es.map f) := by
  induction h with
  | nil => exact .nil
  | good hp _ ih =>
    obtain ⟨hg₁, hg₂⟩ := List.forall_mem_cons.mp hg
    exact .good (hg₁.mp hp) (ih hg₂)
  | bad hp he _ ih =>
    obtain ⟨hg₁, hg₂⟩ := List.forall_mem_cons.mp hg
    exact .bad (fun h => hp (hg₁.mpr h)) (hr _ _ he) (ih hg₂)

/-- Two selections from one list go entry by entry. -/
theorem forall₂ {H : ι → Prop} {S : ι → γ → Prop} {T : β → γ → Prop} {gs : List γ}
    (h : Selected G R ps es) (h' : Selected H S ps gs) (hg : ∀ p ∈ ps, G p ↔ H p)
    (ht : ∀ p e g, R p e → S p g → T e g) : List.Forall₂ T es gs := by
  induction h generalizing gs with
  | nil => cases h'; exact .nil
  | good hp _ ih =>
    obtain ⟨hg₁, hg₂⟩ := List.forall_mem_cons.mp hg
    cases h' with
    | good _ h' => exact ih h' hg₂
    | bad hn _ _ => exact absurd (hg₁.mp hp) hn
  | bad hp he _ ih =>
    obtain ⟨hg₁, hg₂⟩ := List.forall_mem_cons.mp hg
    cases h' with
    | good hn _ => exact absurd (hg₁.mpr hn) hp
    | bad _ hs h' => exact .cons (ht _ _ _ he hs) (ih h' hg₂)

end Selected

/-! ## Outcomes of steps -/

/-- What comes after a step is done only where the step was. -/
theorem bind_eq_ok_iff {ε α β : Type} {x : Except ε α} {f : α → Except ε β} {b : β} :
    (x >>= f) = .ok b ↔ ∃ a, x = .ok a ∧ f a = .ok b := by
  cases x with
  | error e => exact iff_of_false nofun nofun
  | ok a => exact ⟨fun h => ⟨a, rfl, h⟩, fun ⟨_, ha, hf⟩ => Except.ok.inj ha ▸ hf⟩

theorem mapError_eq_ok_iff {ε δ α : Type} {f : ε → δ} {r : Except ε α} {a : α} :
    r.mapError f = .ok a ↔ r = .ok a := by
  cases r <;> simp [Except.mapError]

/-! ## Outcomes of checks -/

namespace Checked

variable {α β : Type} {r : Checked α} {s : Checked β}

theorem both_eq_ok_iff {p : α × β} : r.both s = .ok p ↔ r = .ok p.1 ∧ s = .ok p.2 := by
  obtain ⟨a, b⟩ := p
  cases r <;> cases s <;> simp [both]

theorem within_eq_ok_iff {k : Step} {a : α} : r.within k = .ok a ↔ r = .ok a := by
  cases r <;> simp [within]

theorem map_eq_ok_iff {f : α → β} {b : β} : r.map f = .ok b ↔ ∃ a, r = .ok a ∧ f a = b := by
  cases r <;> simp [Except.map]

/-- A check passes where every place is good, and fails with an issue for each one that is not. -/
def Judged {ι : Type} (G : ι → Prop) (C : ι → Location → Cause → Prop) (ps : List ι) :
    Checked α → Prop
  | .ok _ => ∀ p ∈ ps, G p
  | .error is => is ≠ [] ∧ Selected G (fun p i => C p i.location i.cause) ps is

section Judged

variable {ι κ : Type} {G : ι → Prop} {C : ι → Location → Cause → Prop} {ps qs : List ι}

theorem Judged.both (hr : Judged G C ps r) (hs : Judged G C qs s) :
    Judged G C (ps ++ qs) (r.both s) := by
  cases r with
  | ok a =>
    cases s with
    | ok b =>
      intro p hp
      rcases List.mem_append.mp hp with h | h
      · exact hr p h
      · exact hs p h
    | error js => exact ⟨hs.1, (Selected.nil_iff.mpr hr).append hs.2⟩
  | error is =>
    cases s with
    | ok b =>
      have h := hr.2.append (Selected.nil_iff.mpr hs)
      rw [List.append_nil] at h
      exact ⟨hr.1, h⟩
    | error js => exact ⟨by simp [hr.1], hr.2.append hs.2⟩

theorem Judged.map {f : α → β} (h : Judged G C ps r) : Judged G C ps (r.map f) := by
  cases r with
  | ok a => exact h
  | error is => exact h

theorem Judged.within {H : κ → Prop} {D : κ → Location → Cause → Prop} {g : ι → κ} {k : Step}
    (h : Judged G C ps r) (hg : ∀ p ∈ ps, G p ↔ H (g p))
    (hc : ∀ p l c, C p l c → D (g p) (k :: l) c) : Judged H D (ps.map g) (r.within k) := by
  cases r with
  | ok a =>
    intro q hq
    obtain ⟨p, hp, rfl⟩ := List.mem_map.mp hq
    exact (hg p hp).mp (h p hp)
  | error is =>
    refine ⟨by simpa using h.1, h.2.transfer hg fun p i hi => ?_⟩
    exact hc p i.location i.cause hi

theorem Judged.cons_good {p : ι} (hp : G p) (h : Judged G C ps r) : Judged G C (p :: ps) r := by
  cases r with
  | ok a => exact List.forall_mem_cons.mpr ⟨hp, h⟩
  | error is => exact ⟨h.1, .good hp h.2⟩

end Judged

end Checked

end AgentControl
