import AgentControl.Proofs.Configuration.RoundTrip
import AgentControl.Proofs.Text.Parts

/-! # What a summary tells

A summary is a line of words with a blank between any two. The words give back the port, the
workers, the level and the pool, except for the intervals of a pool that is disabled. There is such
a line as long as no integer in it has too many digits.
-/

namespace AgentControl

variable {a b c : Configuration} {p q : Option ConnectionPool} {line : String}

/-! ## Words -/

/-- A text without a blank. -/
def IsWord (s : String) : Prop := ' ' ∉ s.toList

instance {s : String} : Decidable (IsWord s) := inferInstanceAs (Decidable (_ ∉ _))

theorem IsWord.append {s t : String} (hs : IsWord s) (ht : IsWord t) : IsWord (s ++ t) :=
  Text.not_mem_append hs ht

theorem isWord_ofInt (n : ℕ) : IsWord (Decimal.ofInt (n : ℤ)) := by
  intro h
  rw [Decimal.ofInt_natCast] at h
  exact absurd (Decimal.digit_range h).1 (by decide)

theorem LogLevel.isWord_name (l : LogLevel) : IsWord l.name := by
  cases l <;> decide

/-- A line is made of its words in one way only. -/
theorem join_words_inj {ws vs : List String} (hw : ws ≠ []) (hv : vs ≠ [])
    (hws : ∀ w ∈ ws, IsWord w)
    (hvs : ∀ v ∈ vs, IsWord v) (h : Text.join " " ws = Text.join " " vs) : ws = vs := by
  have hs : " " = String.singleton ' ' := rfl
  rw [hs] at h
  rw [← Text.map_splitOn_eq_iff.mpr ⟨hw, hws, rfl⟩, h, Text.map_splitOn_eq_iff.mpr ⟨hv, hvs, rfl⟩]

/-! ## Pools -/

/-- What a summary tells of a pool. -/
inductive PoolUse where
  | unset
  | disabled
  | enabled (p : ConnectionPool)

namespace PoolUse

def of : Option ConnectionPool → PoolUse
  | none => unset
  | some p => if p.enabled then enabled p else disabled

def words : PoolUse → List String
  | unset => ["pool=default"]
  | disabled => ["pool=disabled"]
  | enabled p =>
      ["pool=max=" ++ Decimal.ofInt p.maxPoolSize, "check=" ++ Decimal.ofInt p.checkInterval,
        "fill=" ++ Decimal.ofInt p.fillInterval]

/-- The integers among the words. -/
def numbers : PoolUse → List ℕ
  | enabled p => [p.maxPoolSize, p.checkInterval, p.fillInterval]
  | _ => []

theorem isWord_of_mem_words {u : PoolUse} : ∀ w ∈ u.words, IsWord w := by
  cases u with
  | unset => decide
  | disabled => decide
  | enabled p =>
    intro w hw
    simp only [words, List.mem_cons, List.not_mem_nil, or_false] at hw
    rcases hw with rfl | rfl | rfl
    all_goals exact .append (by decide) (isWord_ofInt _)

theorem words_ne_nil {u : PoolUse} : u.words ≠ [] := by
  cases u <;> exact List.cons_ne_nil _ _

theorem words_enabled_inj {p q : ConnectionPool} (h : (enabled p).words = (enabled q).words) :
    p = q := by
  simp only [words, List.cons.injEq, String.append_right_inj, Decimal.ofInt_natCast_inj,
    and_true] at h
  obtain ⟨hm, hc, hf⟩ := h
  cases p
  cases q
  rw [ConnectionPool.mk.injEq]
  exact ⟨hc, hf, hm⟩

theorem words_inj {u v : PoolUse} (h : u.words = v.words) : u = v := by
  have hl := congrArg List.length h
  cases u with
  | unset =>
    cases v with
    | unset => rfl
    | disabled => exact absurd h (by decide)
    | enabled q => cases hl
  | disabled =>
    cases v with
    | unset => exact absurd h (by decide)
    | disabled => rfl
    | enabled q => cases hl
  | enabled p =>
    cases v with
    | unset | disabled => cases hl
    | enabled q => rw [words_enabled_inj h]

end PoolUse

/-- Pools between which a summary sees no difference. -/
inductive PoolsAlike : Option ConnectionPool → Option ConnectionPool → Prop where
  | unset : PoolsAlike none none
  | disabled {p q : ConnectionPool} :
      p.maxPoolSize = 0 → q.maxPoolSize = 0 → PoolsAlike (some p) (some q)
  | same {p : ConnectionPool} : PoolsAlike (some p) (some p)

theorem PoolUse.of_some (p : ConnectionPool) :
    of (some p) = if p.maxPoolSize = 0 then disabled else enabled p := by
  by_cases h : p.maxPoolSize = 0
  · simp [of, ConnectionPool.enabled, h]
  · simp [of, ConnectionPool.enabled, h, Nat.pos_of_ne_zero h]

theorem PoolUse.of_some_ne_unset (p : ConnectionPool) : of (some p) ≠ unset := by
  rw [of_some]
  split <;> nofun

theorem PoolUse.of_eq_of_iff : of p = of q ↔ PoolsAlike p q := by
  constructor
  · intro h
    cases p with
    | none =>
      cases q with
      | none => exact .unset
      | some q => exact absurd h.symm (of_some_ne_unset q)
    | some p =>
      cases q with
      | none => exact absurd h (of_some_ne_unset p)
      | some q =>
        rw [of_some, of_some] at h
        split at h
        · next hp =>
          split at h
          · next hq => exact .disabled hp hq
          · cases h
        · split at h
          · cases h
          · cases h
            exact .same
  · rintro (_ | ⟨hp, hq⟩ | _)
    · rfl
    · rw [of_some, of_some, if_pos hp, if_pos hq]
    · rfl

theorem PoolsAlike.map_enabled (h : PoolsAlike p q) :
    p.map ConnectionPool.enabled = q.map ConnectionPool.enabled := by
  cases h with
  | unset => rfl
  | disabled hp hq => simp [ConnectionPool.enabled, hp, hq]
  | same => rfl

namespace Configuration

/-! ## The line -/

theorem levelSummary_eq_iff : a.levelSummary = b.levelSummary ↔ a.maxLogLevel = b.maxLogLevel := by
  have hd (l : LogLevel) : "default" ≠ l.name := by cases l <;> decide
  unfold levelSummary
  cases a.maxLogLevel with
  | none =>
    cases b.maxLogLevel with
    | none => exact iff_of_true rfl rfl
    | some l => exact iff_of_false (hd l) nofun
  | some l =>
    cases b.maxLogLevel with
    | none => exact iff_of_false (hd l).symm nofun
    | some m => exact ⟨fun h => congrArg some (LogLevel.name_injective h), fun h => by cases h; rfl⟩

theorem isWord_levelSummary (c : Configuration) : IsWord c.levelSummary := by
  unfold levelSummary
  split
  · decide
  · exact LogLevel.isWord_name _

/-- The words of a summary. -/
def words (c : Configuration) : List String :=
  ("port=" ++ Decimal.ofInt c.port) :: ("workers=" ++ Decimal.ofInt c.workers) ::
    ("log=" ++ c.levelSummary) :: (PoolUse.of c.pool).words

theorem isWord_of_mem_words : ∀ w ∈ c.words, IsWord w := by
  intro w hw
  simp only [words, List.mem_cons] at hw
  rcases hw with rfl | rfl | rfl | hw
  · exact .append (by decide) (isWord_ofInt _)
  · exact .append (by decide) (isWord_ofInt _)
  · exact .append (by decide) c.isWord_levelSummary
  · exact PoolUse.isWord_of_mem_words w hw

/-- The integers that a summary shows. -/
def shownNumbers (c : Configuration) : List ℕ :=
  c.port :: c.workers :: (PoolUse.of c.pool).numbers

theorem poolSummary_of_legible (h : ∀ n ∈ (PoolUse.of c.pool).numbers, Legible n) :
    ∃ s, c.poolSummary = .ok s ∧ Text.join " " (PoolUse.of c.pool).words = "pool=" ++ s := by
  unfold poolSummary
  generalize c.pool = pool at h ⊢
  cases pool with
  | none => exact ⟨_, rfl, rfl⟩
  | some p =>
    by_cases he : p.enabled
    · simp only [PoolUse.of, if_pos he, PoolUse.numbers, List.forall_mem_cons] at h ⊢
      obtain ⟨hm, hc, hf, -⟩ := h
      rw [Decimal.text_of_legible hm, Decimal.text_of_legible hc, Decimal.text_of_legible hf]
      refine ⟨_, rfl, ?_⟩
      apply String.toList_injective
      simp [PoolUse.words, Text.join]
    · simp only [PoolUse.of, if_neg he]
      exact ⟨_, rfl, rfl⟩

theorem legible_of_poolSummary (h : c.poolSummary = .ok line) :
    ∀ n ∈ (PoolUse.of c.pool).numbers, Legible n := by
  unfold poolSummary at h
  generalize c.pool = pool at h ⊢
  cases pool with
  | none => exact List.forall_mem_nil _
  | some p =>
    by_cases he : p.enabled
    · simp only [if_pos he] at h
      obtain ⟨_, hm, h⟩ := bind_eq_ok_iff.mp h
      obtain ⟨_, hc, h⟩ := bind_eq_ok_iff.mp h
      obtain ⟨_, hf, -⟩ := bind_eq_ok_iff.mp h
      simp only [PoolUse.of, if_pos he, PoolUse.numbers, List.forall_mem_cons]
      exact ⟨Decimal.legible_of_text hm, Decimal.legible_of_text hc, Decimal.legible_of_text hf,
        List.forall_mem_nil _⟩
    · simp only [PoolUse.of, if_neg he]
      exact List.forall_mem_nil _

theorem summary_of_legible (h : ∀ n ∈ c.shownNumbers, Legible n) :
    c.summary = .ok (Text.join " " c.words) := by
  simp only [shownNumbers, List.forall_mem_cons] at h
  obtain ⟨hport, hworkers, hpool⟩ := h
  obtain ⟨s, hs, hw⟩ := poolSummary_of_legible hpool
  have hj : Text.join " " c.words = "port=" ++ Decimal.ofInt c.port ++ " " ++
      ("workers=" ++ Decimal.ofInt c.workers ++ " " ++
        ("log=" ++ c.levelSummary ++ " " ++ ("pool=" ++ s))) := by
    rw [← hw, words, Text.join, String.intercalate_cons_cons, String.intercalate_cons_cons,
      String.intercalate_cons_of_ne_nil PoolUse.words_ne_nil]
    rfl
  rw [summary, hs, Decimal.text_of_legible hport, Decimal.text_of_legible hworkers, hj]
  refine congrArg Except.ok ?_
  apply String.toList_injective
  simp

theorem legible_of_summary (h : c.summary = .ok line) : ∀ n ∈ c.shownNumbers, Legible n := by
  obtain ⟨_, hpool, h⟩ := bind_eq_ok_iff.mp h
  obtain ⟨_, hport, h⟩ := bind_eq_ok_iff.mp h
  obtain ⟨_, hworkers, -⟩ := bind_eq_ok_iff.mp h
  exact List.forall_mem_cons.mpr ⟨Decimal.legible_of_text hport,
    List.forall_mem_cons.mpr ⟨Decimal.legible_of_text hworkers, legible_of_poolSummary hpool⟩⟩

theorem words_eq_iff : a.words = b.words ↔
    a.port = b.port ∧ a.workers = b.workers ∧ a.maxLogLevel = b.maxLogLevel ∧
      PoolsAlike a.pool b.pool := by
  have hp : (PoolUse.of a.pool).words = (PoolUse.of b.pool).words ↔ PoolsAlike a.pool b.pool := by
    rw [← PoolUse.of_eq_of_iff]
    exact ⟨PoolUse.words_inj, congrArg PoolUse.words⟩
  simp only [words, List.cons.injEq, String.append_right_inj, Decimal.ofInt_natCast_inj,
    levelSummary_eq_iff, hp]

theorem exists_summary_iff : (∃ line, c.summary = .ok line) ↔ ∀ n ∈ c.shownNumbers, Legible n :=
  ⟨fun ⟨_, h⟩ => legible_of_summary h, fun h => ⟨_, summary_of_legible h⟩⟩

theorem shownNumbers_subset : c.shownNumbers ⊆ c.numbers := by
  refine List.cons_subset_cons _ (List.cons_subset_cons _ ?_)
  cases c.pool with
  | none => exact List.nil_subset _
  | some p =>
    rw [PoolUse.of_some]
    split
    · exact List.nil_subset _
    · intro n hn
      simp only [PoolUse.numbers, List.mem_cons] at hn ⊢
      tauto

/-- A configuration whose integers can be read has a summary. -/
theorem exists_summary (h : ∀ n ∈ c.numbers, Legible n) : ∃ line, c.summary = .ok line :=
  exists_summary_iff.mpr fun n hn => h n (shownNumbers_subset hn)

/-- A configuration has a summary where no integer that it shows is too long. Summaries are the same
of configurations that differ in nothing but the intervals of disabled pools. So no level that is
unset looks set, and no pool that is unset, disabled or enabled looks like another kind. -/
theorem summary_eq_iff (a b : Configuration) :
    ((∃ line, a.summary = .ok line) ↔ ∀ n ∈ a.shownNumbers, Legible n) ∧
    ((∀ n ∈ a.shownNumbers, Legible n) → (∀ n ∈ b.shownNumbers, Legible n) →
      (a.summary = b.summary ↔ a.port = b.port ∧ a.workers = b.workers ∧
        a.maxLogLevel = b.maxLogLevel ∧ PoolsAlike a.pool b.pool) ∧
      (a.summary = b.summary → a.maxLogLevel.isSome = b.maxLogLevel.isSome ∧
        a.pool.map ConnectionPool.enabled = b.pool.map ConnectionPool.enabled)) := by
  refine ⟨exists_summary_iff, fun ha hb => ?_⟩
  have h : a.summary = b.summary ↔ a.port = b.port ∧ a.workers = b.workers ∧
      a.maxLogLevel = b.maxLogLevel ∧ PoolsAlike a.pool b.pool := by
    rw [← words_eq_iff, summary_of_legible ha, summary_of_legible hb, Except.ok.injEq]
    constructor
    · exact join_words_inj (List.cons_ne_nil _ _) (List.cons_ne_nil _ _) isWord_of_mem_words
        isWord_of_mem_words
    · intro hw
      rw [hw]
  refine ⟨h, fun hs => ?_⟩
  obtain ⟨-, -, hl, hp⟩ := h.mp hs
  exact ⟨congrArg Option.isSome hl, hp.map_enabled⟩

/-- A configuration with a disabled pool. -/
def unpooled (others interval : ℕ) : Configuration :=
  ⟨9090, others + 1, none, some ⟨interval, interval, 0⟩, by decide, by decide, Nat.le_add_left ..⟩

theorem legible_unpooled {others interval : ℕ} (h : others + 1 < 10 ^ Decimal.maxDigits) :
    ∀ n ∈ (unpooled others interval).shownNumbers, Legible n := by
  show ∀ n ∈ [9090, others + 1], Legible n
  simp only [List.forall_mem_cons]
  exact ⟨by decide, legible_iff_lt.mpr h, List.forall_mem_nil _⟩

/-- The intervals do not show, however long they are. One worker more does,
however many there are. -/
theorem summary_eq_iff_unpooled :
    (∃ line, (unpooled 7 0).summary = .ok line) ∧
      (unpooled 7 0).summary = (unpooled 7 (10 ^ 4300)).summary ∧
      (unpooled 7 0).pool.map ConnectionPool.enabled =
        (unpooled 7 (10 ^ 4300)).pool.map ConnectionPool.enabled ∧
      (unpooled (10 ^ 4299) 0).summary ≠ (unpooled (10 ^ 4299 + 1) 0).summary := by
  have hl (interval : ℕ) : ∀ n ∈ (unpooled 7 interval).shownNumbers, Legible n :=
    legible_unpooled (by decide +kernel)
  have hs (interval : ℕ) : (unpooled 7 0).summary = (unpooled 7 interval).summary :=
    ((summary_eq_iff _ _).2 (hl 0) (hl interval)).1.mpr ⟨rfl, rfl, rfl, .disabled rfl rfl⟩
  have hp (interval : ℕ) := ((summary_eq_iff _ _).2 (hl 0) (hl interval)).2 (hs interval)
  have hw (others : ℕ) (h : others + 1 + 1 < 10 ^ Decimal.maxDigits) :
      (unpooled others 0).summary ≠ (unpooled (others + 1) 0).summary := by
    intro he
    have hd := (summary_eq_iff (unpooled others 0) (unpooled (others + 1) 0)).2
      (legible_unpooled (Nat.lt_of_succ_lt h)) (legible_unpooled h)
    have hw : others + 1 = others + 1 + 1 := (hd.1.mp he).2.1
    omega
  exact ⟨(summary_eq_iff _ (unpooled 7 0)).1.mpr (hl 0), hs _, (hp _).2, hw _ (by decide +kernel)⟩

theorem summary_of_not_legible {n : ℕ} (hn : n ∈ c.shownNumbers) (h : ¬ Legible n) :
    c.summary = .error ⟨⟩ := by
  cases hs : c.summary with
  | ok line => exact absurd (legible_of_summary hs n hn) h
  | error e => rfl

theorem summary_long {k : ℕ} (h : Decimal.maxDigits ≤ k) :
    (longConfiguration k).summary = .error ⟨⟩ :=
  summary_of_not_legible (List.mem_cons_of_mem _ List.mem_cons_self)
    (mt legible_pow_iff.mp (Nat.not_lt.mpr h))

/-- A configuration of more workers than can be put into a text has no summary, and so not the one
that it has itself. -/
theorem summary_overlong :
    (longConfiguration 4300).summary = .error ⟨⟩ ∧
      ¬ ((∃ line, (longConfiguration 4300).summary = .ok line ∧
          (longConfiguration 4300).summary = .ok line) ↔
        (longConfiguration 4300).port = (longConfiguration 4300).port ∧
          (longConfiguration 4300).workers = (longConfiguration 4300).workers ∧
          (longConfiguration 4300).maxLogLevel = (longConfiguration 4300).maxLogLevel ∧
          PoolsAlike (longConfiguration 4300).pool (longConfiguration 4300).pool) := by
  have hs : (longConfiguration 4300).summary = .error ⟨⟩ := summary_long (by decide)
  refine ⟨hs, fun h => ?_⟩
  obtain ⟨line, hl, -⟩ := h.mpr ⟨rfl, rfl, rfl, .same⟩
  cases hs.symm.trans hl

end Configuration
end AgentControl
