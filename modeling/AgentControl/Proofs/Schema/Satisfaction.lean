import AgentControl.Configuration.Schema
import AgentControl.Proofs.Json.Denotation

/-! # Satisfying a schema document

A schema document is read keyword by keyword, and a value satisfies it where it meets each of them.
For the documents that are published this is what the schema behind them accepts.
-/

namespace AgentControl

open Value (Entries)

namespace Json

/-- The keywords that ask something of a value; all others are for its readers. -/
inductive Keyword where
  | type
  | enum
  | required
  | properties
  | anyOf
  | ref
deriving DecidableEq, Repr

namespace Keyword

def name : Keyword → String
  | type => "type"
  | enum => "enum"
  | required => "required"
  | properties => "properties"
  | anyOf => "anyOf"
  | ref => "$ref"

def all : List Keyword := [type, enum, required, properties, anyOf, ref]

theorem name_inj {k l : Keyword} : k.name = l.name ↔ k = l := by
  cases k <;> cases l <;> decide

theorem mem_all (k : Keyword) : k ∈ all := by cases k <;> decide

end Keyword

/-- The types that a value is of. A number is an integer where it is written as one, and no
Boolean is a number. -/
def typesOf : Value → List String
  | .null => ["null"]
  | .bool _ => ["boolean"]
  | .int _ => ["integer", "number"]
  | .float _ => ["number"]
  | .str _ => ["string"]
  | .list _ => ["array"]
  | .dict _ => ["object"]
  | _ => []

/-- What stands in a document under a path of names. -/
def follow : List String → Json → Option Json
  | [], j => some j
  | name :: names, .object ms => (lastMember name ms).bind (follow names)
  | _ :: _, _ => none

/-- What a reference points at: a hash for the document, and the names on the way
behind a slash each. -/
def resolve (root : Json) (reference : String) : Option Json :=
  match Text.splitOn '/' reference.toList with
  | ['#'] :: names => follow (names.map String.ofList) root
  | _ => none

mutual

/-- Whether a value is as a schema in a document wants it. -/
inductive Satisfies (root : Json) : Json → Value → Prop where
  | intro {ms : List (String × Json)} {v : Value} :
      (∀ k j, (Keyword.name k, j) ∈ ms → Meets root k j v) → Satisfies root (.object ms) v

/-- Whether a value meets a keyword. Those of objects ask nothing of other values. -/
inductive Meets (root : Json) : Keyword → Json → Value → Prop where
  | type {name : String} {v : Value} : name ∈ typesOf v → Meets root .type (.str name) v
  | enum {js : List Json} {j : Json} {v : Value} :
      j ∈ js → Denotes j v → Meets root .enum (.array js) v
  | required {js : List Json} {es : Entries} :
      (∀ name, .str name ∈ js → ∃ v, Value.lookup name es = some v) →
      Meets root .required (.array js) (.dict es)
  | properties {ms : List (String × Json)} {es : Entries} :
      (∀ name j v, (name, j) ∈ ms → Value.lookup name es = some v → Satisfies root j v) →
      Meets root .properties (.object ms) (.dict es)
  | notRequired {j : Json} {v : Value} : (∀ es, v ≠ .dict es) → Meets root .required j v
  | noProperties {j : Json} {v : Value} : (∀ es, v ≠ .dict es) → Meets root .properties j v
  | anyOf {js : List Json} {j : Json} {v : Value} : j ∈ js → Satisfies root j v →
      Meets root .anyOf (.array js) v
  | ref {reference : String} {j : Json} {v : Value} : resolve root reference = some j →
      Satisfies root j v → Meets root .ref (.str reference) v

end

variable {root j : Json} {k : Keyword} {ms : List (String × Json)} {js : List Json} {es : Entries}
  {v : Value} {name : String}

theorem satisfies_iff : Satisfies root (.object ms) v ↔
    ∀ k j, (Keyword.name k, j) ∈ ms → Meets root k j v := by
  constructor
  · intro h
    cases h with
    | intro h => exact h
  · exact .intro

theorem satisfies_nil : Satisfies root (.object []) v := .intro nofun

theorem satisfies_cons_keyword : Satisfies root (.object ((k.name, j) :: ms)) v ↔
    Meets root k j v ∧ Satisfies root (.object ms) v := by
  simp only [satisfies_iff, List.mem_cons, Prod.mk.injEq, Keyword.name_inj]
  constructor
  · intro h
    exact ⟨h k j (Or.inl ⟨rfl, rfl⟩), fun l i hm => h l i (Or.inr hm)⟩
  · rintro ⟨hk, h⟩ l i (⟨rfl, rfl⟩ | hm)
    · exact hk
    · exact h l i hm

theorem satisfies_cons_other (h : name ∉ Keyword.all.map Keyword.name) :
    Satisfies root (.object ((name, j) :: ms)) v ↔ Satisfies root (.object ms) v := by
  have hn (k : Keyword) : k.name ≠ name := by
    rintro rfl
    exact h (List.mem_map_of_mem k.mem_all)
  simp [satisfies_iff, hn]

theorem meets_type_iff : Meets root .type (.str name) v ↔ name ∈ typesOf v := by
  constructor
  · intro h
    cases h with
    | type h => exact h
  · exact .type

theorem meets_enum_iff : Meets root .enum (.array js) v ↔ ∃ j ∈ js, Denotes j v := by
  constructor
  · intro h
    cases h with
    | enum hj h => exact ⟨_, hj, h⟩
  · rintro ⟨j, hj, h⟩
    exact .enum hj h

theorem meets_required_iff : Meets root .required (.array js) (.dict es) ↔
    ∀ name, .str name ∈ js → ∃ v, Value.lookup name es = some v := by
  constructor
  · intro h
    cases h with
    | required h => exact h
    | notRequired h => exact absurd rfl (h es)
  · exact .required

theorem meets_properties_iff : Meets root .properties (.object ms) (.dict es) ↔
    ∀ name j v, (name, j) ∈ ms → Value.lookup name es = some v → Satisfies root j v := by
  constructor
  · intro h
    cases h with
    | properties h => exact h
    | noProperties h => exact absurd rfl (h es)
  · exact .properties

theorem meets_anyOf_iff : Meets root .anyOf (.array js) v ↔ ∃ j ∈ js, Satisfies root j v := by
  constructor
  · intro h
    cases h with
    | anyOf hj h => exact ⟨_, hj, h⟩
  · rintro ⟨j, hj, h⟩
    exact .anyOf hj h

theorem meets_ref_iff {reference : String} (hr : resolve root reference = some j) :
    Meets root .ref (.str reference) v ↔ Satisfies root j v := by
  constructor
  · intro h
    cases h with
    | ref hj h =>
      obtain rfl := Option.some.inj (hr.symm.trans hj)
      exact h
  · exact .ref hr

end Json

namespace Schema

open Json (Keyword Satisfies resolve satisfies_nil satisfies_cons_keyword satisfies_cons_other)

variable {root : Json} {defs : Definitions} {depth : Nat} {title description reference : String}
  {names : List String} {ps : List (String × Schema)} {s : Schema} {v : Value} {es : Entries}

/-! ## The documents of schemas -/

theorem propertyMembers_eq_map :
    propertyMembers ps = ps.map fun p => (p.1, .object (members p.2)) := by
  induction ps with
  | nil => rfl
  | cons p ps ih => rw [propertyMembers, ih, List.map_cons]

theorem satisfies_integer :
    Satisfies root (.object (members (.integer title description))) v ↔ ∃ n, v = .int n := by
  rw [members, satisfies_cons_other (by decide), satisfies_cons_other (by decide),
    show "type" = Keyword.name .type from rfl, satisfies_cons_keyword, Json.meets_type_iff,
    and_iff_left satisfies_nil]
  cases v <;> simp [Json.typesOf]

theorem satisfies_enumeration :
    Satisfies root (.object (members (.enumeration title description names))) v ↔
      ∃ name ∈ names, v = .str name := by
  rw [members, satisfies_cons_other (by decide), show "enum" = Keyword.name .enum from rfl,
    satisfies_cons_keyword, satisfies_cons_other (by decide),
    show "type" = Keyword.name .type from rfl, satisfies_cons_keyword, Json.meets_type_iff,
    and_iff_left satisfies_nil, strings, Json.meets_enum_iff]
  constructor
  · rintro ⟨⟨j, hj, hd⟩, -⟩
    obtain ⟨name, hn, rfl⟩ := List.mem_map.mp hj
    cases hd
    exact ⟨name, hn, rfl⟩
  · rintro ⟨name, hn, rfl⟩
    exact ⟨⟨_, List.mem_map_of_mem hn, .str⟩, by simp [Json.typesOf]⟩

theorem satisfies_object :
    Satisfies root (.object (members (.object title description names ps))) v ↔
      ∃ es, v = .dict es ∧ (∀ name ∈ names, ∃ w, Value.lookup name es = some w) ∧
        ∀ p ∈ ps, ∀ w, Value.lookup p.1 es = some w → Satisfies root (.object (members p.2)) w := by
  rw [members, satisfies_cons_other (by decide),
    show "properties" = Keyword.name .properties from rfl, satisfies_cons_keyword,
    show "required" = Keyword.name .required from rfl, satisfies_cons_keyword,
    satisfies_cons_other (by decide), show "type" = Keyword.name .type from rfl,
    satisfies_cons_keyword, Json.meets_type_iff, and_iff_left satisfies_nil, strings,
    propertyMembers_eq_map]
  constructor
  · rintro ⟨hp, hr, ht⟩
    obtain ⟨es, rfl⟩ : ∃ es, v = .dict es := by
      cases v <;> simp [Json.typesOf] at ht ⊢
    rw [Json.meets_properties_iff] at hp
    rw [Json.meets_required_iff] at hr
    refine ⟨es, rfl, ?_, ?_⟩
    · intro name hn
      exact hr name (List.mem_map_of_mem hn)
    · intro p hm w hw
      exact hp p.1 _ w (List.mem_map_of_mem hm) hw
  · rintro ⟨es, rfl, hr, hp⟩
    rw [Json.meets_properties_iff, Json.meets_required_iff]
    refine ⟨?_, ?_, by simp [Json.typesOf]⟩
    · intro name j w hm hw
      obtain ⟨p, hp', he⟩ := List.mem_map.mp hm
      obtain ⟨rfl, rfl⟩ := Prod.mk.inj he
      exact hp p hp' w hw
    · intro name hn
      obtain ⟨_, hm, he⟩ := List.mem_map.mp hn
      obtain rfl := Json.str.inj he
      exact hr _ hm

theorem satisfies_optional
    (hr : resolve root ("#/$defs/" ++ reference) = some (.object (members s))) :
    Satisfies root (.object (members (.optional reference description))) v ↔
      v = .null ∨ Satisfies root (.object (members s)) v := by
  rw [members, show "anyOf" = Keyword.name .anyOf from rfl, satisfies_cons_keyword,
    satisfies_cons_other (by decide), satisfies_cons_other (by decide), and_iff_left satisfies_nil,
    Json.meets_anyOf_iff]
  simp only [List.mem_cons, List.not_mem_nil, or_false, exists_eq_or_imp, exists_eq_left]
  rw [show "$ref" = Keyword.name .ref from rfl, satisfies_cons_keyword, Json.meets_ref_iff hr,
    show "type" = Keyword.name .type from rfl, satisfies_cons_keyword, Json.meets_type_iff,
    and_iff_left satisfies_nil, and_iff_left satisfies_nil, or_comm]
  refine or_congr_left ?_
  cases v <;> simp [Json.typesOf]

/-! ## What schemas accept -/

theorem accepts_integer :
    accepts defs depth (.integer title description) v = true ↔ ∃ n, v = .int n := by
  cases v <;> simp [accepts]

theorem accepts_enumeration :
    accepts defs depth (.enumeration title description names) v = true ↔
      ∃ name ∈ names, v = .str name := by
  cases v <;> simp [accepts]

theorem acceptsProperties_iff : acceptsProperties defs depth ps es = true ↔
    ∀ p ∈ ps, ∀ w, Value.lookup p.1 es = some w → accepts defs depth p.2 w = true := by
  induction ps with
  | nil => simp [acceptsProperties]
  | cons p ps ih =>
    rw [acceptsProperties, Bool.and_eq_true, ih, List.forall_mem_cons]
    refine and_congr_left' ?_
    cases Value.lookup p.1 es <;> simp

theorem accepts_object :
    accepts defs depth (.object title description names ps) v = true ↔
      ∃ es, v = .dict es ∧ (∀ name ∈ names, ∃ w, Value.lookup name es = some w) ∧
        ∀ p ∈ ps, ∀ w, Value.lookup p.1 es = some w → accepts defs depth p.2 w = true := by
  cases v <;> simp [accepts, acceptsProperties_iff, Option.isSome_iff_exists]

theorem accepts_optional (h : defs.lookup reference = some s) :
    accepts defs (depth + 1) (.optional reference description) v = true ↔
      v = .null ∨ accepts defs depth s v = true := by
  cases v <;> simp [accepts, h]

/-- All that a schema refers to is defined, and no reference is followed too deep. -/
inductive Closed (defs : Definitions) : Nat → Schema → Prop where
  | integer {depth : Nat} {title description : String} :
      Closed defs depth (.integer title description)
  | enumeration {depth : Nat} {title description : String} {names : List String} :
      Closed defs depth (.enumeration title description names)
  | object {depth : Nat} {title description : String} {names : List String}
      {ps : List (String × Schema)} : (∀ p ∈ ps, Closed defs depth p.2) →
      Closed defs depth (.object title description names ps)
  | optional {depth : Nat} {reference description : String} {s : Schema} :
      defs.lookup reference = some s → Closed defs depth s →
      Closed defs (depth + 1) (.optional reference description)

/-- A document asks for what its schema accepts, where it holds what the schema refers to. -/
theorem satisfies_iff_accepts
    (hr : ∀ name s, defs.lookup name = some s →
      resolve root ("#/$defs/" ++ name) = some (.object (members s)))
    (h : Closed defs depth s) :
    Satisfies root (.object (members s)) v ↔ accepts defs depth s v = true := by
  induction h generalizing v with
  | integer => rw [satisfies_integer, accepts_integer]
  | enumeration => rw [satisfies_enumeration, accepts_enumeration]
  | object _ ih =>
    rw [satisfies_object, accepts_object]
    refine exists_congr fun es => and_congr_right fun _ => and_congr_right fun _ => ?_
    exact forall₂_congr fun p hp => forall₂_congr fun w _ => ih p hp
  | optional hl _ ih => rw [satisfies_optional (hr _ _ hl), accepts_optional hl, ih]

/-! ## The wire form -/

theorem resolve_definitions (name : String) (s : Schema) (h : definitions.lookup name = some s) :
    resolve wireDocument ("#/$defs/" ++ name) = some (.object (members s)) := by
  unfold definitions at h
  rw [lookup_cons_ite, lookup_cons_ite, List.lookup_nil] at h
  split_ifs at h with h₁ h₂
  · subst h₁
    obtain rfl := Option.some.inj h
    rfl
  · subst h₂
    obtain rfl := Option.some.inj h
    rfl

theorem closed_configuration : Closed definitions 1 configuration := by
  have hp : Closed definitions 0 pool := by
    refine .object ?_
    simp only [List.forall_mem_cons]
    exact ⟨.integer, .integer, .integer, List.forall_mem_nil _⟩
  have hl : Closed definitions 0 level := .enumeration
  refine .object ?_
  simp only [List.forall_mem_cons]
  exact ⟨.integer, .integer, .optional rfl hl, .optional rfl hp, List.forall_mem_nil _⟩

/-- The published document asks for what the schema of the wire form describes. -/
theorem satisfies_wireDocument_iff : Satisfies wireDocument wireDocument v ↔
    describes v = true := by
  have h : Satisfies wireDocument wireDocument v ↔
      Satisfies wireDocument (.object (members configuration)) v := satisfies_cons_other (by decide)
  rw [h, satisfies_iff_accepts resolve_definitions closed_configuration, describes]

end Schema

end AgentControl
