import AgentControl.Text.Blank

/-! # Selectors

How the place that the root widget is mounted into is named: by identifier, class, state or type,
with alternatives between commas. The document offers one such place.
-/

namespace AgentControl.Selector

/-- One condition on an element; `inside` asks for an element around it. -/
inductive Part where
  | id (name : String)
  | cls (name : String)
  | anything
  | type (name : String)
  | state (name : String)
  | inside
deriving DecidableEq, Repr

/-- Conditions that hold together. -/
abbrev Compound := List Part

def isLetter (c : Char) : Bool :=
  let n := c.toNat
  (0x41 ≤ n && n ≤ 0x5A) || (0x61 ≤ n && n ≤ 0x7A)

def isNameStart (c : Char) : Bool := isLetter c || c == '_' || c == '-'

def isNameChar (c : Char) : Bool := isNameStart c || (0x30 ≤ c.toNat && c.toNat ≤ 0x39)

def isTypeStart (c : Char) : Bool := (0x41 ≤ c.toNat && c.toNat ≤ 0x5A) || c == '_'

def isTypeChar (c : Char) : Bool := isNameChar c && c != '-'

/-- A name and what follows it. -/
def name? : List Char → Option (String × List Char)
  | [] => none
  | c :: cs =>
      if isNameStart c then
        some (String.ofList (c :: cs.takeWhile isNameChar), cs.dropWhile isNameChar)
      else none

def states : List String :=
  ["ansi", "blur", "can-focus", "dark", "disabled", "empty", "enabled", "even", "first-child",
    "first-of-type", "focus", "focus-within", "hover", "inline", "last-child", "last-of-type",
    "light", "nocolor", "odd"]

/-- The name of a state and what follows it, if there is such a state. -/
def state? (cs : List Char) : Option (String × List Char) :=
  let isStateChar (c : Char) : Bool := isLetter c || c == '_' || c == '-'
  let name := String.ofList (cs.takeWhile isStateChar)
  if states.contains name then some (name, cs.dropWhile isStateChar) else none

/-- What follows a comment in marks; it has to be closed. -/
def afterComment : List Char → Option (List Char)
  | '*' :: '/' :: cs => some cs
  | _ :: cs => afterComment cs
  | [] => none

/-- Adds a condition; behind a blank or an arrow the conditions before it are those
of an element around. -/
def extend (parts : Compound) (apart : Bool) (p : Part) : Compound :=
  if parts.isEmpty then [p] else if apart then parts ++ [.inside, p] else parts ++ [p]

/-- Reads on with the conditions of the alternative at hand; `started` once a selector has begun. -/
def parseFrom : (fuel : Nat) → (started : Bool) → Compound → (apart : Bool) → List Char →
    Option (List Compound)
  | 0, _, _, _, _ => none
  | _ + 1, _, parts, _, [] => some (if parts.isEmpty then [] else [parts])
  | fuel + 1, started, parts, apart, c :: cs =>
      if Text.isBlank c then parseFrom fuel started parts true cs
      else match c, cs with
        | '/', '*' :: rest => (afterComment rest).bind (parseFrom fuel started parts apart)
        | '#', ' ' :: rest => parseFrom fuel started parts apart (rest.dropWhile (· != '\n'))
        | '#', _ => (name? cs).bind fun (n, rest) =>
            parseFrom fuel true (extend parts apart (.id n)) false rest
        | '.', _ => (name? cs).bind fun (n, rest) =>
            parseFrom fuel true (extend parts apart (.cls n)) false rest
        | '*', _ => parseFrom fuel true (extend parts apart .anything) false cs
        | ':', _ =>
            if started then (state? cs).bind fun (n, rest) =>
              parseFrom fuel true (parts ++ [.state n]) apart rest
            else none
        | '>', _ => if started then parseFrom fuel true parts true cs else none
        | ',', _ => if started then (parseFrom fuel true [] true cs).map (parts :: ·) else none
        | '{', _ => if started then some (if parts.isEmpty then [] else [parts]) else none
        | _, _ =>
            if isTypeStart c then
              parseFrom fuel true
                (extend parts apart (.type (String.ofList (c :: cs.takeWhile isTypeChar)))) false
                (cs.dropWhile isTypeChar)
            else none

/-- The alternatives of a selector, if it is one. -/
def parse? (s : String) : Option (List Compound) :=
  parseFrom (s.toList.length + 1) false [] false s.toList

/-- The identifier of the one place that a root widget can be mounted into. -/
def anchor : String := "app"

/-- Whether the anchor meets a condition. -/
def Part.holds : Part → Bool
  | id name => name == anchor
  | anything => true
  | type name => name == "AnchorContainer" || name == "Container"
  | cls _ | state _ | inside => false

/-- Whether a selector names the anchor. -/
def hasAnchor (alternatives : List Compound) : Bool :=
  alternatives.any fun parts => !parts.isEmpty && parts.all Part.holds

end AgentControl.Selector
