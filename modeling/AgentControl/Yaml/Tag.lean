import AgentControl.Yaml.Stamp
import AgentControl.Yaml.Token.Scalar

/-! # Tags

What kind of value a node stands for, as its tag says or, where a plain scalar has none, as its
spelling shows. The spellings are those of YAML 1.1: a float needs a point, and a colon between
digits counts in sixties.
-/

namespace AgentControl.Yaml

inductive Tag where
  | null
  | bool
  | int
  | float
  | binary
  | timestamp
  | str
  | seq
  | map
  | set
  | omap
  | pairs
  | merge
  | value
  | other
deriving DecidableEq, Repr, Inhabited

namespace Tag

/-- The text that the standard tags start with. -/
def standard : String := "tag:yaml.org,2002:"

def table : List (String × Tag) :=
  [("null", null), ("bool", bool), ("int", int), ("float", float), ("binary", binary),
   ("timestamp", timestamp), ("str", str), ("seq", seq), ("map", map), ("set", set), ("omap", omap),
   ("pairs", pairs), ("merge", merge), ("value", value)]

/-- The tag of a full name. -/
def ofName (name : String) : Tag :=
  ((table.find? fun (n, _) => standard ++ n = name).map (·.2)).getD other

/-! ## Spellings of plain scalars -/

def isDigitOrLow (c : Char) : Bool := Decimal.isAsciiDigit c || c == '_'

/-- Drops a line feed that ends a text. -/
def withoutFeed (cs : List Char) : List Char :=
  if cs.getLast? == some '\n' then cs.dropLast else cs

def dropSign : List Char → List Char
  | c :: cs => if c = '+' ∨ c = '-' then cs else c :: cs
  | [] => []

/-- Digits and underscores, a digit first. -/
def isWhole : List Char → Bool
  | [] => false
  | c :: cs => Decimal.isAsciiDigit c && cs.all isDigitOrLow

/-- The same without a zero in front. -/
def isWholeFromOne (cs : List Char) : Bool := isWhole cs && cs.head? != some '0'

/-- A count of sixtieths: one digit, or two of which the first is at most five. -/
def isSixtieth : List Char → Bool
  | [d] => Decimal.isAsciiDigit d
  | [c, d] => '0' ≤ c && c ≤ '5' && Decimal.isAsciiDigit d
  | _ => false

/-- Parts set off by colons, each after the first a count of sixtieths. -/
def isSexagesimal (first : List Char → Bool) (cs : List Char) : Bool :=
  match Text.splitOn ':' cs with
  | head :: next :: more => first head && (next :: more).all isSixtieth
  | _ => false

def isBinary (c : Char) : Bool := c == '0' || c == '1' || c == '_'

def isOctal (c : Char) : Bool := ('0' ≤ c && c ≤ '7') || c == '_'

def isHexadecimal (c : Char) : Bool := (hexDigit? c).isSome || c == '_'

def spellsInt (cs : List Char) : Bool :=
  let body := dropSign cs
  isWholeFromOne body || isSexagesimal isWholeFromOne body ||
    match body with
    | ['0'] => true
    | '0' :: 'b' :: rest => !rest.isEmpty && rest.all isBinary
    | '0' :: 'x' :: rest => !rest.isEmpty && rest.all isHexadecimal
    | '0' :: rest => rest.all isOctal
    | _ => false

/-- Nothing, or an exponent with its sign. -/
def isExponent : List Char → Bool
  | [] => true
  | e :: s :: d :: ds =>
      (e == 'e' || e == 'E') && (s == '+' || s == '-') && (d :: ds).all Decimal.isAsciiDigit
  | _ => false

def spellsFloat (cs : List Char) : Bool :=
  let body := dropSign cs
  let whole := body.takeWhile fun c => c != '.'
  match body.drop whole.length with
  | [] => false
  | _ :: rest =>
      let places := rest.takeWhile isDigitOrLow
      let exponent := rest.drop places.length
      if whole.isEmpty then
        ([".inf", ".Inf", ".INF"].any fun w => w.toList == body) ||
          ([".nan", ".NaN", ".NAN"].any fun w => w.toList == cs) ||
          (body == cs && isWhole places && isExponent exponent)
      else
        (isWhole whole && isExponent exponent) || (isSexagesimal isWhole whole && exponent.isEmpty)

def spellsNull (cs : List Char) : Bool :=
  ["~", "null", "Null", "NULL"].any fun w => w.toList == cs

def spellsBool (cs : List Char) : Bool :=
  ["yes", "Yes", "YES", "no", "No", "NO", "true", "True", "TRUE", "false", "False", "FALSE", "on",
    "On", "ON", "off", "Off", "OFF"].any fun w => w.toList == cs

/-- The tag that the spelling of a scalar shows. -/
def ofSpelling (cs : List Char) : Tag :=
  let word := withoutFeed cs
  if cs.isEmpty then null
  else if spellsBool word then bool
  else if spellsFloat word then float
  else if spellsInt word then int
  else if word == ['<', '<'] then merge
  else if spellsNull word then null
  else if Stamp.isPlain cs then timestamp
  else if word == ['='] then value
  else if word == ['!'] || word == ['&'] || word == ['*'] then other
  else str

end Tag
end AgentControl.Yaml
