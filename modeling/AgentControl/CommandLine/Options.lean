import AgentControl.Value.Shown

/-! # Options

The words of a command line, taken apart into options with their values and the other words. A value
may be joined to its option or follow it; short options without a value may be joined to each other.
-/

namespace AgentControl.CommandLine

/-- An option by its long and its short name, if it has one. -/
structure OptionSpec where
  long : String
  short : Option Char
  takesValue : Bool
deriving DecidableEq, Repr

/-- Which options a command has, and whether they may stand behind other words. -/
structure Grammar where
  options : List OptionSpec
  interspersed : Bool

/-- Why the words of a command line mean nothing. -/
inductive Misuse where
  | noSuchOption (name : String)
  | needsValue (name : String)
  | takesNoValue (name : String)
  | missingArgument (name : String)
  | extraArguments (words : List String)
  | noSuchCommand (name : String)
  | missingCommand
  | badPath (param kind path problem : String)
deriving DecidableEq, Repr

namespace Misuse

def message : Misuse → String
  | noSuchOption name => "No such option " ++ quoted name ++ "."
  | needsValue name => "Option " ++ quoted name ++ " requires an argument."
  | takesNoValue name => "Option " ++ quoted name ++ " does not take a value."
  | missingArgument name => "Missing argument " ++ quoted name ++ "."
  | extraArguments words =>
      "Got unexpected extra argument" ++ (if words.length = 1 then "" else "s") ++ " (" ++
        Text.join " " words ++ ")"
  | noSuchCommand name => "No such command " ++ quoted name ++ "."
  | missingCommand => "Missing command."
  | badPath param kind path problem =>
      "Invalid value for " ++ quoted param ++ ": " ++ kind ++ " " ++ quoted path ++ " " ++
        problem ++ "."

/-- Whether the message stands alone, without a word on how the command is used. -/
def standsAlone : Misuse → Bool
  | needsValue _ | takesNoValue _ => true
  | _ => false

end Misuse

/-- An option as it was given, by its long name. -/
structure Given where
  name : String
  value : String
deriving DecidableEq, Repr

/-- The options in the order they were given, and the other words. -/
structure Parsed where
  given : List Given
  words : List String

namespace Grammar

def long? (s : Grammar) (name : String) : Option OptionSpec :=
  s.options.find? fun o => o.long = name

def short? (s : Grammar) (c : Char) : Option OptionSpec := s.options.find? fun o => o.short = some c

/-- What precedes the first equals sign, and what follows it if there is one. -/
def splitValue (cs : List Char) : List Char × Option (List Char) :=
  let name := cs.takeWhile (· != '=')
  match cs.drop name.length with
  | [] => (name, none)
  | _ :: value => (name, some value)

/-- Short options joined to each other, and how many of the words behind them they take. -/
def shortRun (s : Grammar) (next : Option String) : List Char → Except Misuse (List Given × Nat)
  | [] => .ok ([], 0)
  | c :: cs =>
      let name := String.ofList ['-', c]
      match s.short? c with
      | none => .error (.noSuchOption name)
      | some o =>
          if o.takesValue then
            match cs, next with
            | [], none => .error (.needsValue name)
            | [], some value => .ok ([⟨o.long, value⟩], 1)
            | cs, _ => .ok ([⟨o.long, String.ofList cs⟩], 0)
          else (shortRun s next cs).map fun (gs, n) => (⟨o.long, ""⟩ :: gs, n)

/-- One word that starts with a dash, and how many of the words behind it it takes. -/
def optionWord (s : Grammar) (word : String) (next : Option String) :
    Except Misuse (List Given × Nat) :=
  let (name, joined) := splitValue word.toList
  let name := String.ofList name
  match s.long? name with
  | some o =>
      if o.takesValue then
        match joined, next with
        | some value, _ => .ok ([⟨o.long, String.ofList value⟩], 0)
        | none, some value => .ok ([⟨o.long, value⟩], 1)
        | none, none => .error (.needsValue name)
      else if joined.isSome then .error (.takesNoValue name)
      else .ok ([⟨o.long, ""⟩], 0)
  | none =>
      if word.toList.take 2 == ['-', '-'] then .error (.noSuchOption name)
      else s.shortRun next word.toList.tail

/-- Takes a command line apart. Behind two dashes there are no options, and where options may not
stand behind other words neither behind the first of these. -/
def parseFrom (s : Grammar) : (fuel : Nat) → List String → Except Misuse Parsed
  | _, [] => .ok ⟨[], []⟩
  | 0, words => .ok ⟨[], words⟩
  | fuel + 1, word :: rest =>
      if word = "--" then .ok ⟨[], rest⟩
      else if word.toList.head? = some '-' ∧ 1 < word.length then do
        let (gs, n) ← s.optionWord word rest.head?
        let p ← parseFrom s fuel (rest.drop n)
        return ⟨gs ++ p.given, p.words⟩
      else if s.interspersed then do
        let p ← parseFrom s fuel rest
        return ⟨p.given, word :: p.words⟩
      else .ok ⟨[], word :: rest⟩

def parse (s : Grammar) (words : List String) : Except Misuse Parsed :=
  s.parseFrom words.length words

end Grammar

namespace Parsed

/-- The last value that an option was given. -/
def last? (p : Parsed) (name : String) : Option String :=
  ((p.given.filter fun g => g.name = name).getLast?).map (·.value)

/-- All values that an option was given. -/
def all (p : Parsed) (name : String) : List String :=
  (p.given.filter fun g => g.name = name).map (·.value)

def has (p : Parsed) (name : String) : Bool := p.given.any fun g => g.name = name

end Parsed
end AgentControl.CommandLine
