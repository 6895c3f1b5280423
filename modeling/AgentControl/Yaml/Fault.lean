import AgentControl.Calendar
import AgentControl.Value.Shown

/-! # What may be wrong with a YAML text

A text that breaks the grammar, or that asks for what there is not, is malformed. A scalar that does
not fit its tag has a cause of its own, and so have an escape beyond the last character and a text
that is looked for without end.
-/

namespace AgentControl.Yaml

inductive Fault where
  | malformed
  | noCharacter (code : Nat)
  | notInteger (base : Nat) (text : String)
  | longInteger (digits : Nat)
  | emptyNumber
  | notReal (text : String)
  | realRange
  | notBool (text : String)
  | notTimestamp
  | structuredTimestamp
  | endless
  | calendar (fault : Calendar.Fault)
  | offsetRange (seconds : Int)
deriving DecidableEq, Repr

/-- The kinds of fault that a caller may tell apart. -/
inductive Fault.Kind where
  | value
  | key
  | index
  | attribute
  | type
  | overflow
  | recursion
deriving DecidableEq, Repr

namespace Fault

def kind : Fault → Kind
  | malformed | notInteger _ _ | longInteger _ | notReal _ | calendar _ | offsetRange _ => .value
  | noCharacter code => if code < 0x80000000 then .value else .overflow
  | emptyNumber => .index
  | realRange => .overflow
  | notBool _ => .key
  | notTimestamp => .attribute
  | structuredTimestamp => .type
  | endless => .recursion

def message : Fault → String
  | malformed => "<yaml error>"
  | noCharacter code =>
      if code < 0x80000000 then "chr() arg not in range(0x110000)"
      else "Python int too large to convert to C int"
  | notInteger base text =>
      "invalid literal for int() with base " ++ Decimal.ofInt base ++ ": " ++
        String.ofList ((quoted text).toList.take 200)
  | longInteger digits =>
      "Exceeds the limit (" ++ Decimal.ofInt Decimal.maxDigits ++
        " digits) for integer string conversion: value has " ++ Decimal.ofInt digits ++
        " digits; use sys.set_int_max_str_digits() to increase the limit"
  | emptyNumber => "string index out of range"
  | notReal text => "could not convert string to float: " ++ quoted text
  | realRange => "int too large to convert to float"
  | notBool text => quoted text
  | notTimestamp => "'NoneType' object has no attribute 'groupdict'"
  | structuredTimestamp => "expected string or bytes-like object, got 'list'"
  | endless => "maximum recursion depth exceeded"
  | calendar fault => fault.message
  | offsetRange seconds =>
      "offset must be a timedelta strictly between -timedelta(hours=24) and " ++
        "timedelta(hours=24), not " ++ spanText seconds ++ "."

end Fault
end AgentControl.Yaml
