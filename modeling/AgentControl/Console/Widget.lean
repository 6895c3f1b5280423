import AgentControl.Value.Basic

/-! # Widgets

The kinds of widget that may be registered: those of the catalog, which settings name, and whatever
else a program brings along.
-/

namespace AgentControl

inductive WidgetKind where
  | button
  | input
  | label
  | select
  | switch
  /-- A class of its own, told apart from others of the same name by a number. -/
  | own (className : String) (serial : Nat)
deriving DecidableEq, Repr

namespace WidgetKind

def className : WidgetKind → String
  | button => "Button"
  | input => "Input"
  | label => "Label"
  | select => "Select"
  | switch => "Switch"
  | own className _ => className

/-- The catalog of reusable widgets. -/
def catalog : List (String × WidgetKind) :=
  [("Button", button), ("InputText", input), ("Label", label), ("Select", select),
    ("Switch", switch)]

def named? (name : String) : Option WidgetKind := catalog.lookup name

end WidgetKind

/-- What a widget is made with, by position and by name. -/
structure WidgetArguments where
  positional : List Value := []
  named : Value.Entries := []

/-- A widget that has been made. -/
structure Widget where
  kind : WidgetKind
  arguments : WidgetArguments

end AgentControl
