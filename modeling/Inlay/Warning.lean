import Inlay.Text.Quoted

/-!
# Warnings on a terminal

The line in which a warning is shown together with the place it comes from, and the switch that
turns such lines on.
-/

namespace Inlay.Warning

/-- A warning as one line. -/
def line (message file : String) (number : Nat) : String :=
  "W: " ++ message ++ " at " ++ Text.quoted file ++ " line " ++ toString number ++ "\n"

/-- The spellings that turn a switch off; everything else turns it on. -/
def offSpellings : List String :=
  ["0", "", "off", "false", "no"]

/-- Whether the value of a switch means on. -/
def isOn (value : String) : Bool :=
  !offSpellings.contains value

/-- Whether a variable that may be unset is switched on. -/
def isSwitchedOn : Option String → Bool
  | some value => isOn value
  | none => false

end Inlay.Warning
