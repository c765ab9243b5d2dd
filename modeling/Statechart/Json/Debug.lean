import Statechart.Json.Printer
import Statechart.Text.Debug

/-!
# JSON values for a developer's eye
-/

namespace Statechart.Json.Value

mutual

/-- A value with the name of its kind. -/
def debug : Value → String
  | .null => "Null"
  | .bool b => Text.debugCall "Bool" (if b then "true" else "false")
  | .number n => Text.debugCall "Number" n.render
  | .string s => Text.debugCall "String" (Text.debugString s)
  | .array xs => "Array " ++ Text.debugList (debugItems xs)
  | .object fs => "Object \x7b" ++ String.intercalate ", " (debugFields fs) ++ "\x7d"

def debugItems : List Value → List String
  | [] => []
  | v :: vs => debug v :: debugItems vs

def debugFields : List (String × Value) → List String
  | [] => []
  | (k, v) :: fs => (Text.debugString k ++ ": " ++ debug v) :: debugFields fs

end

end Statechart.Json.Value
