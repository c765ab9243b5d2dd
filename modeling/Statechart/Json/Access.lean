import Statechart.Json.Value

/-!
# Looking into JSON values

A document that people write is read member by member; one that is missing reads as null.
-/

namespace Statechart.Json.Value

/-- The member of an object, be it null. -/
def member? (v : Value) (name : String) : Option Value :=
  match v with
  | .object fields => Fields.get? fields name
  | _ => none

def member (v : Value) (name : String) : Value := (v.member? name).getD .null

/-- A member that is there and not null. -/
def given? (v : Value) (name : String) : Option Value :=
  match v.member name with
  | .null => none
  | w => some w

def text? : Value → Option String
  | .string s => some s
  | _ => none

/-- The items of an array; null has none. -/
def items? : Value → Option (List Value)
  | .null => some []
  | .array xs => some xs
  | _ => none

/-- An unsigned integer of a number of bits. -/
def nat? (bits : Nat) : Value → Option Nat
  | .number n => n.nat? bits
  | _ => none

/-- The text of a member. -/
def textAt? (v : Value) (name : String) : Option String := (v.member name).text?

/-- The items of a member. -/
def itemsAt? (v : Value) (name : String) : Option (List Value) := (v.member name).items?

/-- Whether a member is true. -/
def flagAt (v : Value) (name : String) : Bool :=
  match v.member name with
  | .bool b => b
  | _ => false

/-- An object with its members in the order of their names. -/
def record (fields : List (String × Value)) : Value := .object (Fields.ofList fields)

def list {α : Type} (f : α → Value) (xs : List α) : Value := .array (xs.map f)

end Statechart.Json.Value
