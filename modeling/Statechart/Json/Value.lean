import Statechart.Json.Number

/-!
# JSON values

An object is a list of named values. One that was read lists each name once, in the order of the
names' code points; one that a record writes keeps the record's order.
-/

namespace Statechart.Json

inductive Value where
  | null
  | bool (b : Bool)
  | number (n : Number)
  | string (s : String)
  | array (items : List Value)
  | object (fields : List (String × Value))
  deriving Inhabited

/-- Named values in the order of their names. -/
abbrev Fields := List (String × Value)

namespace Fields

/-- Puts a value under a name, in place of the one already there. -/
def insert (name : String) (v : Value) : Fields → Fields
  | [] => [(name, v)]
  | (k, w) :: rest =>
    if name = k then (k, v) :: rest
    else if name < k then (name, v) :: (k, w) :: rest
    else (k, w) :: insert name v rest

def get? (fields : Fields) (name : String) : Option Value :=
  fields.lookup name

def ofList (pairs : List (String × Value)) : Fields :=
  pairs.foldl (fun fs p => fs.insert p.1 p.2) []

end Fields

namespace Value

mutual

def eq : Value → Value → Bool
  | .null, .null => true
  | .bool a, .bool b => a == b
  | .number a, .number b => a == b
  | .string a, .string b => a == b
  | .array a, .array b => eqItems a b
  | .object a, .object b => eqFields a b
  | _, _ => false

def eqItems : List Value → List Value → Bool
  | [], [] => true
  | a :: as, b :: bs => eq a b && eqItems as bs
  | _, _ => false

def eqFields : List (String × Value) → List (String × Value) → Bool
  | [], [] => true
  | (k, a) :: as, (l, b) :: bs => k == l && eq a b && eqFields as bs
  | _, _ => false

end

instance : BEq Value := ⟨eq⟩

def int (n : Int) : Value := .number (.int n)

def nat (n : Nat) : Value := .number (.int n)

def ofOption {α : Type} (f : α → Value) : Option α → Value
  | none => .null
  | some a => f a

def strings (texts : List String) : Value := .array (texts.map .string)

def int64? : Value → Option Int
  | .number n => n.int64?
  | _ => none

end Value
end Statechart.Json
