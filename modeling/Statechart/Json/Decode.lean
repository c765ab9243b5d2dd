import Statechart.Json.Tree

/-!
# Reading records from JSON

A record is written as an object or as the list of its fields in order. In an object unknown members
are skipped, unread, and a field must not occur twice; in a list nothing may follow the last field.
-/

namespace Statechart.Json

/-- Reads a tree with a number of levels of arrays and objects to spare. -/
abbrev Decoder (α : Type) := Nat → Tree → Option α

/-- What a record's text holds for one field. -/
inductive Slot where
  | present (t : Tree)
  /-- An object without that member. -/
  | missing
  /-- A list that ends before the field. -/
  | cutOff

namespace Decode

def value : Decoder Value := Tree.toValue

def string : Decoder String
  | _, .string s => s
  | _, _ => none

def bool : Decoder Bool
  | _, .bool b => some b
  | _, _ => none

def nat (bits : Nat) : Decoder Nat
  | _, .number (some n) => n.nat? bits
  | _, _ => none

def nullable {α : Type} (d : Decoder α) : Decoder (Option α)
  | _, .null => some none
  | room, t => (d room t).map some

def list {α : Type} (d : Decoder α) : Decoder (List α)
  | room + 1, .array xs => xs.mapM (d room)
  | _, _ => none

/-- One of several names, as a string or as the only member of an object, with null. -/
def oneOf {α : Type} (name : String → Option α) : Decoder α
  | _, .string s => s.bind name
  | _ + 1, .object [(k, .null)] => k.bind name
  | _, _ => none

/-- The member of a name, if there is just one or none. -/
def member? (name : String) (members : List (Option String × Tree)) : Option Slot :=
  match members.filter fun m => m.1 == some name with
  | [] => some .missing
  | [m] => some (.present m.2)
  | _ => none

/-- The fields of a record in the order of their names, with the room left inside it. -/
def record (names : List String) : Nat → Tree → Option (Nat × List Slot)
  | room + 1, .object members =>
    if members.any fun m => m.1.isNone then none
    else (names.mapM fun n => member? n members).map (room, ·)
  | room + 1, .array items =>
    if names.length < items.length then none
    else some (room, items.map .present ++ List.replicate (names.length - items.length) .cutOff)
  | _, _ => none

def required {α : Type} (d : Decoder α) (room : Nat) : Slot → Option α
  | .present t => d room t
  | _ => none

/-- A field that an object may leave out, or give as null. -/
def optional {α : Type} (d : Decoder α) (room : Nat) : Slot → Option (Option α)
  | .present t => nullable d room t
  | .missing => some none
  | .cutOff => none

/-- A field that may be left out but not given as null. -/
def withDefault {α : Type} (a : α) (d : Decoder α) (room : Nat) : Slot → Option α
  | .present t => d room t
  | _ => some a

/-- Reads a whole text. -/
def text {α : Type} (d : Decoder α) (s : String) : Option α :=
  (Tree.parse s).bind (d Tree.maxDepth)

/-- Reads a value as if it were written out. -/
def ofValue {α : Type} (d : Decoder α) (v : Value) : Option α :=
  d Tree.maxDepth (Tree.ofValue v)

end Decode
end Statechart.Json
