import Longbox.Json.Number

/-! Reading typed values from JSON.

A record is an object with its fields in any order, or an array of its first fields in their order.
Members of other names are passed over, a field given twice is refused, and whether a field may be
missing is up to the record. -/
namespace Longbox.Json

def text? : Json → Option String
  | .string pieces => (chars? pieces).map String.ofList
  | _ => none

def bool? : Json → Option Bool
  | .bool b => some b
  | _ => none

def word? : Json → Option UInt64
  | .number n => n.word?
  | _ => none

def single? : Json → Option Single
  | .number n => n.single?
  | _ => none

def list? {α : Type} (read? : Json → Option α) : Json → Option (List α)
  | .array elements => elements.mapM read?
  | _ => none

/-- Null stands for nothing. -/
def nullable? {α : Type} (read? : Json → Option α) : Json → Option (Option α)
  | .null => some none
  | v => (read? v).map some

/-- The members of an object by the texts of their keys. -/
def keyed? (members : List (List Piece × Json)) : Option (List (String × Json)) :=
  members.mapM fun (key, v) => (chars? key).map fun cs => (String.ofList cs, v)

/-- The value of each field, in the order of the names; nothing in the place of a missing one. -/
def pick? (names : List String) (members : List (String × Json)) : Option (List (Option Json)) :=
  names.mapM fun name =>
    match members.filter fun m => m.1 == name with
    | [] => some none
    | [m] => some (some m.2)
    | _ => none

/-- The first fields from an array, the rest missing. -/
def pad? (names : List String) (elements : List Json) : Option (List (Option Json)) :=
  if elements.length ≤ names.length then
    some (elements.map some ++ List.replicate (names.length - elements.length) none)
  else none

def fields? (names : List String) : Json → Option (List (Option Json))
  | .array elements => pad? names elements
  | .object members => (keyed? members).bind (pick? names)
  | _ => none

/-- A field that must be there. -/
def required? {α : Type} (read? : Json → Option α) (field : Option Json) : Option α :=
  field.bind read?

/-- A field with a value for the case that it is missing. -/
def optional? {α : Type} (read? : Json → Option α) (default : α) : Option Json → Option α
  | some v => read? v
  | none => some default

/-- One of several words: the word itself, or an object with the word as its one key and what
`isUnit` accepts as its value. -/
def named? {α : Type} (ofName? : String → Option α) (isUnit : Json → Bool) : Json → Option α
  | .string pieces => (text? (.string pieces)).bind ofName?
  | .object [(key, v)] => if isUnit v then (text? (.string key)).bind ofName? else none
  | _ => none

def isNull : Json → Bool
  | .null => true
  | _ => false

def choice? {α : Type} (ofName? : String → Option α) : Json → Option α :=
  named? ofName? isNull

def ofNat (n : Nat) : Json :=
  .number (Numeral.ofNat n)

def ofWord (n : UInt64) : Json :=
  ofNat n.toNat

def ofList {α : Type} (write : α → Json) (values : List α) : Json :=
  .array (values.map write)

def ofOption {α : Type} (write : α → Json) : Option α → Json
  | some v => write v
  | none => .null

end Longbox.Json
