import ThresholdSigning.Bytes

namespace ThresholdSigning

/-- A value of a JSON text, kept as far as records need it. -/
inductive Json
  | null
  | bool (b : Bool)
  /-- A natural number in plain decimal digits; `none` for every other number. -/
  | number (natural : Option Nat)
  /-- A text; `none` where an escape stands for half of a character. -/
  | string (text : Option String)
  | array (items : List Json)
  /-- Members in the order of the text; a name may occur more than once. -/
  | object (members : List (Option String × Json))

namespace Json

def ofText (s : String) : Json := .string (some s)

def ofWord (n : UInt64) : Json := .number (some n.toNat)

/-- An absent value is written as null. -/
def ofOption {α : Type} (write : α → Json) : Option α → Json
  | none => .null
  | some x => write x

def text? : Json → Option String
  | .string text => text
  | _ => none

def flag? : Json → Option Bool
  | .bool b => some b
  | _ => none

/-- A natural number of 64 bits. -/
def word? : Json → Option UInt64
  | .number (some n) => if n < wordLimit then some (UInt64.ofNat n) else none
  | _ => none

/-- Null is read as an absent value. -/
def option? {α : Type} (read : Json → Option α) : Json → Option (Option α)
  | .null => some none
  | j => (read j).map some

/-- The value of the member with a given name, if there is one; none of it all if there are more. -/
def member? (members : List (Option String × Json)) (name : String) : Option (Option Json) :=
  match members.filter (·.1 = some name) with
  | [] => some none
  | [found] => some (some found.2)
  | _ => none

/-- The values of a record with the given field names, in their order: from an object, in which
other members are passed over, or from an array of values without names. -/
def record? (names : List String) : Json → Option (List (Option Json))
  | .object members =>
    if members.all (·.1.isSome) then names.mapM (member? members) else none
  | .array items =>
    if items.length ≤ names.length then
      some (items.map some ++ List.replicate (names.length - items.length) none)
    else none
  | _ => none

end Json

end ThresholdSigning
