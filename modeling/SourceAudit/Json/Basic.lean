/-
Module: SourceAudit.Json.Basic
Layer: Json
Purpose: JSON values. Whole numbers and other numbers are kept apart, because a count must be written
  as a whole number; an object keeps its fields in order and as often as they were written, because a
  field written twice is refused where a record is expected.
Main exports: Json, Json.field?, Json.isReadable, Json.lastWins
-/

namespace SourceAudit

/-- A JSON value. -/
inductive Json where
  | null
  | bool (b : Bool)
  /-- A number written without point and exponent. -/
  | int (n : Int)
  | float (x : Float)
  | str (s : String)
  | arr (items : List Json)
  | obj (fields : List (String × Json))
  /-- What is written correctly and still stands for no value: a string with half of a surrogate
      pair, a number beyond all doubles, or an object with such a string as a key. Where a value is
      only passed over it does no harm. -/
  | unreadable

namespace Json

mutual

/-- Whether everything in it stands for a value. -/
def isReadable : Json → Bool
  | .unreadable => false
  | .arr items => areReadable items
  | .obj fields => fieldsAreReadable fields
  | _ => true

/-- The same for the items of an array. -/
def areReadable : List Json → Bool
  | [] => true
  | j :: js => isReadable j && areReadable js

/-- The same for the fields of an object. -/
def fieldsAreReadable : List (String × Json) → Bool
  | [] => true
  | (_, value) :: fields => isReadable value && fieldsAreReadable fields

end

/-- The value of a field that is there and not null; of several with this name, the last. -/
def field? (key : String) : Json → Option Json
  | .obj fields =>
    match fields.reverse.lookup key with
    | some .null => none
    | found => found
  | _ => none

mutual

/-- The value in which every object keeps, of fields with the same name, only the last. -/
def lastWins : Json → Json
  | .arr items => .arr (lastWinsItems items)
  | .obj fields => .obj (lastWinsFields fields)
  | j => j

/-- The same for the items of an array. -/
def lastWinsItems : List Json → List Json
  | [] => []
  | j :: js => lastWins j :: lastWinsItems js

/-- The same for the fields of an object. -/
def lastWinsFields : List (String × Json) → List (String × Json)
  | [] => []
  | (key, value) :: fields =>
    let rest := lastWinsFields fields
    if rest.any (·.1 == key) then rest else (key, lastWins value) :: rest

end

end Json

end SourceAudit
