/-
Module: SourceAudit.Json.Codec
Layer: Json
Purpose: How values are written as JSON and read back. A record is written as an object and read from
  an object or from an array of its fields in order. Fields that a record does not have are passed
  over; a field of the record that is written twice is refused. An optional field is left out when
  it is absent, and null is read as absent.
Main exports: Encode, Decode, Json.slots?, need?, needOr?, want?, optionalField, NamedValues
-/
import SourceAudit.Json.Basic

namespace SourceAudit

/-- Values that can be written as JSON. -/
class Encode (α : Type) where
  encode : α → Json

/-- Values that can be read from JSON. -/
class Decode (α : Type) where
  decode? : Json → Option α

export Encode (encode)
export Decode (decode?)

instance : Encode String := ⟨.str⟩

instance : Decode String where
  decode?
    | .str s => some s
    | _ => none

instance : Encode Bool := ⟨.bool⟩

instance : Decode Bool where
  decode?
    | .bool b => some b
    | _ => none

instance : Encode Nat := ⟨fun n => .int (Int.ofNat n)⟩

/-- A count is a whole number that is not negative. -/
instance : Decode Nat where
  decode?
    | .int (.ofNat n) => some n
    | _ => none

instance : Encode Int := ⟨.int⟩

/-- A difference is a whole number of at most 64 bits with its sign. -/
instance : Decode Int where
  decode?
    | .int n => if -9223372036854775808 ≤ n ∧ n < 9223372036854775808 then some n else none
    | _ => none

instance : Encode UInt8 := ⟨fun n => .int (Int.ofNat n.toNat)⟩

/-- A score is a whole number from 0 to 255. -/
instance : Decode UInt8 where
  decode?
    | .int (.ofNat n) => if n < 256 then some (UInt8.ofNat n) else none
    | _ => none

instance : Encode Float := ⟨.float⟩

/-- A measurement may also be written as a whole number. -/
instance : Decode Float where
  decode?
    | .float x => some x
    | .int (.ofNat n) => some (UInt64.ofNat n).toFloat
    | .int (.negSucc n) => some (-(UInt64.ofNat (n + 1)).toFloat)
    | _ => none

instance {α : Type} [Encode α] : Encode (List α) := ⟨fun xs => .arr (xs.map encode)⟩

instance {α : Type} [Decode α] : Decode (List α) where
  decode?
    | .arr items => items.mapM decode?
    | _ => none

/-- The values of a record's fields in their order, absent ones as `none`. -/
def Json.slots? (keys : List String) : Json → Option (List (Option Json))
  | .obj fields =>
    keys.mapM fun key =>
      match fields.filter (·.1 == key) with
      | [] => some none
      | [(_, value)] => some (some value)
      | _ => none
  | .arr items =>
    if items.length ≤ keys.length then
      some (items.map some ++ List.replicate (keys.length - items.length) none)
    else none
  | _ => none

/-- A field that has to be there. -/
def need? {α : Type} [Decode α] : Option Json → Option α
  | some j => decode? j
  | none => none

/-- A field with a value of its own when it is absent. -/
def needOr? {α : Type} [Decode α] (absent : α) : Option Json → Option α
  | some j => decode? j
  | none => some absent

/-- A field that may be absent or null. -/
def want? {α : Type} [Decode α] : Option Json → Option (Option α)
  | none => some none
  | some .null => some none
  | some j => (decode? j).map some

/-- A field that is left out when it is absent. -/
def optionalField {α : Type} [Encode α] (key : String) : Option α → List (String × Json)
  | some x => [(key, encode x)]
  | none => []

/-- A closed set of values, each with the name it is written by. -/
class NamedValues (α : Type) where
  nameOf : α → String
  values : List α

/-- The value with a name. -/
def valueNamed? {α : Type} [NamedValues α] (name : String) : Option α :=
  NamedValues.values.find? fun x => NamedValues.nameOf x == name

instance {α : Type} [NamedValues α] : Encode α := ⟨fun x => .str (NamedValues.nameOf x)⟩

/-- A named value is written as its name, or as an object with its name as the only key and null
    under it. -/
instance {α : Type} [NamedValues α] : Decode α where
  decode?
    | .str s => valueNamed? s
    | .obj [(key, .null)] => valueNamed? key
    | _ => none

end SourceAudit
