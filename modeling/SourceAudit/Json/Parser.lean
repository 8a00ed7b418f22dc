/-
Module: SourceAudit.Json.Parser
Layer: Json
Purpose: Reading a JSON text strictly: no leading zeros, no control characters in strings, and nothing
  but blanks after the value. Whether a text is well formed and what it stands for are two questions:
  half of a surrogate pair and a number beyond all doubles are well formed, and read as a value that
  no record accepts. The containers around the current place are held in a list, so that a text may
  nest them to any depth. A whole number that fits into 64 bits stays a whole number; any other
  number is a double.
Main exports: Json.parseLenient?, Json.parse?
-/
import SourceAudit.Decimal.Reading
import SourceAudit.Json.Basic

namespace SourceAudit.Json

/-- The text after the blanks that JSON allows between tokens. -/
def skipBlanks (cs : List Char) : List Char :=
  cs.dropWhile fun c => c == ' ' || c == '\t' || c == '\n' || c == '\r'

/-- The value of a hexadecimal digit. -/
def hexValue? (c : Char) : Option Nat :=
  let n := c.toNat
  if 48 ≤ n && n ≤ 57 then some (n - 48)
  else if 97 ≤ n && n ≤ 102 then some (n - 87)
  else if 65 ≤ n && n ≤ 70 then some (n - 55)
  else none

/-- The code unit written as four hexadecimal digits. -/
def codeUnit? (a b c d : Char) : Option Nat := do
  return (((← hexValue? a) * 16 + (← hexValue? b)) * 16 + (← hexValue? c)) * 16 + (← hexValue? d)

/-- The code unit that an escape of one letter stands for. -/
def letterEscape? : Char → Option Nat
  | '"' => some 34
  | '\\' => some 92
  | '/' => some 47
  | 'b' => some 8
  | 'f' => some 12
  | 'n' => some 10
  | 'r' => some 13
  | 't' => some 9
  | _ => none

/-- The units of a string after its opening quote and the text after it. A unit is a character, or a
    code unit that an escape gives; `done` holds those read before, backwards. -/
def stringUnits? (done : List Nat) : List Char → Option (List Nat × List Char)
  | [] => none
  | '"' :: cs => some (done.reverse, cs)
  | '\\' :: 'u' :: a :: b :: c :: d :: cs =>
    match codeUnit? a b c d with
    | some n => stringUnits? (n :: done) cs
    | none => none
  | '\\' :: x :: cs =>
    match letterEscape? x with
    | some n => stringUnits? (n :: done) cs
    | none => none
  | c :: cs => if c.toNat < 32 || c == '\\' then none else stringUnits? (c.toNat :: done) cs

/-- Whether a unit is the first half of a surrogate pair. -/
def isHighHalf (n : Nat) : Bool := 0xD800 ≤ n && n ≤ 0xDBFF

/-- Whether a unit is the second half of a surrogate pair. -/
def isLowHalf (n : Nat) : Bool := 0xDC00 ≤ n && n ≤ 0xDFFF

/-- The text that units stand for, unless half of a surrogate pair stands alone; `done` holds the
    characters before, backwards. -/
def textOfUnits? (done : List Char) : List Nat → Option String
  | [] => some (String.ofList done.reverse)
  | high :: rest =>
    if isLowHalf high then none
    else if isHighHalf high then
      match rest with
      | [] => none
      | low :: rest =>
        if isLowHalf low then
          textOfUnits? (Char.ofNat (0x10000 + (high - 0xD800) * 0x400 + (low - 0xDC00)) :: done) rest
        else none
    else textOfUnits? (Char.ofNat high :: done) rest

/-- The text of a string after its opening quote, if it stands for one, and what comes after it. -/
def string? (cs : List Char) : Option (Option String × List Char) :=
  (stringUnits? [] cs).map fun (units, rest) => (textOfUnits? [] units, rest)

/-- The value that a part of a text stands for, if any. -/
def ofRead {α : Type} (value : α → Json) (read : Option α) : Json := read.elim .unreadable value

/-- The decimal digits at the start of a text, and the text after them. -/
def digits (cs : List Char) : List Nat × List Char :=
  let (ds, rest) := cs.span fun c => 48 ≤ c.toNat && c.toNat ≤ 57
  (ds.map fun c => c.toNat - 48, rest)

/-- The number that digits stand for. -/
def natOfDigits (ds : List Nat) : Nat := ds.foldl (fun n d => n * 10 + d) 0

/-- The number that digits stand for, or `10 ^ 20` when there are more than twenty of them, zeros in
    front not counted. No text is long enough to tell such an exponent from a greater one. -/
def exponentOfDigits (ds : List Nat) : Nat :=
  let ds := ds.dropWhile (· == 0)
  if ds.length ≤ 20 then natOfDigits ds else 100000000000000000000

/-- A whole number without point and exponent: kept whole if it fits into 64 bits. Minus zero is a
    double, and so is every number of more than twenty digits. -/
def wholeNumber (negative : Bool) (ds : List Nat) : Json :=
  let double := ofRead .float (Numeral.mk negative ds [] 0).toFloat?
  if 20 < ds.length then double
  else
    let n := natOfDigits ds
    if negative then
      if 0 < n && n ≤ 9223372036854775808 then .int (-Int.ofNat n) else double
    else if n < 18446744073709551616 then .int (Int.ofNat n)
    else double

/-- The exponent at the start of a text, if there is one: its value if it is there, and the text
    after it. -/
def exponent? : List Char → Option (Option Int × List Char)
  | c :: cs =>
    if c = 'e' || c = 'E' then
      let (negative, cs) :=
        match cs with
        | '+' :: rest => (false, rest)
        | '-' :: rest => (true, rest)
        | rest => (false, rest)
      match digits cs with
      | ([], _) => none
      | (ds, rest) =>
        let n := Int.ofNat (exponentOfDigits ds)
        some (some (if negative then -n else n), rest)
    else some (none, c :: cs)
  | [] => some (none, [])

/-- The number at the start of a text. -/
def number? (cs : List Char) : Option (Json × List Char) :=
  let (negative, cs) :=
    match cs with
    | '-' :: rest => (true, rest)
    | rest => (false, rest)
  let double (whole fraction : List Nat) (exponent : Int) : Json :=
    ofRead .float (Numeral.mk negative whole fraction exponent).toFloat?
  match digits cs with
  | ([], _) => none
  | (0 :: _ :: _, _) => none
  | (whole, '.' :: rest) =>
    match digits rest with
    | ([], _) => none
    | (fraction, rest) => do
      let (exponent, rest) ← exponent? rest
      return (double whole fraction (exponent.getD 0), rest)
  | (whole, rest) => do
    match ← exponent? rest with
    | (some exponent, rest) => return (double whole [] exponent, rest)
    | (none, rest) => return (wholeNumber negative whole, rest)

/-- An array or object part way through, with what has been read of it, backwards. -/
inductive Container where
  | items (done : List Json)
  /-- An object, and the key whose value comes next. -/
  | fields (done : List (Option String × Json)) (key : Option String)

/-- The object with these fields, given backwards, if all its keys are readable. -/
def closeObject (fields : List (Option String × Json)) : Json :=
  ofRead .obj (fields.reverse.mapM fun (key, value) => key.map fun key => (key, value))

/-- A place in a text that is being read. -/
inductive Stage where
  /-- A value comes next; the containers around it are given from the inside out. -/
  | want (outer : List Container) (rest : List Char)
  /-- A value has been read. -/
  | found (outer : List Container) (value : Json) (rest : List Char)

/-- A key at the start of a text, and the text after its colon. -/
def key? (cs : List Char) : Option (Option String × List Char) :=
  match skipBlanks cs with
  | '"' :: cs => do
    let (key, cs) ← string? cs
    match skipBlanks cs with
    | ':' :: cs => some (key, cs)
    | _ => none
  | _ => none

namespace Stage

/-- After the bracket that opens an array. -/
def openArray (outer : List Container) (rest : List Char) : Stage :=
  match skipBlanks rest with
  | ']' :: rest => .found outer (.arr []) rest
  | rest => .want (.items [] :: outer) rest

/-- After the brace that opens an object. -/
def openObject? (outer : List Container) (rest : List Char) : Option Stage :=
  match skipBlanks rest with
  | '}' :: rest => some (.found outer (.obj []) rest)
  | rest => (key? rest).map fun (key, rest) => .want (.fields [] key :: outer) rest

/-- Where a value is wanted: what is read next. -/
def begin? (mayOpen : Bool) (outer : List Container) (cs : List Char) : Option Stage :=
  match skipBlanks cs with
  | 'n' :: 'u' :: 'l' :: 'l' :: rest => some (.found outer .null rest)
  | 't' :: 'r' :: 'u' :: 'e' :: rest => some (.found outer (.bool true) rest)
  | 'f' :: 'a' :: 'l' :: 's' :: 'e' :: rest => some (.found outer (.bool false) rest)
  | '"' :: rest => (string? rest).map fun (s, rest) => .found outer (ofRead .str s) rest
  | '[' :: rest => if mayOpen then some (openArray outer rest) else none
  | '{' :: rest => if mayOpen then openObject? outer rest else none
  | rest => (number? rest).map fun (n, rest) => .found outer n rest

/-- After a value in a container: what is read next. -/
def resume? (outer : List Container) (value : Json) (cs : List Char) : Container → Option Stage
  | .items done =>
    match skipBlanks cs with
    | ',' :: rest => some (.want (.items (value :: done) :: outer) rest)
    | ']' :: rest => some (.found outer (.arr (value :: done).reverse) rest)
    | _ => none
  | .fields done key =>
    let done := (key, value) :: done
    match skipBlanks cs with
    | ',' :: rest => (key? rest).map fun (key, rest) => .want (.fields done key :: outer) rest
    | '}' :: rest => some (.found outer (closeObject done) rest)
    | _ => none

/-- One step of reading, in which at most `depth` containers may be open if that is given. It takes
    at least one character. -/
def step? (depth : Option Nat) : Stage → Option Stage
  | .want outer rest => begin? (depth.all fun n => outer.length < n) outer rest
  | .found [] _ _ => none
  | .found (inner :: outer) value rest => resume? outer value rest inner

/-- The value once no container is left open and nothing but blanks follows. -/
def finish? (depth : Option Nat) : (fuel : Nat) → Stage → Option Json
  | _, .found [] value rest => if (skipBlanks rest).isEmpty then some value else none
  | 0, _ => none
  | fuel + 1, stage =>
    match stage.step? depth with
    | some next => finish? depth fuel next
    | none => none

end Stage

/-- The value of a well-formed JSON text; parts of it may be unreadable. With `depth`, at most that
    many arrays and objects may lie inside one another. -/
def parseLenient? (depth : Option Nat) (s : String) : Option Json :=
  let cs := s.toList
  Stage.finish? depth (cs.length + 1) (.want [] cs)

/-- The value of a JSON text in which everything is readable, with at most 127 arrays and objects
    inside one another. -/
def parse? (s : String) : Option Json := (parseLenient? (some 127) s).filter isReadable

end SourceAudit.Json
