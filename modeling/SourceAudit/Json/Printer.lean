/-
Module: SourceAudit.Json.Printer
Layer: Json
Purpose: The text of a JSON value, on one line or laid out with two spaces for each level. Only quotes,
  backslashes and control characters are escaped. What stands for no value is written as null.
Main exports: Json.compact, Json.pretty
-/
import SourceAudit.Decimal.Shortest
import SourceAudit.Json.Basic

namespace SourceAudit.Json

/-- The digit of a number below sixteen. -/
def hexDigit (n : Nat) : Char := if n < 10 then Char.ofNat (48 + n) else Char.ofNat (87 + n)

/-- A character as it is written between quotes. -/
def escapeChar (c : Char) : String :=
  match c with
  | '"' => "\\\""
  | '\\' => "\\\\"
  | '\n' => "\\n"
  | '\r' => "\\r"
  | '\t' => "\\t"
  | c =>
    if c.toNat = 8 then "\\b"
    else if c.toNat = 12 then "\\f"
    else if c.toNat < 32 then
      "\\u00" ++ String.ofList [hexDigit (c.toNat / 16), hexDigit (c.toNat % 16)]
    else String.ofList [c]

/-- Writes a string between quotes behind what is done. -/
def writeString (done s : String) : String :=
  (s.toList.foldl
    (fun done c =>
      if c.toNat < 32 || c = '"' || c = '\\' then done ++ escapeChar c else done.push c)
    (done.push '"')).push '"'

mutual

/-- Writes a value on one line behind what is done. -/
def writeCompact (done : String) : Json → String
  | .null => done ++ "null"
  | .unreadable => done ++ "null"
  | .bool b => done ++ if b then "true" else "false"
  | .int n => done ++ toString n
  | .float x => done ++ Decimal.jsonText x
  | .str s => writeString done s
  | .arr items => writeItems (done.push '[') items ++ "]"
  | .obj fields => writeFields (done ++ "\x7b") fields ++ "\x7d"

/-- Writes the items of an array, divided by commas. -/
def writeItems (done : String) : List Json → String
  | [] => done
  | [j] => writeCompact done j
  | j :: js => writeItems (writeCompact done j ++ ",") js

/-- Writes the fields of an object, divided by commas. -/
def writeFields (done : String) : List (String × Json) → String
  | [] => done
  | [(key, value)] => writeCompact (writeString done key ++ ":") value
  | (key, value) :: fields =>
    writeFields (writeCompact (writeString done key ++ ":") value ++ ",") fields

end

/-- The value on one line. -/
def compact (j : Json) : String := writeCompact "" j

/-- A line break and the indentation of a level. -/
def newline (level : Nat) : String := "\n" ++ String.ofList (List.replicate (2 * level) ' ')

mutual

/-- Writes a value over lines behind what is done, starting at a level. Empty arrays and objects stay
    on their line. -/
def writePretty (done : String) (level : Nat) : Json → String
  | .arr [] => done ++ "[]"
  | .arr items => prettyItems (done.push '[') (level + 1) items ++ newline level ++ "]"
  | .obj [] => done ++ "\x7b\x7d"
  | .obj fields => prettyFields (done ++ "\x7b") (level + 1) fields ++ newline level ++ "\x7d"
  | .null => done ++ "null"
  | .unreadable => done ++ "null"
  | .bool b => done ++ if b then "true" else "false"
  | .int n => done ++ toString n
  | .float x => done ++ Decimal.jsonText x
  | .str s => writeString done s

/-- Writes the items of an array, each on lines of its own. -/
def prettyItems (done : String) (level : Nat) : List Json → String
  | [] => done
  | [j] => writePretty (done ++ newline level) level j
  | j :: js => prettyItems (writePretty (done ++ newline level) level j ++ ",") level js

/-- Writes the fields of an object, each on lines of its own. -/
def prettyFields (done : String) (level : Nat) : List (String × Json) → String
  | [] => done
  | [(key, value)] => writePretty (writeString (done ++ newline level) key ++ ": ") level value
  | (key, value) :: fields =>
    prettyFields (writePretty (writeString (done ++ newline level) key ++ ": ") level value ++ ",")
      level fields

end

/-- The value laid out over lines. -/
def pretty (j : Json) : String := writePretty "" 0 j

end SourceAudit.Json
