/-
Module: SourceAudit.Source.Basic
Layer: Domain
Purpose: Source files and what their names say: the base name, the extension, and the family of
  languages whose rules apply.
Main exports: baseName, extensionOf, SourceFile, SourceFile.named, Family, Family.ofName,
  improvedName
-/
import SourceAudit.Text.Basic

namespace SourceAudit

/-- The two characters that separate the parts of a path. -/
def isPathSeparator (c : Char) : Bool := c == '/' || c == '\\'

/-- The last part of a path. -/
def baseName (name : Text) : Text := name.afterLast isPathSeparator

/-- The extension of a file name in lower case: what follows the last dot of the base name. A base
    name without a dot, or with its only dot in front, has none. -/
def extensionOf (name : Text) : Text :=
  match (baseName name).cutLast? (· == '.') with
  | some (stem, ext) => if stem.isEmpty then [] else ext.lower
  | none => []

/-- A source file as the caller hands it in. -/
structure SourceFile where
  /-- The name or relative path. -/
  fileName : String
  /-- The whole text. -/
  content : String
  /-- What the caller says about its type. -/
  fileType : String
deriving DecidableEq, Repr

/-- A source file whose type is taken from its extension. -/
def SourceFile.named (fileName content : String) : SourceFile :=
  ⟨fileName, content, (extensionOf fileName.toList).str⟩

/-- The families of languages that have rules of their own. -/
inductive Family where
  | html | script | python | php | solidity | vue | other
deriving DecidableEq, Repr

namespace Family

/-- The family's name. -/
def name : Family → String
  | .html => "html"
  | .script => "script"
  | .python => "python"
  | .php => "php"
  | .solidity => "solidity"
  | .vue => "vue"
  | .other => "other"

/-- The family that an extension belongs to. -/
def ofExtension (ext : String) : Family :=
  if ["html", "htm"].contains ext then .html
  else if ["js", "jsx", "ts", "tsx", "mjs", "cjs"].contains ext then .script
  else if ext == "py" then .python
  else if ext == "php" then .php
  else if ext == "sol" then .solidity
  else if ext == "vue" then .vue
  else .other

/-- The family of a file, by its name. -/
def ofName (fileName : String) : Family := ofExtension (extensionOf fileName.toList).str

end Family

/-- The extensions of files that hold markup inside script code. -/
def isJsxExtension (ext : Text) : Bool := ext == "jsx".toList || ext == "tsx".toList

/-- The name for the improved copy of a file: `.improved` goes before the extension, or to the end
    when there is none. -/
def improvedName (name : Text) : Text :=
  match (baseName name).cutLast? (· == '.') with
  | some (stem, ext) =>
    if stem.isEmpty then name ++ ".improved"
    else name.take (name.length - ext.length - 1) ++ ".improved" ++ '.' :: ext
  | none => name ++ ".improved"

end SourceAudit
