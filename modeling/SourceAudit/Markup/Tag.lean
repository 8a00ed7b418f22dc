/-
Module: SourceAudit.Markup.Tag
Layer: Markup
Purpose: The patterns of tags and attributes that both the validation and the mending of markup
  rest on. Tag and attribute names are matched in any case; a tag runs to the next closing bracket.
Main exports: Markup.openTag, Markup.closeTag, Markup.tagNamed, Markup.charsetMeta,
  Markup.viewportMeta, Markup.startsWithDoctype
-/
import SourceAudit.Pattern.Build

namespace SourceAudit.Markup

open Pattern

/-- What follows a tag name: attributes after a blank, if any, kept as group 1. -/
def attributes : Pattern := perhaps (group 1 (.one isBlank ++ many (noneOf ">")))

/-- An opening tag whose name is followed by a blank or by the bracket; group 1 is the attributes
    with the blank before them. -/
def openTag (tag : String) : Pattern := anyCase ("<" ++ tag) ++ attributes ++ text ">"

/-- A closing tag. -/
def closeTag (tag : String) : Pattern := anyCase ("</" ++ tag) ++ blanks ++ text ">"

/-- A tag whose name ends at a word edge. -/
def tagNamed (tag : String) : Pattern := anyCase ("<" ++ tag) ++ wordEdge ++ many (noneOf ">") ++ text ">"

/-- A declaration of the character encoding. -/
def charsetMeta : Pattern := anyCase "<meta" ++ many (noneOf ">") ++ anyCase "charset="

/-- A viewport declaration. -/
def viewportMeta : Pattern :=
  anyCase "<meta" ++ many (noneOf ">") ++ anyCase "name=" ++ quote ++ anyCase "viewport" ++ quote

/-- The tags that have no content and no closing tag, as far as a trailing slash matters. -/
def voidName : Pattern :=
  anyOf [anyCase "br", anyCase "hr", anyCase "img", anyCase "input", anyCase "meta", anyCase "link"]

/-- Whether the document starts, after blanks, with a document type declaration. -/
def startsWithDoctype (t : Text) : Bool := t.trimStart.lower.startsWith "<!doctype"

end SourceAudit.Markup
