/-
Module: SourceAudit.Fix.Markup
Layer: Fixes
Purpose: The fixes of markup: document type, meta tags, language, text alternatives, deprecated
  tags and slashes on void elements.
Main exports: addDoctype, addViewportMeta, addCharsetMeta, addHtmlLang, addAltAttributes,
  replaceDeprecatedTags, stripVoidSlash
-/
import SourceAudit.Markup.Tag
import SourceAudit.Source.Basic

namespace SourceAudit.Fix

open Pattern SourceAudit.Markup

/-- The document type in front, unless there is one. -/
def addDoctype (t : Text) : Text :=
  if startsWithDoctype t then t else "<!DOCTYPE html>\n" ++ t

/-- A tag put right behind the opening head tag, or else right before the closing one, unless the
    text already has what it is there for. -/
def insertIntoHead (present : Pattern) (tag t : Text) : Text :=
  if present.occurs t then t
  else
    match (openTag "head").find t with
    | some hit => t.take hit.whole.stop.offset ++ "\n    " ++ tag ++ hit.whole.stop.ahead
    | none =>
      match (closeTag "head").find t with
      | some hit => t.take hit.offset ++ "    " ++ tag ++ '\n' :: hit.whole.start.ahead
      | none => t

/-- A viewport declaration in the head. -/
def addViewportMeta (t : Text) : Text :=
  insertIntoHead viewportMeta
    "<meta name=\"viewport\" content=\"width=device-width, initial-scale=1.0\">" t

/-- A declaration of the encoding in the head. -/
def addCharsetMeta (t : Text) : Text := insertIntoHead charsetMeta "<meta charset=\"UTF-8\">" t

/-- A language attribute, with or without blanks before the equals sign. -/
def langAttribute : Pattern := wordEdge ++ anyCase "lang" ++ blanks ++ text "="

/-- The language of the document, unless its first html tag gives one. -/
def addHtmlLang (t : Text) : Text :=
  match (openTag "html").find t with
  | none => t
  | some tag =>
    if langAttribute.occurs (tag.groupChars 1) then t
    else splice t 0 [(tag, "<html lang=\"en\"" ++ tag.groupChars 1 ++ ">")]

/-- An image tag; group 1 is its attributes and group 2 its slash, if any. -/
def imageTag : Pattern :=
  anyCase "<img" ++ wordEdge ++ group 1 (.fewest (noneOf ">") 0) ++ blanks ++
    group 2 (perhaps (text "/")) ++ text ">"

/-- A text alternative, with or without blanks before the equals sign. -/
def spacedAltAttribute : Pattern := wordEdge ++ anyCase "alt" ++ blanks ++ text "="

/-- An attribute with a quoted value; group 1 is the value. -/
def quotedAttribute (name : String) : Pattern :=
  wordEdge ++ anyCase name ++ blanks ++ text "=" ++ blanks ++ quote ++
    group 1 (many1 (noneOf "\"'")) ++ quote

/-- The file stem in the source of an image. -/
def sourceStem (attributes : Text) : Text :=
  match (quotedAttribute "src").find attributes with
  | some src => ((src.groupChars 1).afterLast (· == '/')).takeWhile (· != '.')
  | none => []

/-- The text alternative of an image: its file stem with spaces for dashes and underscores. -/
def altText (attributes : Text) : Text :=
  let stem := sourceStem attributes
  let stem : Text := if stem.isEmpty then "image" else stem
  stem.map fun c => if c = '-' || c = '_' then ' ' else c

/-- An image tag with a text alternative. -/
def imageWithAlt (image : Hit) : Text :=
  let attributes := image.groupChars 1
  if spacedAltAttribute.occurs attributes then image.chars
  else
    let closing : Text := if (image.groupChars 2).isEmpty then ">" else " />"
    "<img" ++ attributes ++ " alt=\"" ++ altText attributes ++ '"' :: closing

/-- A text alternative for every image without one. -/
def addAltAttributes (t : Text) : Text := imageTag.replaceAll imageWithAlt t

/-- An element up to its first closing tag; group 2 is its content. -/
def wrappedBy (opening : Pattern) (tag : String) : Pattern :=
  opening ++ group 2 leap ++ closeTag tag

/-- An opening tag whose name ends at a word edge; group 1 is what follows the name. -/
def looseTag (tag : String) : Pattern :=
  anyCase ("<" ++ tag) ++ wordEdge ++ group 1 (many (noneOf ">")) ++ text ">"

/-- The style that stands for the attributes of a font tag. -/
def fontStyle (attributes : Text) : List Text :=
  (match (quotedAttribute "color").find attributes with
    | some hit => ["color: " ++ hit.groupChars 1 ++ ";"]
    | none => []) ++
    (match (quotedAttribute "size").find attributes with
    | some hit => ["font-size: " ++ hit.groupChars 1 ++ ";"]
    | none => [])

/-- A font element as a span. -/
def fontSpan (font : Hit) : Text :=
  let style := fontStyle (font.groupChars 1)
  let opening : Text :=
    if style.isEmpty then "<span>" else "<span style=\"" ++ List.intercalate [' '] style ++ "\">"
  opening ++ font.groupChars 2 ++ "</span>"

/-- An opening tag under another name, which may bring attributes of its own. -/
def renameOpening (tag new : String) (t : Text) : Text :=
  (openTag tag).replaceAll (fun hit => "<" ++ Text.of new ++ hit.groupChars 1 ++ ">") t

/-- A closing tag under another name. -/
def renameClosing (tag new : String) (t : Text) : Text :=
  (closeTag tag).replaceAll (fun _ => "</" ++ Text.of new ++ ">") t

/-- Centred content in a styled block. -/
def replaceCenter (t : Text) : Text :=
  (wrappedBy (openTag "center") "center").replaceAll
    (fun hit => "<div style=\"text-align: center;\">" ++ hit.groupChars 2 ++ "</div>") t

/-- Fonts as styled spans. -/
def replaceFont (t : Text) : Text := (wrappedBy (looseTag "font") "font").replaceAll fontSpan t

/-- The content of an element instead of the element. -/
def unwrap (tag : String) (t : Text) : Text :=
  (wrappedBy (looseTag tag) tag).replaceAll (fun hit => hit.groupChars 2) t

/-- Deprecated tags replaced one kind after the other. -/
def replaceDeprecatedTags (t : Text) : Text :=
  let t := unwrap "blink" (unwrap "marquee" (replaceFont (replaceCenter t)))
  let t := renameClosing "strike" "s" (renameOpening "strike" "s" t)
  let t := renameClosing "tt" "code" (renameOpening "tt" "code" t)
  renameClosing "big" "span" (renameOpening "big" "span style=\"font-size: larger;\"" t)

/-- A void element closed by a slash; group 1 is its name and group 2 its attributes. -/
def spacedVoidSlash : Pattern :=
  text "<" ++ group 1 voidName ++ wordEdge ++ group 2 (.fewest (noneOf ">") 0) ++ blanks ++ text "/>"

/-- Void elements without their slash. In script files the slash is needed and stays. -/
def stripVoidSlash (fileName : String) (t : Text) : Text :=
  if Family.ofName fileName = .script then t
  else
    spacedVoidSlash.replaceAll
      (fun hit => "<" ++ hit.groupChars 1 ++ hit.groupChars 2 ++ ">") t

end SourceAudit.Fix
