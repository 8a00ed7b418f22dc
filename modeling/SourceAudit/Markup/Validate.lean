/-
Module: SourceAudit.Markup.Validate
Layer: Markup
Purpose: The validation of a markup document. Twelve groups of checks look at the whole text one
  after the other; each finding costs its penalty, and the score is what is left of a hundred. Two
  groups make patterns from the document, and a group with a pattern that the engine refuses finds
  nothing.
Main exports: Markup.checkBalance, Markup.checkLabels, Markup.checks, Markup.validate, Markup.report
-/
import SourceAudit.Engine
import SourceAudit.Markup.Finding
import SourceAudit.Markup.Tag
import SourceAudit.Repetition
import SourceAudit.Text.Line
import SourceAudit.Total

namespace SourceAudit.Markup

open Pattern

/-- The line of the first occurrence of `needle` in any case, or 0 when there is none. -/
def locate (html needle : Text) : Nat :=
  match html.lower.cut? needle.lower with
  | some (before, _) => before.count '\n' + 1
  | none => 0

/-- A missing document type. -/
def checkDoctype (html : Text) : List Check :=
  if startsWithDoctype html then []
  else
    [.fixable .error 1 "Document Type" "Missing DOCTYPE declaration"
      "Add <!DOCTYPE html> at the beginning of the document" "<!DOCTYPE html>" .addDoctype 10]

/-- An html tag with a language. -/
def htmlLang : Pattern := anyCase "<html" ++ .one isBlank ++ many (noneOf ">") ++ anyCase "lang="

/-- A title with its closing tag. -/
def titleElement : Pattern :=
  anyCase "<title" ++ many (noneOf ">") ++ text ">" ++ leap ++ anyCase "</title>"

/-- The html tag itself and its language. -/
def checkRoot (html : Text) : List Check :=
  match (openTag "html").find html with
  | none =>
    [.manual .error 0 "Structure" "Missing <html> tag" "Wrap your content in <html> tags"
      "<html lang=\"en\">...</html>" 10]
  | some hit =>
    if htmlLang.occurs html then []
    else
      [.fixable .warning (html.lineAt hit.offset) "Accessibility"
        "Missing lang attribute in <html> tag" "Add lang attribute for accessibility"
        "<html lang=\"en\">" .addHtmlLang 5]

/-- The tags every document has. -/
def checkStructure (html : Text) : List Check :=
  checkRoot html ++
    (if (openTag "head").occurs html then []
    else
      [.manual .error 0 "Structure" "Missing <head> tag" "Add <head> section to your HTML"
        "<head>...</head>" 10]) ++
    (if titleElement.occurs html then []
    else
      [.manual .error (locate html "<head") "SEO" "Missing <title> tag"
        "Add <title> tag in <head> section" "<title>Page Title</title>" 10]) ++
    (if (openTag "body").occurs html then []
    else
      [.manual .error 0 "Structure" "Missing <body> tag" "Add <body> section to your HTML"
        "<body>...</body>" 10])

/-- The encoding and the viewport. -/
def checkMeta (html : Text) : List Check :=
  (if charsetMeta.occurs html then []
    else
      [.fixable .error (locate html "<head") "Encoding" "Missing character encoding declaration"
        "Add <meta charset=\"UTF-8\"> in <head>" "<meta charset=\"UTF-8\">" .addCharsetMeta 10]) ++
    (if viewportMeta.occurs html then []
    else
      [.fixable .warning (locate html "<head") "Responsive" "Missing viewport meta tag"
        "Add viewport meta tag for responsive design"
        "<meta name=\"viewport\" content=\"width=device-width, initial-scale=1.0\">"
        .addViewportMeta 5])

/-- A text alternative, written without blanks before the equals sign. -/
def altAttribute : Pattern := wordEdge ++ anyCase "alt="

/-- Images without a text alternative. -/
def checkImages (html : Text) : List Check :=
  let lines := html.lineIndex
  (((tagNamed "img").findAll html).filter fun img => !altAttribute.occurs img.chars).map fun img =>
    .fixable .warning (lines.lineAt img.offset) "Accessibility" "Image missing alt attribute"
      "Add alt attribute to all images for accessibility" "alt=\"descriptive text\""
      .addAltAttributes 2

/-- The tags that are no longer part of the standard. -/
def deprecatedTags : List String :=
  ["center", "font", "marquee", "blink", "big", "strike", "tt", "frame", "frameset"]

/-- Deprecated tags, each reported once. -/
def checkDeprecated (html : Text) : List Check :=
  deprecatedTags.flatMap fun tag =>
    match (anyCase ("<" ++ tag) ++ wordEdge).find html with
    | some hit =>
      [.fixable .error (html.lineAt hit.offset) "Deprecated" s!"Deprecated tag {tag} found"
        "Replace with modern HTML5 and CSS" "Use CSS for styling instead" .replaceDeprecatedTags 8]
    | none => []

/-- A tag that starts a block; group 1 is its name. -/
def blockTag : Pattern :=
  text "<" ++
    group 1 (anyOf
      [anyCase "div", anyCase "p", anyCase "ul", anyCase "ol", anyCase "li", anyCase "table",
        anyCase "section", anyCase "article", anyCase "header", anyCase "footer", anyCase "nav",
        anyCase "aside", anyCase "form", anyCase "h" ++ .one (oneOf "123456"), anyCase "blockquote",
        anyCase "pre"]) ++
    wordEdge

/-- From a given place on, up to the first tag that closes a paragraph; group 2 is that tag. -/
def nextParagraphEnd : Pattern := leap ++ group 2 (closeTag "p")

/-- From a given place on, up to the first tag that starts a block; group 2 is that tag. -/
def nextBlock : Pattern := leap ++ group 2 blockTag

/-- Whether a place in a paragraph that is open at `c` comes before its end. -/
def isInParagraph (ends : Search) (c place : Cursor) : Bool :=
  match (ends.hitAt c).bind (·.group? 2) with
  | some close => place.offset < close.start.offset
  | none => true

/-- The first block inside the paragraph that is open at a place: the name of its tag and where it
    starts. -/
def blockInParagraph? (blocks ends : Search) (c : Cursor) : Option (Text × Cursor) := do
  let found ← blocks.hitAt c
  let block ← found.group? 2
  if isInParagraph ends c block.start then return ((found.groupChars 1).lower, block.start) else none

/-- Blocks inside a paragraph. -/
def checkParagraphs (html : Text) : List Check :=
  let lines := html.lineIndex
  let blocks := nextBlock.search html
  let ends := nextParagraphEnd.search html
  ((openTag "p").findAll html).flatMap fun hit =>
    match blockInParagraph? blocks ends hit.whole.stop with
    | some (name, place) =>
      let tag := name.str
      [.manual .error (lines.lineAt place.offset) "Structure"
        s!"Block element <{tag}> nested inside <p>"
        "Close the paragraph before starting a block element" s!"</p><{tag}>" 5]
    | none => []

/-- A style attribute. -/
def styleAttribute : Pattern := anyCase "style=" ++ quote ++ many (noneOf "\"'") ++ quote

/-- More than five style attributes. -/
def checkInlineStyles (html : Text) : List Check :=
  let n := styleAttribute.count html
  if 5 < n then
    [.manual .suggestion 0 "Best Practice" s!"Found {n} inline styles"
      "Consider moving styles to external CSS file" "Extract to CSS file" 3]
  else []

/-- A heading of any rank. -/
def heading : Pattern :=
  anyCase "<h" ++ .one (oneOf "123456") ++ wordEdge ++ many (noneOf ">") ++ text ">"

/-- A document with headings has exactly one of the first rank. -/
def checkHeadings (html : Text) : List Check :=
  if heading.occurs html then
    match (tagNamed "h1").count html with
    | 0 =>
      [.manual .warning 0 "SEO" "No <h1> heading found" "Add a main <h1> heading for better SEO"
        "<h1>Main Heading</h1>" 5]
    | 1 => []
    | n =>
      [.manual .warning 0 "SEO" s!"Multiple <h1> headings found ({n})" "Use only one <h1> per page"
        "Change additional <h1> to <h2> or lower" 5]
  else []

/-- Any opening tag; group 1 is its name. -/
def anyOpenTag : Pattern := text "<" ++ group 1 name ++ many (noneOf ">") ++ text ">"

/-- The tags that are never closed. -/
def voidTags : List String := ["img", "br", "hr", "input", "meta", "link"]

/-- Whether the opening and the closing tags of a name differ in number. -/
def isUnbalanced (html tag : Text) : Bool :=
  (text "<" ++ charsAnyCase tag ++ wordEdge ++ many (noneOf ">") ++ text ">").count html !=
    (text "</" ++ charsAnyCase tag ++ blanks ++ text ">").count html

/-- The tags that have to be closed, by name in lower case: each name once, where it first occurs and
    unless it is in `seen`. -/
def closableTags : (seen : List Text) → List Hit → List (Text × Hit)
  | _, [] => []
  | seen, hit :: hits =>
    let tag := (hit.groupChars 1).lower
    if (voidTags.map Text.of).contains tag || seen.contains tag then closableTags seen hits
    else (tag, hit) :: closableTags (tag :: seen) hits

/-- Tags of these names that are not closed as often as they are opened. -/
def unbalanced (html : Text) (tags : List (Text × Hit)) : List Check :=
  let lines := html.lineIndex
  (tags.filter fun (tag, _) => isUnbalanced html tag).map fun (tag, hit) =>
    let shown := tag.str
    .manual .error (lines.lineAt hit.offset) "Structure" s!"Unclosed or mismatched <{shown}> tag"
      s!"Ensure all <{shown}> tags are properly closed" s!"</{shown}>" 8

/-- Whether the engine looks for the tags of a name. -/
def seeksTags [Engine] (tag : Text) : Bool :=
  Engine.accepts (.opening tag) && Engine.accepts (.closing tag)

/-- Tags that are not closed as often as they are opened. -/
def checkBalance [Engine] (html : Text) : Except Fault (List Check) :=
  let tags := closableTags [] (anyOpenTag.findAll html)
  if tags.all fun entry => seeksTags entry.1 then .ok (unbalanced html tags)
  else .error .patternTooLarge

/-- An input that needs no label. -/
def exemptInput : Pattern :=
  anyCase "type=" ++ perhaps quote ++ anyOf [anyCase "submit", anyCase "button", anyCase "hidden"] ++
    perhaps quote

/-- An identifier; group 1 is its value. -/
def idAttribute : Pattern :=
  wordEdge ++ anyCase "id=" ++ quote ++ group 1 (many1 (noneOf "\"'")) ++ quote

/-- A label for the element with this identifier. -/
def labelFor (id : Text) : Pattern :=
  anyCase "<label" ++ many (noneOf ">") ++ anyCase "for=" ++ quote ++ charsAnyCase id ++ quote

/-- The identifier of an input that needs a label. -/
def labelledId? (input : Text) : Option Text :=
  if exemptInput.occurs input then none
  else (idAttribute.find input).map fun hit => hit.groupChars 1

/-- The inputs that need a label, each with its identifier. -/
def labelledInputs (html : Text) : List (Text × Hit) :=
  ((tagNamed "input").findAll html).filterMap fun input =>
    (labelledId? input.chars).map fun id => (id, input)

/-- Those of the inputs that have no label. Every identifier is looked for once. -/
def unlabelled (html : Text) (inputs : List (Text × Hit)) : List Check :=
  let lines := html.lineIndex
  let missing := (keepOnce (inputs.map Prod.fst)).filter fun id => !(labelFor id).occurs html
  (inputs.filter fun (id, _) => missing.contains id).map fun (id, input) =>
    let shown := id.str
    .manual .warning (lines.lineAt input.offset) "Accessibility"
      "Form input without associated label" "Add <label> for better accessibility"
      s!"<label for=\"{shown}\">Label Text</label>" 3

/-- Whether the engine looks for the labels of all the inputs. -/
def seeksLabels [Engine] (inputs : List (Text × Hit)) : Bool :=
  inputs.all fun (id, _) => Engine.accepts (.label id)

/-- Identified inputs without a label. -/
def checkLabels [Engine] (html : Text) : Except Fault (List Check) :=
  let inputs := labelledInputs html
  if seeksLabels inputs then .ok (unlabelled html inputs) else .error .patternTooLarge

/-- A target that leads nowhere. -/
def emptyTarget : Pattern := anyCase "href=" ++ quote ++ perhaps (text "#") ++ quote

/-- Links without a target. -/
def checkLinks (html : Text) : List Check :=
  let lines := html.lineIndex
  (((openTag "a").findAll html).filter fun link =>
    !(anyCase "href=").occurs link.chars || emptyTarget.occurs link.chars).map fun link =>
      .manual .warning (lines.lineAt link.offset) "Best Practice" "Link without valid href attribute"
        "Add meaningful href to all links" "href=\"valid-url\"" 2

/-- A void element that is closed by a slash. -/
def slashedVoid : Pattern := text "<" ++ voidName ++ wordEdge ++ many (noneOf ">") ++ text "/>"

/-- The text with its first slash-and-bracket made a plain bracket. -/
def dropFirstSlash (t : Text) : Text :=
  match t.cut? "/>" with
  | some (before, after) => before ++ '>' :: after
  | none => t

/-- Slashes that have no effect. -/
def checkVoidSlash (html : Text) : List Check :=
  let lines := html.lineIndex
  (slashedVoid.findAll html).map fun tag =>
    .fixable .info (lines.lineAt tag.offset) "Info" "Trailing slash on void elements has no effect"
      "Remove the trailing slash (/) as it has no effect in HTML5" (dropFirstSlash tag.chars).str
      .stripVoidSlash 0

/-- All checks of a document, in the order of the groups. -/
def checks [Engine] (html : Text) : List Check :=
  [checkDoctype, checkStructure, checkMeta, checkImages, checkDeprecated, checkParagraphs,
    checkInlineStyles, checkHeadings, isolate ∘ checkBalance, isolate ∘ checkLabels, checkLinks,
    checkVoidSlash].flatMap fun check => check html

/-- What is left of a hundred. -/
def scoreAfter (penalty : Nat) : UInt8 := UInt8.ofNat (100 - penalty)

/-- The validation of a document. -/
def validate [Engine] (html : Text) : Validation :=
  let found := checks html
  let findings := found.map Check.finding
  let errors := findings.filter (·.kind == .error)
  ⟨errors.isEmpty, errors, findings.filter (·.kind == .warning),
    findings.filter fun f => f.kind == .suggestion || f.kind == .info,
    scoreAfter (total (found.map Check.penalty))⟩

/-- The report on a document. -/
def report [Engine] (html : Text) (fileName : String) : Report :=
  let result := validate html
  let summary : Summary :=
    { errorCount := result.errors.length
      warningCount := result.warnings.length
      suggestionCount := result.suggestions.length
      status := if result.isValid then .valid else .invalid
      message :=
        if result.isValid then "Your HTML is valid according to W3C standards."
        else "Your HTML has validation errors that need to be fixed." }
  { fileName
    validator := "W3C HTML Validator"
    isValid := result.isValid
    score := result.score
    totalIssues := result.errors.length + result.warnings.length
    errors := result.errors
    warnings := result.warnings
    suggestions := result.suggestions
    summary }

end SourceAudit.Markup
