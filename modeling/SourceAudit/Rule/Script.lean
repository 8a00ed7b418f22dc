/-
Module: SourceAudit.Rule.Script
Layer: Rules
Purpose: The rules for script files, with or without markup in them: imports that are missing or
  unused, class components, inline styles, list keys, effect dependencies, and the habits of three
  well-known packages.
Main exports: Script.rules, localBinding
-/
import SourceAudit.Pattern.Build
import SourceAudit.Rule.Basic
import SourceAudit.Text.Line
import SourceAudit.Text.WholeWord

namespace SourceAudit

/-- The local name that one entry of a named import list binds: its alias if it has one. -/
def localBinding (entry : Text) : Text :=
  match entry.cut? " as " with
  | some (_, shortName) => shortName.trim
  | none => entry.trim

namespace Script

open Pattern

/-- A named import; group 1 is the list between the braces. -/
def namedImport : Pattern :=
  text "import" ++ gap ++ text "\x7b" ++ group 1 (many1 (noneOf "\x7d")) ++ text "\x7d" ++ gap ++
    text "from"

/-- A state hook; group 1 is the state variable. -/
def stateHook : Pattern :=
  text "const" ++ blanks ++ text "[" ++ blanks ++ group 1 name ++ blanks ++ text "," ++ blanks ++
    name ++ blanks ++ text "]" ++ blanks ++ text "=" ++ blanks ++ text "useState" ++ wordEdge

/-- An effect; group 1 is its body and group 2 its dependency list. -/
def effect : Pattern :=
  text "useEffect(" ++ blanks ++ perhaps (text "async" ++ blanks) ++ text "(" ++ blanks ++
    text ")" ++ blanks ++ text "=>" ++ blanks ++ text "\x7b" ++ group 1 leap ++ text "\x7d" ++
    blanks ++ text "," ++ blanks ++ text "[" ++ group 2 (many (noneOf "]")) ++ text "]" ++ blanks ++
    text ")"

/-- A call of jQuery, by its name or by its short form. -/
def jqueryCall : Pattern :=
  (wordEdge ++ text "jQuery" ++ wordEdge) |||
    ((.edge .lineStart ||| .one fun c => !(isWordChar c || c == '$' || c == '.')) ++ text "$(")

/-- A use of the Three.js package. -/
def threeUse : Pattern :=
  (text "from" ++ gap ++ quote ++ text "three" ++ quote) ||| (wordEdge ++ text "THREE.")

/-- An import of one of the navigation modules of Next.js. -/
def nextNavigation : Pattern :=
  text "from" ++ gap ++ quote ++ text "next/" ++
    anyOf [text "router", text "link", text "navigation"] ++ quote

/-- A plain anchor element. -/
def rawAnchor : Pattern := text "<a" ++ .one fun c => isBlank c || c == '>'

/-- Markup without a React import. -/
def reactImport : Rule := fun file => .ok <|
  if !isJsxExtension file.extension || file.content.includes "import React" ||
      file.content.includes "import \x7b" then []
  else
    [.error 1 "Missing React import" "MISSING_IMPORT",
      .fixable "fix" "Add missing React import" .addReactImport "Add React import" .high]

/-- Components written as classes. -/
def classComponents : Rule := fun file => .ok <|
  if file.content.includes "class " &&
      file.content.includesAny ["extends Component", "extends React.Component"] then
    [.advice "modernization"
      "Consider converting class components to functional components with hooks" .high]
  else []

/-- Styles written into the markup. -/
def inlineStyles : Rule := fun file => .ok <|
  if file.isJsxLike && file.content.includes "style=\x7b\x7b" then
    [.fixable "performance"
      "Inline styles detected. Consider moving to CSS modules or styled-components"
      .extractInlineStyles "Extract inline styles to CSS" .medium]
  else []

/-- Lists rendered without keys. -/
def listKeys : Rule := fun file => .ok <|
  if !file.isJsxLike || !file.content.includes ".map(" || file.content.includes "key=" then []
  else
    [.warning (file.content.lineHolding ".map(") "Missing \"key\" prop in list items" "MISSING_KEY",
      .fixable "optimization" "Add a unique \"key\" prop to list items rendered with .map()"
        .addMissingKeys "Add key prop to mapped elements" .medium]

/-- The local names of all named imports, in order. -/
def importedNames (content : Text) : List Text :=
  ((namedImport.findAll content).flatMap fun hit =>
    ((hit.groupChars 1).pieces (· == ',')).map localBinding).filter fun name => !name.isEmpty

/-- Named imports that are mentioned nowhere else. -/
def unusedImports [Engine] : Rule := fun file => do
  let words := file.content.wordIndex
  let found ← (importedNames file.content).mapM fun name => do
    let n ← words.countWord name
    if n = 1 then
      let shown := name.str
      return [Outcome.fixable "optimization"
        s!"Unused import detected: {shown}. Remove to reduce bundle size"
        .removeUnusedImports "Remove unused imports" .low]
    else return []
  return found.flatten

/-- State that an effect reads without declaring it as a dependency. -/
def effectDependencies [Engine] : Rule := fun file => do
  let state := (stateHook.findAll file.content).map fun hit => hit.groupChars 1
  let lines := file.content.lineIndex
  let found ← (if state.isEmpty then [] else effect.findAll file.content).mapM fun hit => do
    let declared := ((hit.groupChars 2).pieces (· == ',')).map Text.trim
    let line := lines.lineAt hit.offset
    let words := (hit.groupChars 1).wordIndex
    let missing ← state.mapM fun name => do
      if declared.contains name then return []
      let n ← words.countWord name
      if n = 0 then return []
      let shown := name.str
      return [Outcome.warning line
        s!"useEffect references \"{shown}\" but it is missing from the dependency array"
        "MISSING_EFFECT_DEPENDENCY"]
    return missing.flatten
  return found.flatten

/-- Uses of jQuery. -/
def jquery : Rule := fun file => .ok <|
  if jqueryCall.occurs file.content then
    [.advice "modernization" "jQuery usage detected. Prefer native DOM APIs or framework state" .low]
  else []

/-- Three.js resources that are never given back. -/
def threeDispose : Rule := fun file => .ok <|
  match threeUse.find file.content with
  | some hit =>
    if file.content.includes ".dispose(" then []
    else
      [.warning (file.content.lineAt hit.offset)
          "Three.js resources are never disposed - possible memory leak" "THREE_NO_DISPOSE",
        .advice "performance"
          "Call .dispose() on geometries, materials and textures when they are no longer needed" .high]
  | none => []

/-- Plain anchors beside the navigation of Next.js. -/
def nextLinks : Rule := fun file => .ok <|
  if nextNavigation.occurs file.content && rawAnchor.occurs file.content then
    [.advice "performance"
      "Use next/link <Link> instead of raw <a> tags for client-side navigation" .medium]
  else []

/-- The rules for script files, in the order they report. -/
def rules [Engine] : List Rule :=
  [reactImport, classComponents, inlineStyles, listKeys, unusedImports, effectDependencies, jquery,
    threeDispose, nextLinks]

end Script

end SourceAudit
