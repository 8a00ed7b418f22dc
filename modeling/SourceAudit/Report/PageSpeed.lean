/-
Module: SourceAudit.Report.PageSpeed
Layer: Analysis
Purpose: A page-speed score from the text alone. Each heuristic that applies takes a fixed amount off
  the two scores; the vitals are interpolated from the desktop score and are not measurements.
Main exports: SpeedIssue, WebVitals, WebVitals.simulate, SpeedReport, analyzeSpeed
-/
import SourceAudit.Issue
import SourceAudit.Pattern.Build
import SourceAudit.Source.Basic
import SourceAudit.Total

namespace SourceAudit

/-- A heuristic that applies. -/
structure SpeedIssue where
  impact : Impact
  title : String
  description : String
deriving DecidableEq, Repr

/-- Simulated vitals of a page. -/
structure WebVitals where
  /-- Seconds to the largest contentful paint. -/
  lcp : Float
  /-- Milliseconds of blocking. -/
  tbt : Float
  /-- Shift of the layout. -/
  cls : Float
  /-- Seconds of the speed index. -/
  speedIndex : Float
deriving Repr

/-- The page-speed report on a file. -/
structure SpeedReport where
  desktopScore : UInt8
  mobileScore : UInt8
  metrics : WebVitals
  issues : List SpeedIssue
deriving Repr

/-- A number rounded to two decimal places, halves away from zero. -/
def roundHundredths (x : Float) : Float := (x * 100.0).round / 100.0

/-- The vitals for a desktop score: each lies between a good and a bad value as the score lies
    between a hundred and zero. -/
def WebVitals.simulate (score : UInt8) : WebVitals :=
  let factor := (100.0 - (Nat.toFloat (min score.toNat 100))) / 100.0
  let metric (good bad : Float) : Float := roundHundredths (good + (bad - good) * factor)
  { lcp := metric 0.8 4.5
    tbt := (metric 10.0 600.0).round
    cls := metric 0.0 0.5
    speedIndex := metric 0.5 3.5 }

namespace Speed

open Pattern

/-- The head of a page; group 2 is its content, up to the closing tag or the end of the text. -/
def headElement : Pattern :=
  anyCase "<head" ++ perhaps (.one isBlank ++ many (noneOf ">")) ++ text ">" ++ group 2 leap ++
    (anyCase "</head>" ||| .edge .textEnd)

/-- A script tag. -/
def scriptTag : Pattern := anyCase "<script" ++ wordEdge ++ many (noneOf ">") ++ text ">"

/-- A script that does not hold up the page. -/
def deferred : Pattern := wordEdge ++ (anyCase "defer" ||| anyCase "async") ++ wordEdge

/-- A style attribute. -/
def styleAttribute : Pattern := wordEdge ++ text "style" ++ blanks ++ text "=" ++ blanks ++ quote

/-- An image. -/
def image : Pattern := anyCase "<img" ++ wordEdge

/-- The start of an attribute value: a quote or a brace. -/
def valueStart : Pattern := .one (oneOf "\"'\x7b")

/-- An attribute for a size. -/
def dimension : Pattern :=
  wordEdge ++ (anyCase "width" ||| anyCase "height") ++ blanks ++ text "=" ++ blanks ++ valueStart

/-- A viewport declaration, with or without blanks around the equals sign. -/
def spacedViewport : Pattern :=
  anyCase "<meta" ++ many (noneOf ">") ++ anyCase "name" ++ blanks ++ text "=" ++ blanks ++ quote ++
    anyCase "viewport" ++ quote

/-- A text alternative. -/
def altValue : Pattern := wordEdge ++ anyCase "alt" ++ blanks ++ text "=" ++ blanks ++ valueStart

/-- The start of an element. -/
def elementStart : Pattern := text "<" ++ many1 isAsciiLetter

/-- An image that is loaded when it is needed. -/
def lazyLoading : Pattern :=
  wordEdge ++ anyCase "loading" ++ blanks ++ text "=" ++ blanks ++ quote ++ anyCase "lazy" ++ quote

/-- Whether a script in the head holds up the page. -/
def hasBlockingScript (t : Text) : Bool :=
  match headElement.find t with
  | some head => (scriptTag.findAll (head.groupChars 2)).any fun tag => !deferred.occurs tag.chars
  | none => false

/-- Whether a file holds a page, by its extension. -/
def isPage (fileName : String) : Bool :=
  ["html", "htm", "jsx", "tsx"].contains (extensionOf (Text.of fileName)).str

/-- What an issue takes off the desktop and the mobile score. -/
def cost : Impact → Nat × Nat
  | .high => (5, 10)
  | .medium => (2, 5)
  | .low => (1, 2)

/-- Whether the page lacks a viewport declaration. -/
def lacksViewport (fileName : String) (t : Text) : Bool :=
  isPage fileName && !spacedViewport.occurs t

/-- The issue, when the heuristic applies. -/
def flag (applies : Bool) (impact : Impact) (title description : String) : List SpeedIssue :=
  if applies then [⟨impact, title, description⟩] else []

/-- The heuristics that apply, in order. -/
def issues (fileName : String) (t : Text) : List SpeedIssue :=
  let hasImages := image.occurs t
  let elements := elementStart.count t
  flag (hasBlockingScript t) .high "Eliminate render-blocking resources"
      "Scripts in <head> without `defer` or `async` block the first paint. Move them to the end of <body> or use `defer`." ++
    flag (20 < styleAttribute.count t) .medium "Reduce inline styles"
      "Too many inline styles increase document size. Move styles to external CSS files." ++
    flag (hasImages && !dimension.occurs t) .high
      "Image elements do not have explicit width and height"
      "Set explicit width and height on image elements to reduce layout shifts (CLS)." ++
    flag (lacksViewport fileName t) .high "Missing viewport meta tag"
      "The page is not optimized for mobile devices. Add a viewport meta tag." ++
    flag (hasImages && !altValue.occurs t) .medium "Image elements missing alt attributes"
      "Missing alt attributes hurt accessibility and SEO." ++
    flag (1500 < elements) .medium "Avoid an excessive DOM size"
      s!"Found ~{elements} DOM elements. Large DOMs increase memory usage and style calculations." ++
    flag (hasImages && !lazyLoading.occurs t) .low "Defer offscreen images"
      "Consider using loading=\"lazy\" for offscreen images to improve initial load time."

end Speed

/-- The page-speed report on a file. A missing viewport costs the mobile score twenty more. -/
def analyzeSpeed (fileName content : String) : SpeedReport :=
  let t := Text.of content
  let issues := Speed.issues fileName t
  let desktop := UInt8.ofNat (99 - total (issues.map fun i => (Speed.cost i.impact).1))
  let extra := if Speed.lacksViewport fileName t then 20 else 0
  { desktopScore := desktop
    mobileScore := UInt8.ofNat (98 - (total (issues.map fun i => (Speed.cost i.impact).2) + extra))
    metrics := WebVitals.simulate desktop
    issues }

end SourceAudit
