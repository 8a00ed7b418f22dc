/-
Module: SourceAudit.Service.Route
Layer: Service
Purpose: The routes of the service, each with its method and path, and the names that its description
  lists. A request is matched by method and path alone; the query does not count.
Main exports: Route, Route.find?, isMethodToken, targetPath, Route.documentedPaths, schemaNames
-/
import SourceAudit.Json.Parser
import SourceAudit.Text.Basic

namespace SourceAudit

/-- The routes of the service. -/
inductive Route where
  | health | analyze | validate | performance | improve | compare | description
deriving DecidableEq, Repr

namespace Route

/-- All routes. -/
def all : List Route :=
  [.health, .analyze, .validate, .performance, .improve, .compare, .description]

/-- The method of a route. -/
def method : Route → String
  | .health => "GET"
  | .description => "GET"
  | _ => "POST"

/-- The path of a route as it is described, without the part all routes share. -/
def path : Route → String
  | .health => "/health"
  | .analyze => "/analyze"
  | .validate => "/validate"
  | .performance => "/performance"
  | .improve => "/improve"
  | .compare => "/compare"
  | .description => "/openapi.json"

/-- The paths in the description, in order. -/
def documentedPaths : List String :=
  (all.map path).mergeSort fun a b => decide (a ≤ b)

/-- The route with a method and a full path. -/
def find? (method : String) (path : Text) : Option Route :=
  all.find? fun route => route.method == method && Text.of ("/api" ++ route.path) == path

end Route

/-- Whether a text can be a method: letters, digits and some marks, at least one of them. -/
def isMethodToken (method : String) : Bool :=
  !method.isEmpty &&
    method.toList.all fun c => c.isAlphanum || "!#$%&'*+-.^_`|~".toList.contains c

/-- A text with its percent-encoded characters decoded, except for those that would change how the
    path is divided. -/
def percentDecoded : Text → Text
  | '%' :: a :: b :: rest =>
    match Json.hexValue? a, Json.hexValue? b with
    | some high, some low =>
      let c := Char.ofNat (high * 16 + low)
      if c = '%' || c = '/' || c = '+' then '%' :: a :: b :: percentDecoded rest
      else c :: percentDecoded rest
    | _, _ => '%' :: percentDecoded (a :: b :: rest)
  | c :: rest => c :: percentDecoded rest
  | [] => []

/-- The target of a request without the scheme and the host, if it has them. -/
def withoutHost (target : Text) : Text :=
  match target.cut? "://" with
  | some (scheme, rest) =>
    if scheme.contains '/' then target else rest.dropWhile (· != '/')
  | none => target

/-- The path that the target of a request asks for. -/
def targetPath (target : String) : Text :=
  percentDecoded (withoutHost ((Text.of target).takeWhile fun c => c != '?' && c != '#'))

/-- The names of the structures in the description, in order. -/
def schemaNames : List String :=
  ["AnalyzeRequest", "AnalyzeResponse", "AppliedFix", "ChangeType", "CircularDependency",
    "CompareRequest", "Confidence", "DeepAnalysisResult", "DependencyAnalysis", "DependencyNode",
    "DesignPattern", "ErrorResponse", "FileReport", "Finding", "FindingCategory", "FindingKind",
    "FixKind", "HealthResponse", "Impact", "ImportSpec", "ImproveRequest", "ImprovementMetrics",
    "ImprovementResult", "Issue", "IssueKind", "LineComparison", "PerformanceIssue",
    "PerformanceReport", "ProjectReport", "ProjectStatus", "ProjectSummary", "Severity",
    "SkippedFix", "SourceFileRequest", "Suggestion", "UnusedImport", "ValidationFinding",
    "ValidityStatus", "W3cReport", "W3cSummary", "WebVitals"]

end SourceAudit
