/-
Module: SourceAudit.Service.Respond
Layer: Service
Purpose: The answer of the service to a request, as a function of its method, target and body. The
  identifier and the time of an analysis are not part of it; they are for the program that sends the
  answer to add.
Main exports: Request, Response, respond
-/
import SourceAudit.Codec.Report
import SourceAudit.Markup.Validate
import SourceAudit.Service.Route

namespace SourceAudit

/-- A request. -/
structure Request where
  method : String
  target : String
  /-- The text of the body, declared as JSON. -/
  body : Option String
deriving DecidableEq, Repr

/-- The body of an answer. -/
inductive ResponseBody where
  /-- Nothing, or a text that is not JSON. -/
  | empty
  | json (j : Json)
  /-- The description of the service, by the paths and structures that it names. -/
  | description (paths schemas : List String)

/-- An answer. -/
structure Response where
  status : Nat
  body : ResponseBody

namespace Response

/-- A successful answer. -/
def ok {α : Type} [Encode α] (x : α) : Response := ⟨200, .json (encode x)⟩

/-- An answer to a request that is refused for a reason. -/
def refused (message : String) : Response := ⟨400, .json (.obj [("message", .str message)])⟩

/-- The answer to a body that cannot be read. -/
def unreadable : Response := ⟨400, .empty⟩

/-- The answer to a body above the size limit. -/
def tooLarge : Response := ⟨413, .empty⟩

/-- The answer to a request that no route takes. -/
def notFound : Response := ⟨404, .empty⟩

end Response

/-- A file in a request. -/
structure FileRequest where
  fileName : String
  content : String
deriving DecidableEq, Repr

instance : Decode FileRequest where
  decode? j := do
    let [fileName, content] ← j.slots? ["fileName", "content"] | none
    return ⟨← need? fileName, ← need? content⟩

/-- The file, with its type taken from its name. -/
def FileRequest.source (f : FileRequest) : SourceFile := .named f.fileName f.content

/-- A request for the analysis of a project. -/
structure AnalyzeRequest where
  files : List FileRequest
deriving DecidableEq, Repr

instance : Decode AnalyzeRequest where
  decode? j := do
    let [files] ← j.slots? ["files"] | none
    return ⟨← need? files⟩

/-- A request for an improvement. -/
structure ImproveRequest where
  fileName : String
  content : String
  /-- What to follow; the analysis of the file when absent. -/
  suggestions : Option (List Suggestion)
  issues : Option (List Issue)
deriving DecidableEq, Repr

instance : Decode ImproveRequest where
  decode? j := do
    let [fileName, content, suggestions, issues] ←
      j.slots? ["fileName", "content", "suggestions", "issues"] | none
    return ⟨← need? fileName, ← need? content, ← want? suggestions, ← want? issues⟩

/-- A request for a comparison. -/
structure CompareRequest where
  before : String
  after : String
deriving DecidableEq, Repr

instance : Decode CompareRequest where
  decode? j := do
    let [before, after] ← j.slots? ["original", "improved"] | none
    return ⟨← need? before, ← need? after⟩

namespace Service

/-- The version that the service reports. -/
def version : String := "0.0.1"

/-- The greatest body in bytes. -/
def maxBody : Nat := 2097152

/-- Whether a name has nothing but blanks. -/
def isBlankName (name : String) : Bool := (Text.of name).isBlankText

/-- The answer to the body of a request, once it is read. What the request has no use for only has to
    be well formed. -/
def withBody {α : Type} [Decode α] (body : Option String) (answer : α → Response) : Response :=
  match body with
  | none => .unreadable
  | some s =>
    if maxBody < s.utf8ByteSize then .tooLarge
    else
      match (Json.parseLenient? none s).bind decode? with
      | some x => answer x
      | none => .unreadable

/-- The analysis of a project. -/
def analyze [Engine] (r : AnalyzeRequest) : Response :=
  if r.files.isEmpty then .refused "at least one file is required"
  else if r.files.any fun f => isBlankName f.fileName then
    .refused "fileName is required for every file"
  else ⟨200, .json (.obj [("report", encode (analyzeProject (r.files.map FileRequest.source)))])⟩

/-- The improvement of a file. -/
def improveFile [Engine] (r : ImproveRequest) : Response :=
  if isBlankName r.fileName then .refused "fileName is required"
  else
    let suggestions := r.suggestions.getD (analyzeFile r.fileName r.content "").suggestions
    .ok (improve r.fileName r.content suggestions)

end Service

/-- The answer to a request. -/
def respond [Engine] (r : Request) : Response :=
  match Route.find? r.method (targetPath r.target) with
  | none => .notFound
  | some .health =>
    ⟨200, .json (.obj [("status", .str "ok"), ("version", .str Service.version)])⟩
  | some .description => ⟨200, .description Route.documentedPaths schemaNames⟩
  | some .analyze => Service.withBody r.body Service.analyze
  | some .validate =>
    Service.withBody r.body fun f : FileRequest =>
      .ok (Markup.report (Text.of f.content) f.fileName)
  | some .performance =>
    Service.withBody r.body fun f : FileRequest => .ok (analyzeSpeed f.fileName f.content)
  | some .improve => Service.withBody r.body Service.improveFile
  | some .compare =>
    Service.withBody r.body fun c : CompareRequest => .ok (compareLines c.before c.after)

end SourceAudit
