import ComponentAudit.Report.Encode
import ComponentAudit.Service.Request

/-!
The service: what it answers to a request. One route tells that it runs, the other analyses a source.
-/

namespace ComponentAudit.Service

inductive Method where
  | get
  | post
  deriving DecidableEq

structure Request where
  method : Method
  path : Text
  body : Text := []

structure Response where
  status : Nat
  body : Json

/-- An answer that only says what is wrong. -/
def detail (status : Nat) (message : Text) : Response := ⟨status, .obj [("detail", .str message)]⟩

def Step.toJson : Step → Json
  | .field name => .str name
  | .item index => .nat index

def FieldError.toJson (error : FieldError) : Json :=
  .obj [("type", .str error.problem.label), ("loc", .arr (error.place.map Step.toJson))]

def analysisResponse (request : AnalyzeRequest) : Response :=
  let analysis := analyze request.source request.filePath request.options
  let findings := Findings.ofAnalysis { extraBuiltins := request.options.extraBuiltins } analysis
  ⟨200, .obj [("file_path", .str analysis.filePath), ("statistics", analysis.statistics.toJson),
    ("issues", findings.toJson), ("opportunity_count", .nat findings.opportunityCount),
    ("result", analysis.toJson)]⟩

def analyzeBody (body : Text) : Response :=
  match AnalyzeRequest.ofText body with
  | .ok request => analysisResponse request
  | .error errors => ⟨422, .arr (errors.map FieldError.toJson)⟩

/-- A path without slashes at its end. -/
def routeOf (path : Text) : Text := (path.reverse.dropWhile (· == '/')).reverse

def respond (request : Request) : Response :=
  let route := routeOf request.path
  if route == "/health" then
    match request.method with
    | .get => ⟨200, .obj [("status", .str "ok")]⟩
    | .post => detail 405 "Method Not Allowed"
  else if route == "/analyze" then
    match request.method with
    | .get => detail 405 "Method Not Allowed"
    | .post => analyzeBody request.body
  else detail 404 "Not Found"

end ComponentAudit.Service
