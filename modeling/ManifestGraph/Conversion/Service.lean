/-
  The remote service that converts SBOM documents. It is asked once, and redirects are not followed;
  what it says with a status below 400 is taken as its answer.
-/
import ManifestGraph.Conversion.Response
import ManifestGraph.Machine
namespace ManifestGraph.Conversion

/-- Where the service is, and for which organization it is asked. -/
structure Service where
  api : Text
  organization : Text
  deriving DecidableEq, Inhabited

namespace Service

/-- The version of the service's interface. -/
def apiVersion : Text := "2025-03-06"

/-- The address that documents are posted to. -/
def url (s : Service) : Text :=
  s.api.trimEndBy (· = .scalar '/') ++ "/hidden/orgs/" ++ s.organization ++ "/sboms/convert"

/-- The parameters of a request. -/
def parameters (remoteUrl : Text) : List (Text × Text) :=
  [("version", apiVersion), ("remote_repo_url", remoteUrl)]

/-- The headers of a request. -/
def headers : List (Text × Text) :=
  [("Content-Type", "application/octet-stream"), ("Content-Encoding", "gzip")]

/-- The value of a header, whose name is compared without case. -/
def header? (headers : List (Text × Text)) (name : Text) : Option Text :=
  (headers.reverse.find? fun h => h.1.asciiLower = name.asciiLower).map (·.2)

/-- A message with the status of a response, and the id of the request if it is known. -/
def withRequestId (message : Text) (status : Int) (reason : Text) (headers : List (Text × Text)) :
    Text :=
  let shown := (Text.ofInt status ++ " " ++ reason).trim
  match header? headers "snyk-request-id" with
  | some id =>
    if id.isEmpty then message ++ " (" ++ shown ++ ")"
    else message ++ " (" ++ shown ++ " - requestId: " ++ id ++ ")"
  | none => message ++ " (" ++ shown ++ ")"

/-- Fails for something that went wrong in a conversion, which is also logged. -/
def failWith (e : Failure) : Run α := do
  Run.log .error .failures e.message
  throw e.whileConverting

/-- Converts a document. -/
def convert (s : Service) (sbom : Bytes) (remoteUrl : Text) : Run Response := do
  match ← Run.attempt (Run.post s.url (parameters remoteUrl) sbom headers) with
  | .error e =>
    Run.log .error .service "Failed to execute HTTP request for SBOM conversion"
    failWith e
  | .ok (.unreachable message) => failWith (.of (.foreign .connection message))
  | .ok (.response status reason headers body) =>
    if 500 ≤ status then
      failWith (.of (.foreign .runtime
        (withRequestId "analysis of SBOM document failed due to error" status reason headers)))
    else if 400 ≤ status then
      failWith (.of (.foreign .runtime
        (withRequestId "request to analyze SBOM document was rejected" status reason headers)))
    else match Response.decode body with
      | .ok response => return response
      | .error misfits =>
        Run.log .error .service "Failed to decode SBOM conversion response"
        failWith (.of (.misfit misfits))

end Service
end ManifestGraph.Conversion
