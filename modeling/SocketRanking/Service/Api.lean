import SocketRanking.Service.MediaType
import SocketRanking.Service.Run
import SocketRanking.Service.Wire
import SocketRanking.Text.Percent

/-!
# The HTTP interface

Requests are routed by path, then by method. A request that reaches an endpoint is answered as the
service answers it, a failure with the status and the code that belong to its cause. What is known
of a response is its status, its content type and its JSON value; texts for human readers are left
out.
-/

namespace SocketRanking

structure Request where
  method : String
  /-- The path, and a query that no endpoint reads. -/
  target : String
  contentType : Option String
  body : String

structure Response where
  status : Nat
  contentType : Option String := none
  /-- The value of a JSON body. -/
  body : Option Json := none

namespace Response

def jsonType : String :=
  "application/json"

def textType : String :=
  "text/plain; charset=utf-8"

def json (status : Nat) (value : Json) : Response :=
  { status, contentType := some jsonType, body := some value }

def text (status : Nat) : Response :=
  { status, contentType := some textType }

def empty (status : Nat) : Response :=
  { status }

/-- The response without its body. -/
def headersOnly (r : Response) : Response :=
  { r with body := none }

end Response

namespace Failure

def status : Failure → Nat
  | unparsable .. | noSamples _ | missingMetric _ => 422
  | unknownNode _ | unknownSocket .. | unknownProfile _ => 404
  | telemetryUnavailable _ => 503
  | unreadableConfiguration _ => 500

def code : Failure → String
  | unparsable .. => "parse_error"
  | noSamples _ => "empty_input"
  | missingMetric _ => "missing_metric"
  | unknownNode _ => "topology_not_found"
  | unknownSocket .. => "unknown_socket"
  | telemetryUnavailable _ => "telemetry_unavailable"
  | unreadableConfiguration _ => "config_unreadable"
  | unknownProfile _ => "unknown_profile"

def body (e : Failure) : ErrorBody :=
  { error := e.message, code := e.code }

def response (e : Failure) : Response :=
  .json e.status e.body.encode

end Failure

/-- The response to trouble; a breakdown has no body. -/
def Trouble.response : Trouble → Response
  | failed e => e.response
  | crashed _ => .empty 500

/-- The response to a body that could not be decoded. -/
def DecodeFault.response : DecodeFault → Response
  | malformed => .text 400
  | mismatch => .text 422

/-- A resource of the interface; the name of a node is percent-coded. -/
inductive Endpoint where
  | health
  | readiness
  | metrics
  | prioritize
  | score (node : String)
  | idleCapacity (node : String)
  | placements
  | cache
  | profiles
  deriving DecidableEq, Repr

/-- Something that can be done with a resource. -/
inductive Operation where
  | showHealth
  | showReadiness
  | showMetrics
  | prioritize
  | score (node : String)
  | showIdleCapacity (node : String)
  | recordPlacement
  | showCache
  | flushCache
  | showProfiles
  deriving DecidableEq, Repr

namespace Endpoint

/-- The resource at a path, which is matched segment by segment as it is written. -/
def ofPath? (path : String) : Option Endpoint :=
  match path.splitOn "/" with
  | ["", "healthz"] => some .health
  | ["", "readyz"] => some .readiness
  | ["", "metrics"] => some .metrics
  | ["", "api", "v1", "prioritize"] => some .prioritize
  | ["", "api", "v1", "nodes", node, "score"] => some (.score node)
  | ["", "api", "v1", "nodes", node, "idle"] => some (.idleCapacity node)
  | ["", "api", "v1", "placements"] => some .placements
  | ["", "api", "v1", "cache"] => some .cache
  | ["", "api", "v1", "profiles"] => some .profiles
  | _ => none

/-- What a method does with a resource. -/
def operation? (endpoint : Endpoint) (method : String) : Option Operation :=
  match endpoint with
  | health => if method = "GET" then some .showHealth else none
  | readiness => if method = "GET" then some .showReadiness else none
  | metrics => if method = "GET" then some .showMetrics else none
  | prioritize => if method = "POST" then some .prioritize else none
  | score node => if method = "GET" then some (.score node) else none
  | idleCapacity node => if method = "GET" then some (.showIdleCapacity node) else none
  | placements => if method = "POST" then some .recordPlacement else none
  | cache =>
    if method = "GET" then some .showCache
    else if method = "DELETE" then some .flushCache
    else none
  | profiles => if method = "GET" then some .showProfiles else none

end Endpoint

namespace Request

/-- The path of the target, without query and fragment. -/
def path (r : Request) : String :=
  String.ofList (r.target.toList.takeWhile fun c => c ≠ '?' && c ≠ '#')

/-- The value of the body, or the response that refuses it. Text after the value is not read. -/
def value {α : Type} (r : Request) (decoder : Decoder α) : Except Response α :=
  match r.contentType.bind MediaType.parse? with
  | some mediaType =>
    if mediaType.isJson then
      match decoder (.readFirst r.body) with
      | .ok a => .ok a
      | .error fault => .error fault.response
    else .error (.text 415)
  | none => .error (.text 415)

end Request

namespace Deployment

variable {σ : Type}

def healthResponse (report : HealthReport) : Response :=
  .json (if report.status = .unhealthy then 503 else 200) report.encode

/-- The response that shows whether the service takes work. -/
def readinessResponse (readiness : Readiness) : Response :=
  .json (if readiness.ready then 200 else 503) readiness.encode

/-- Carries out an operation. -/
def perform (d : Deployment σ Float) (r : Request) (s : State σ Float) :
    Operation → Response × State σ Float
  | .showHealth => (healthResponse s.health.report, s)
  | .showReadiness => (readinessResponse s.health.readiness, s)
  | .showMetrics => (.text 200, s)
  | .showCache => (.json 200 (.list CachedSocket.encode s.cache.snapshot), s)
  | .flushCache => (.empty 204, flushCache s)
  | .showProfiles => (.json 200 (Catalog.encode d.catalog), s)
  | .prioritize =>
    match r.value RankingRequest.decoder with
    | .error refusal => (refusal, s)
    | .ok request =>
      let (list, s) := d.prioritize request.workload request.nodes s
      (.json 200 list.encode, s)
  | .recordPlacement =>
    match r.value Placement.decoder with
    | .error refusal => (refusal, s)
    | .ok placement =>
      match d.recordPlacement placement s with
      | (.ok (), s) => (.empty 204, s)
      | (.error e, s) => (e.response, s)
  | .score coded =>
    match Text.percentDecode? coded with
    | none => (.text 400, s)
    | some node =>
      match d.score node s with
      | (.ok result, s) => (.json 200 result.encode, s)
      | (.error trouble, s) => (trouble.response, s)
  | .showIdleCapacity coded =>
    match Text.percentDecode? coded with
    | none => (.text 400, s)
    | some node =>
      match d.idleCapacity node s with
      | (.ok cores, s) => (.json 200 (IdleCapacity.encode { node, cores }), s)
      | (.error trouble, s) => (trouble.response, s)

/-- Answers a request. Asking for headers does what asking for the resource does. -/
def handle (d : Deployment σ Float) (r : Request) (s : State σ Float) : Response × State σ Float :=
  match Endpoint.ofPath? r.path with
  | none => (.empty 404, s)
  | some endpoint =>
    let headersOnly := r.method = "HEAD"
    match endpoint.operation? (if headersOnly then "GET" else r.method) with
    | none => (.empty 405, s)
    | some operation =>
      let (response, s) := d.perform r s operation
      (if headersOnly then response.headersOnly else response, s)

end Deployment

end SocketRanking
