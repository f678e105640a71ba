import SocketRanking.Client.Status
import SocketRanking.Client.Url.Basic
import SocketRanking.Client.Wire
import SocketRanking.Json.Reader

/-!
# Sessions with the service

A session puts requests to the service at one address. How a request travels is a parameter, the
transport; a session works in whatever monad the transport works in.
-/

namespace SocketRanking.Client

/-- A request on its way to the service. -/
structure Outbound where
  method : String
  url : Url
  body : Option Json

/-- What came back. -/
structure Reply where
  status : Nat
  body : String

/-- Carries requests to the service; a request that gets no answer comes back with nothing. -/
abbrev Transport (m : Type → Type) := Outbound → m (Option Reply)

/-- Why a command did not succeed. -/
inductive ClientError where
  /-- The address of the service is no URL. -/
  | invalidUrl
  /-- Nothing can be found relative to the address. -/
  | invalidPath
  /-- The request got no answer. -/
  | unsent
  /-- The answer could not be read. -/
  | unreadable
  /-- The service refused. -/
  | refused (status : Nat) (text : String)
  deriving DecidableEq, Repr

def ClientError.message : ClientError → String
  | invalidUrl => "Invalid API URL"
  | invalidPath => "Invalid path"
  | unsent => "Failed to send request"
  | unreadable => "Failed to parse response"
  | refused status text => "API error (" ++ statusText status ++ "): " ++ text

/-- The address of the service and the way to it. -/
structure Session (m : Type → Type) where
  base : Url
  transport : Transport m

namespace Reply

/-- What the service said about a failure: the message of its notice, or else the whole body. -/
def complaint (r : Reply) : String :=
  match ErrorNotice.decoder (.read r.body) with
  | .ok notice => notice.error
  | .error _ => r.body

def value {α : Type} (r : Reply) (decoder : Decoder α) : Except ClientError α :=
  match decoder (.read r.body) with
  | .ok a => .ok a
  | .error _ => .error .unreadable

/-- The reply itself if it reports success. -/
def accepted (r : Reply) : Except ClientError Reply :=
  if isSuccess r.status then .ok r else .error (.refused r.status r.complaint)

end Reply

namespace Session

variable {m : Type → Type} [Monad m]

/-- The schemes by which the service is reached. -/
def schemes : List String :=
  ["http", "https"]

/-- Puts a request to the service, whatever the status of the answer. -/
def exchange (s : Session m) (method path : String) (body : Option Json) :
    ExceptT ClientError m Reply := do
  match s.base.resolve? path with
  | none => throw .invalidPath
  | some url =>
    if schemes.contains url.scheme then
      match ← s.transport { method, url, body } with
      | some reply => return reply
      | none => throw .unsent
    else throw .unsent

/-- Asks for a value, whatever the status of the answer. -/
def probe {α : Type} (s : Session m) (path : String) (decoder : Decoder α) :
    ExceptT ClientError m α := do
  let reply ← s.exchange "GET" path none
  ExceptT.mk (pure (reply.value decoder))

def get {α : Type} (s : Session m) (path : String) (decoder : Decoder α) :
    ExceptT ClientError m α := do
  let reply ← s.exchange "GET" path none
  ExceptT.mk (pure (reply.accepted.bind (·.value decoder)))

def post {α : Type} (s : Session m) (path : String) (body : Json) (decoder : Decoder α) :
    ExceptT ClientError m α := do
  let reply ← s.exchange "POST" path (some body)
  ExceptT.mk (pure (reply.accepted.bind (·.value decoder)))

def tell (s : Session m) (path : String) (body : Json) : ExceptT ClientError m Unit := do
  let reply ← s.exchange "POST" path (some body)
  ExceptT.mk (pure (reply.accepted.map fun _ => ()))

def delete (s : Session m) (path : String) : ExceptT ClientError m Unit := do
  let reply ← s.exchange "DELETE" path none
  ExceptT.mk (pure (reply.accepted.map fun _ => ()))

end Session

end SocketRanking.Client
