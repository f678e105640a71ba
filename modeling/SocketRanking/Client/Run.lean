import SocketRanking.Client.Arguments
import SocketRanking.Client.Report
import SocketRanking.Client.Session
import SocketRanking.Json.Writer

/-!
# Running commands

A command puts its requests to the service and shows what it learned, as a report or as JSON. It
shows nothing before the last answer has come, so a command that fails shows nothing at all.
-/

namespace SocketRanking.Client

variable {m : Type → Type} [Monad m]

def textOfLines (lines : List String) : String :=
  String.join (lines.map (· ++ "\n"))

/-- A value in the format that was asked for. -/
def present (format : Format) (json : Json) (lines : List String) : String :=
  match format with
  | .json => textOfLines [json.pretty]
  | .table => textOfLines lines

/-- The path of what the service says about a node. -/
def nodePath (node aspect : String) : String :=
  "api/v1/nodes/" ++ node ++ "/" ++ aspect

/-- Carries out a command; the result is what is shown. -/
def perform (s : Session m) (palette : Palette) (format : Format) :
    Command → ExceptT ClientError m String
  | .score node => do
    let result ← s.get (nodePath node "score") NodeScore.decoder
    return present format result.encode (Report.scoring palette result)
  | .rank nodes workload profile => do
    let order : RankingOrder := { workload := { name := workload, profile }, nodes }
    let list ← s.post "api/v1/prioritize" order.encode HostRanking.decoder
    return present format list.encode (Report.ranking palette list)
  | .place node socket profile countsTowardIdle => do
    let report : PlacementReport := { node, socket, profile, countsTowardIdle }
    s.tell "api/v1/placements" report.encode
    return present format report.encode (Report.placement palette report)
  | .idle node => do
    let capacity ← s.get (nodePath node "idle") IdleCores.decoder
    return present format capacity.encode (Report.idle palette capacity)
  | .showCache => do
    let lines ← s.get "api/v1/cache" (.list CacheLine.decoder)
    return present format (.list CacheLine.encode lines) (Report.cache palette lines)
  | .flushCache => do
    s.delete "api/v1/cache"
    return present format (.object [("flushed", .bool true)])
      [Report.success palette "Telemetry cache flushed"]
  | .profiles => do
    let list ← s.get "api/v1/profiles" ProfileList.decoder
    return present format list.encode (Report.profiles palette list)
  | .health => do
    let health ← s.probe "healthz" HealthView.decoder
    let readiness ← s.probe "readyz" ReadinessView.decoder
    let both : Json := .object [("health", health.encode), ("readiness", readiness.encode)]
    return present format both.canonical (Report.health palette health readiness)

def run (transport : Transport m) (palette : Palette) (i : Invocation) :
    ExceptT ClientError m String :=
  match Url.parse? i.apiUrl with
  | none => throw .invalidUrl
  | some base => perform { base, transport } palette i.format i.command

end SocketRanking.Client
