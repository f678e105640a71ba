import SocketRanking.Client.Figures
import SocketRanking.Client.Table
import SocketRanking.Client.Wire

/-!
# Reports

What a user sees of the answers of the service, line by line.
-/

namespace SocketRanking.Client

namespace Report

def heading (palette : Palette) (title : String) : List String :=
  [palette.bold title, String.ofList (List.replicate 60 '=')]

def note (palette : Palette) (sign : String) (colour : Colour) (message : String) : String :=
  palette.boldColour colour sign ++ " " ++ message

def success (palette : Palette) (message : String) : String :=
  note palette "✓" .green message

def warning (palette : Palette) (message : String) : String :=
  note palette "⚠" .yellow message

def remark (palette : Palette) (message : String) : String :=
  note palette "ℹ" .blue message

def failure (palette : Palette) (message : String) : String :=
  note palette "✗" .red message

/-- A table, or a remark if it has no rows. -/
def table (palette : Palette) (header : List String) (rows : List (List String)) : List String :=
  if rows.isEmpty then [palette.colour .yellow "No items found"]
  else Table.lines { header, rows }

/-- The number of a socket, or a dash. -/
def socketLabel : Option UInt32 → String
  | some s => toString s
  | none => "-"

/-- The row of a socket; the winner bears a star. -/
def socketRow (palette : Palette) (winner : Option UInt32) (s : SocketLine) : List String :=
  [toString s.socket ++ (if some s.socket = winner then " *" else ""), toString s.cores,
    scoreText s.baseScore,
    match s.c6res with
    | some c6 => fractionText c6
    | none => "-",
    scoreText s.gatedScore, stateText palette (if s.eligible then "eligible" else "ineligible")]

def scoring (palette : Palette) (r : NodeScore) : List String :=
  heading palette ("Socket Scores: " ++ r.node) ++
    table palette ["Socket", "Cores", "Base Score", "Idle (C6)", "Gated Score", "Status"]
      (r.sockets.map (socketRow palette r.socket)) ++
    [""] ++
    match r.socket with
    | some socket =>
      ["Winner:        socket " ++ palette.boldColour .green (toString socket),
        "Score:         " ++ scoreText r.score,
        "Cores:         " ++ toString r.coreCount,
        "Final Score:   " ++ palette.colour .cyan (scoreText r.finalScore),
        "Window:        " ++ toString r.windowSecs ++ "s"]
    | none => [warning palette "No socket is eligible on this node"]

def rankRow (rank : Nat) (p : RankedHost) : List String :=
  [toString rank, p.host, socketLabel p.socket, toString p.coreCount, scoreText p.finalScore]

def failureRow (f : FailedHost) : List String :=
  [f.host, f.reason, if f.retryable then "yes" else "no"]

def ranking (palette : Palette) (l : HostRanking) : List String :=
  let ranks := List.range' 1 l.priorities.length
  let failed :=
    if l.failures.isEmpty then []
    else ["", palette.boldColour .red "Failed Nodes"] ++
      table palette ["Node", "Reason", "Retryable"] (l.failures.map failureRow)
  heading palette ("Node Ranking: " ++ l.workload) ++
    table palette ["Rank", "Node", "Socket", "Cores", "Final Score"]
      (List.zipWith rankRow ranks l.priorities) ++
    failed

def idle (palette : Palette) (c : IdleCores) : List String :=
  heading palette ("Idle Capacity: " ++ c.node) ++
    ["Idle core equivalent:   " ++ palette.colour .cyan (Number.fixed 2 c.cores)]

def placement (palette : Palette) (p : PlacementReport) : List String :=
  success palette ("Recorded placement of '" ++ p.profile ++ "' on " ++ p.node ++ " socket " ++
      toString p.socket) ::
    if p.countsTowardIdle then [] else [remark palette "Idle residency left unchanged"]

/-- A cached value; what is below zero is not known. -/
def cachedText (x : Float) : String :=
  if x < 0.0 then "?" else scoreText x

def cacheRow (palette : Palette) (c : CacheLine) : List String :=
  [c.node, toString c.socket, cachedText c.ipc, cachedText c.memRead, cachedText c.memWrite,
    cachedText c.c6res, stateText palette (if c.fresh then "fresh" else "stale")]

def cache (palette : Palette) (lines : List CacheLine) : List String :=
  heading palette "Telemetry Cache" ++
    table palette ["Node", "Socket", "IPC", "Mem Read", "Mem Write", "C6 Residency", "State"]
      (lines.map (cacheRow palette))

def profileRow (name : String) (p : Footprint) : List String :=
  [name, scoreText p.ipc, scoreText p.memRead, scoreText p.memWrite, fractionText (p.c6res / 100.0),
    toString p.durationSecs ++ "s"]

def profiles (palette : Palette) (l : ProfileList) : List String :=
  heading palette "Application Profiles" ++
    table palette ["Profile", "IPC", "Mem Read", "Mem Write", "C6 Residency", "Duration"]
      (l.profiles.map fun (name, p) => profileRow name p)

def componentRow (palette : Palette) (name : String) (c : ComponentReport) : List String :=
  [name, stateText palette c.status, toString c.consecutiveFailures, timeText c.lastCheck.toInt,
    c.message.getD ""]

def health (palette : Palette) (h : HealthView) (r : ReadinessView) : List String :=
  heading palette "Scorer Health" ++
    ["Status:   " ++ stateText palette h.status,
      "Ready:    " ++
        (if r.ready then palette.colour .green "yes" else palette.colour .red "no")] ++
    (match r.reason with
      | some reason => [warning palette reason]
      | none => []) ++
    [""] ++
    table palette ["Component", "Status", "Failures", "Last Check", "Message"]
      (h.components.map fun (name, c) => componentRow palette name c)

end Report

end SocketRanking.Client
