import SocketRanking.Telemetry.Sample

/-!
# Telemetry sources

The scorer sees the telemetry store as a function from queries to answers. An answer is a window of
rows, newest first, or an outage. Outages can be laid over a source by rules, the first rule that
covers a query deciding.
-/

namespace SocketRanking

/-- Asks for a window of rows of one socket. -/
structure Query where
  metrics : List Metric
  /-- The hardware identity of the node. -/
  uuid : String
  socket : UInt32
  /-- Asks for rows of these cores; none asks for rows of the whole socket. -/
  cores : Option (List UInt32)
  /-- The most rows to answer with. -/
  limit : Nat
  deriving DecidableEq, Repr

/-- Why a query has no rows to answer with. -/
inductive Outage where
  /-- The store reports a failure. -/
  | failed (failure : Failure)
  /-- The store breaks down in the middle of the query. -/
  | crashed (text : String)
  deriving DecidableEq, Repr

/-- What the store answers to each query. -/
abbrev Source := Query → Except Outage (List Sample)

/-- An outage of the queries that match every condition that is given. -/
structure OutageRule where
  uuid : Option String := none
  socket : Option UInt32 := none
  /-- Whether queries for cores, or those for whole sockets, are meant. -/
  perCore : Option Bool := none
  outage : Outage

def OutageRule.covers (r : OutageRule) (q : Query) : Bool :=
  r.uuid.all (· = q.uuid) && r.socket.all (· = q.socket) && r.perCore.all (· = q.cores.isSome)

def Source.withOutages (rules : List OutageRule) (source : Source) : Source := fun q =>
  match rules.find? (·.covers q) with
  | some r => .error r.outage
  | none => source q

/-- The source that answers every query with the same rows. -/
def Source.constant (rows : List Sample) : Source := fun _ => .ok rows

end SocketRanking
