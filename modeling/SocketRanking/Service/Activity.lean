/-!
# Activity counters

What the service counts as it works. Every change is an addition, so the counters of a run are the
sums of the counters of its steps.
-/

namespace SocketRanking

/-- Event counters; the last two count observations of a latency. -/
structure Activity where
  nodesScored : Nat := 0
  scoringFailures : Nat := 0
  ineligibleSockets : Nat := 0
  cacheHits : Nat := 0
  cacheMisses : Nat := 0
  cacheSweeps : Nat := 0
  telemetryErrors : Nat := 0
  placementsRecorded : Nat := 0
  scoringLatencies : Nat := 0
  queryLatencies : Nat := 0
  deriving DecidableEq, Repr

namespace Activity

instance : Add Activity where
  add a b :=
    { nodesScored := a.nodesScored + b.nodesScored
      scoringFailures := a.scoringFailures + b.scoringFailures
      ineligibleSockets := a.ineligibleSockets + b.ineligibleSockets
      cacheHits := a.cacheHits + b.cacheHits
      cacheMisses := a.cacheMisses + b.cacheMisses
      cacheSweeps := a.cacheSweeps + b.cacheSweeps
      telemetryErrors := a.telemetryErrors + b.telemetryErrors
      placementsRecorded := a.placementsRecorded + b.placementsRecorded
      scoringLatencies := a.scoringLatencies + b.scoringLatencies
      queryLatencies := a.queryLatencies + b.queryLatencies }

/-- How far each counter moved since an earlier time, by the name under which it is exported. -/
def since (later earlier : Activity) : List (String × Nat) :=
  [("nodes_scored", later.nodesScored - earlier.nodesScored),
    ("scoring_failures", later.scoringFailures - earlier.scoringFailures),
    ("ineligible_sockets", later.ineligibleSockets - earlier.ineligibleSockets),
    ("cache_hits", later.cacheHits - earlier.cacheHits),
    ("cache_misses", later.cacheMisses - earlier.cacheMisses),
    ("cache_sweeps", later.cacheSweeps - earlier.cacheSweeps),
    ("telemetry_errors", later.telemetryErrors - earlier.telemetryErrors),
    ("placements_recorded", later.placementsRecorded - earlier.placementsRecorded),
    ("scoring_latency_seconds", later.scoringLatencies - earlier.scoringLatencies),
    ("telemetry_query_latency_seconds", later.queryLatencies - earlier.queryLatencies)]

end Activity

end SocketRanking
