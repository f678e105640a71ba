import SocketRanking.Number.Power
import SocketRanking.Scoring.Gate
import SocketRanking.Scoring.Strategy

/-!
# Settings of the scorer

How much telemetry is aggregated, how often it is sampled, and by which rules sockets are scored.
The number of rows to ask for is a machine word.
-/

namespace SocketRanking

/-- A span of time in nanoseconds. -/
structure Duration where
  nanos : Nat
  deriving DecidableEq, Repr

namespace Duration

/-- A span of whole seconds and nanoseconds. -/
def ofParts (secs nanos : Nat) : Duration :=
  ⟨secs * 1000000000 + nanos⟩

def ofSecs (secs : Nat) : Duration :=
  ofParts secs 0

def ofMillis (millis : Nat) : Duration :=
  ⟨millis * 1000000⟩

def secs (d : Duration) : Nat :=
  d.nanos / 1000000000

/-- The nanoseconds beyond the whole seconds. -/
def subsecNanos (d : Duration) : Nat :=
  d.nanos % 1000000000

end Duration

/-- A number as it is kept in a word of 64 bits. -/
def word64 (n : Nat) : Nat :=
  n % Number.twoPow 64

/-- How sockets are measured and scored. -/
structure Settings where
  /-- The window of telemetry that is aggregated for a socket that is not cached. -/
  window : Duration := .ofSecs 20
  /-- The time from one sample to the next. -/
  sampleInterval : Duration := .ofMillis 200
  strategy : Strategy := .ipcPerBandwidth
  idleGate : IdleGate := .inOrder
  deriving DecidableEq, Repr

namespace Settings

/-- The number of samples of a socket that cover the window, at least one. -/
def rowsPerWindow (s : Settings) : Nat :=
  if s.sampleInterval.nanos = 0 then 1
  else max (word64 (s.window.nanos / s.sampleInterval.nanos)) 1

/-- The number of rows that cover the window for all of so many cores. -/
def rowsForCores (s : Settings) (cores : Nat) : Nat :=
  word64 (s.rowsPerWindow * max cores 1)

end Settings

end SocketRanking
