import SocketRanking.Failure
import SocketRanking.Json.Writer
import SocketRanking.Number.Decimal
import SocketRanking.Number.Scalar
import SocketRanking.Text.Blank

/-!
# Telemetry samples

A sample is one row of telemetry. Its values stay raw until they are asked for, so that a malformed
value spoils its own metric only.
-/

namespace SocketRanking

/-- One row of telemetry. -/
structure Sample where
  /-- Milliseconds since the epoch. -/
  timestamp : Int64
  /-- The core that was measured; none for a whole socket. -/
  core : Option UInt32
  /-- Raw values by metric name, sorted by name. -/
  values : List (String × Json)

namespace Sample

/-- The raw value stored for a metric. -/
def raw? (s : Sample) (m : Metric) : Option Json :=
  s.values.lookup m.name

/-- Numbers and numeric strings are readings when they are finite. -/
def reading? (raw : Json) : Option Float :=
  let x? := match raw with
    | .int n => some (Float.ofInt n)
    | .float x => some x
    | .string text => Number.readFloat? (Text.trim text)
    | _ => none
  x?.filter Float.isFinite

/-- The reading of a metric; none when the row does not carry the metric at all. -/
def value {α : Type} [Scalar α] (s : Sample) (m : Metric) : Except Failure (Option α) :=
  match s.raw? m with
  | none => .ok none
  | some raw =>
    match reading? raw with
    | some x => .ok (some (Scalar.ofReading x))
    | none => .error (.unparsable m raw.compact)

/-- The row with the fields of these metrics only. -/
def restrict (s : Sample) (metrics : List Metric) : Sample :=
  { s with values := s.values.filter fun (name, _) => metrics.any (·.name = name) }

end Sample

end SocketRanking
