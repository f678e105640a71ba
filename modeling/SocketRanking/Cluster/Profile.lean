import SocketRanking.Failure
import Std.Data.TreeMap

/-!
# Application profiles

The measured footprint of known applications. When a workload is placed, its profile tells how the
socket will change before the next telemetry arrives.
-/

namespace SocketRanking

/-- The footprint of an application that runs alone on one core. -/
structure AppProfile (α : Type) where
  ipc : α
  memRead : α
  memWrite : α
  /-- Idle residency while the application runs, in percent. -/
  c6res : α
  durationSecs : Nat
  deriving DecidableEq, Repr

/-- Profiles by name. -/
abbrev Catalog (α : Type) := Std.TreeMap String (AppProfile α)

namespace Catalog

/-- The profile of this name, or the failure that names it. -/
def require {α : Type} (catalog : Catalog α) (name : String) : Except Failure (AppProfile α) :=
  match catalog[name]? with
  | some p => .ok p
  | none => .error (.unknownProfile name)

/-- The catalog with further profiles, which replace those of the same name. -/
def extend {α : Type} (catalog : Catalog α) (profiles : List (String × AppProfile α)) : Catalog α :=
  profiles.foldl (fun catalog (name, p) => catalog.insert name p) catalog

/-- The benchmark profiles that the scorer knows by itself. -/
def benchmarks : List (String × AppProfile Float) := [
  ("scikit-lasso", ⟨1.87, 0.1753, 0.008856, 0.003058, 69⟩),
  ("scikit-ada", ⟨1.10, 0.09868, 0.00669, 0.0, 138⟩),
  ("scikit-rfr", ⟨1.25, 0.0228, 0.00503, 0.0, 115⟩),
  ("scikit-rfc", ⟨1.802, 0.02423, 0.010603, 0.0, 38⟩),
  ("scikit-linregr", ⟨1.9464, 0.040475, 0.01974, 0.00928149, 45⟩),
  ("scikit-lda", ⟨1.9162, 0.0541, 0.029381, 0.003805, 53⟩),
  ("cloudsuite-data-serving-client", ⟨0.6619, 0.0, 0.0, 44.48, 72⟩),
  ("cloudsuite-in-memory-analytics", ⟨1.3399, 0.0052142, 0.61361, 3.76196, 60⟩),
  ("cloudsuite-web-serving-client", ⟨0.6619, 0.0, 0.0, 44.48, 203⟩),
  ("spec-sphinx", ⟨2.035, 0.0042372, 0.0021131, 0.07497, 592⟩),
  ("spec-cactus", ⟨1.353, 0.07105, 0.0273161, 0.0532267, 780⟩),
  ("spec-astar", ⟨0.86314, 0.0063, 0.0032874, 0.09115, 468⟩),
  ("spec-leslie", ⟨1.5225, 0.3221, 0.1532, 0.1215, 378⟩)]

/-- The catalog of the benchmark profiles. -/
def builtin : Catalog Float :=
  extend ∅ benchmarks

end Catalog

end SocketRanking
