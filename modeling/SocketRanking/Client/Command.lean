import SocketRanking.Number.Decimal
import SocketRanking.Number.Power

/-!
# Commands

What a user can ask of the client, and in which format the answer is shown.
-/

namespace SocketRanking.Client

/-- How answers are shown. -/
inductive Format where
  | table
  | json
  deriving DecidableEq, Repr

namespace Format

def name : Format → String
  | table => "table"
  | json => "json"

def ofName? (text : String) : Option Format :=
  [table, json].find? (·.name = text)

end Format

/-- The number of a socket as it is typed. -/
def socketNumber? (text : String) : Option UInt32 :=
  ((Number.readInt? text).filter (Number.fitsUnsigned 32)).map fun n => UInt32.ofNat n.toNat

/-- What is asked of the service. -/
inductive Command where
  | score (node : String)
  | rank (nodes : List String) (workload : String) (profile : Option String)
  | place (node : String) (socket : UInt32) (profile : String) (countsTowardIdle : Bool)
  | idle (node : String)
  | showCache
  | flushCache
  | profiles
  | health
  deriving DecidableEq, Repr

/-- A command with what holds for every command. -/
structure Invocation where
  apiUrl : String
  format : Format
  command : Command
  deriving DecidableEq, Repr

end SocketRanking.Client
