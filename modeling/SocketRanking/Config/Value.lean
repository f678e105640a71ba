import SocketRanking.Json.Basic
import SocketRanking.Number.Power
import SocketRanking.Text.Lowercase

/-!
# Configuration values

What configuration files and the environment say, as one tree. Tables hold their entries sorted by
key, and entering a value into a table turns the keys into lower case. Two tables merge entry by
entry; in every other case the value that is entered later replaces what was there.
-/

namespace SocketRanking.Config

inductive Value where
  | null
  | bool (value : Bool)
  | int (value : Int)
  | real (value : Float)
  | text (value : String)
  | list (items : List Value)
  | table (entries : List (String × Value))
  deriving Inhabited

/-- Entries sorted by key. -/
abbrev Table := List (String × Value)

namespace Value

mutual
/-- The value of JSON. An integer outside the signed 64-bit range is a real number. -/
def ofJson : Json → Value
  | .null => .null
  | .bool b => .bool b
  | .int n => if Number.fitsSigned 64 n then .int n else .real (Float.ofInt n)
  | .float x => .real x
  | .string s => .text s
  | .array items => .list (ofJsonItems items)
  | .object members => .table (ofJsonMembers members)
  | .fault _ => .null

def ofJsonItems : List Json → List Value
  | [] => []
  | v :: rest => ofJson v :: ofJsonItems rest

def ofJsonMembers : List (String × Json) → Table
  | [] => []
  | (k, v) :: rest => (k, ofJson v) :: ofJsonMembers rest
end

/-- The entries of a table; anything else has none. -/
def entries : Value → Table
  | table t => t
  | _ => []

/-- The items of a list; anything else has none. -/
def items : Value → List Value
  | list vs => vs
  | _ => []

mutual
/-- Enters a value under a name. What is no table gives way to one. -/
def enter (name : String) (root : Value) : Value → Value
  | table incoming =>
    let target := (root.entries.lookup (Text.lowercase name)).getD (table [])
    table (Json.insert (Text.lowercase name) (enterAll target incoming) root.entries)
  | other => table (Json.insert (Text.lowercase name) other root.entries)

/-- Enters values under their names, one after the other. -/
def enterAll (target : Value) : Table → Value
  | [] => target
  | (k, v) :: rest => enterAll (enter k target v) rest
end

/-- What stands in a place after a value has been entered there: tables merge. -/
def combine (old : Value) : Value → Value
  | table incoming => enterAll old incoming
  | other => other

end Value

end SocketRanking.Config
