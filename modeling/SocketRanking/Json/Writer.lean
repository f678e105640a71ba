import SocketRanking.Json.Basic
import SocketRanking.Number.Shortest

/-!
# Writing JSON text

Two layouts: `compact`, without any space, and `pretty`, a member to a line with two blanks for each
level. Strings escape only quotation marks, backslashes and control characters. The text of a double
is a parameter of the compact layout.
-/

namespace SocketRanking.Json

/-- A hexadecimal digit in lower case. -/
def hexDigit (n : Nat) : Char :=
  Nat.digitChar n

/-- A character as it stands inside a string. -/
def escapeChar (c : Char) : List Char :=
  if c = '"' then ['\\', '"']
  else if c = '\\' then ['\\', '\\']
  else if c = '\n' then ['\\', 'n']
  else if c = '\r' then ['\\', 'r']
  else if c = '\t' then ['\\', 't']
  else if c = '\x08' then ['\\', 'b']
  else if c = '\x0c' then ['\\', 'f']
  else if c.toNat < 0x20 then
    ['\\', 'u', '0', '0', hexDigit (c.toNat / 16), hexDigit (c.toNat % 16)]
  else [c]

/-- A string between its marks. -/
def quote (text : String) : String :=
  String.ofList ('"' :: (text.toList.flatMap escapeChar ++ ['"']))

/-- A double as a number token; what is not finite has none. -/
def floatText (x : Float) : String :=
  if x.isFinite then Number.literalText x else "null"

mutual
/-- A value without spaces. -/
def compactWith (float : Float → String) : Json → String
  | .null => "null"
  | .bool b => if b then "true" else "false"
  | .int n => toString n
  | .float x => float x
  | .string s => quote s
  | .array items => "[" ++ ",".intercalate (compactItems float items) ++ "]"
  | .object members => "\x7b" ++ ",".intercalate (compactMembers float members) ++ "\x7d"
  | .fault _ => "null"

/-- Every item without spaces. -/
def compactItems (float : Float → String) : List Json → List String
  | [] => []
  | v :: rest => v.compactWith float :: compactItems float rest

/-- Every member without spaces. -/
def compactMembers (float : Float → String) : List (String × Json) → List String
  | [] => []
  | (k, v) :: rest => (quote k ++ ":" ++ v.compactWith float) :: compactMembers float rest
end

/-- A value without spaces, doubles with their shortest digits. -/
def compact (v : Json) : String :=
  v.compactWith floatText

/-- A line break and the blanks of a level. -/
def newline (level : Nat) : String :=
  String.ofList ('\n' :: List.replicate (2 * level) ' ')

mutual
/-- A value laid out over lines, at a level. -/
def prettyAt (level : Nat) : Json → String
  | .array [] => "[]"
  | .array items =>
    "[" ++ newline (level + 1) ++
      ("," ++ newline (level + 1)).intercalate (prettyItems (level + 1) items) ++
      newline level ++ "]"
  | .object [] => "\x7b\x7d"
  | .object members =>
    "\x7b" ++ newline (level + 1) ++
      ("," ++ newline (level + 1)).intercalate (prettyMembers (level + 1) members) ++
      newline level ++ "\x7d"
  | v => v.compact

/-- Every item laid out over lines. -/
def prettyItems (level : Nat) : List Json → List String
  | [] => []
  | v :: rest => v.prettyAt level :: prettyItems level rest

/-- Every member laid out over lines. -/
def prettyMembers (level : Nat) : List (String × Json) → List String
  | [] => []
  | (k, v) :: rest => (quote k ++ ": " ++ v.prettyAt level) :: prettyMembers level rest
end

/-- A value laid out over lines. -/
def pretty (v : Json) : String :=
  v.prettyAt 0

end SocketRanking.Json
