import SocketRanking.Config.Path
import SocketRanking.Json.Reader

/-!
# Configuration layers

A configuration is built from layers, later ones over earlier ones. A file and the environment are
layers: lists of values, each with the path at which it is entered. The text of a file is JSON; no
other format is read.
-/

namespace SocketRanking.Config

open SocketRanking.Number

/-- Values with their keys. -/
abbrev Layer := List (String × Value)

namespace Layer

/-- The layer of a JSON file, which has a table at the top. -/
def ofText? (text : String) : Option Layer :=
  match Json.parse? text with
  | some (.object members) => some (Value.ofJsonMembers members)
  | _ => none

/-- The beginning of the names of variables that belong to the configuration. -/
def variablePrefix : String :=
  "scorer__"

/-- The text with points in place of pairs of underscores. -/
def pointed : List Char → List Char
  | '_' :: '_' :: rest => '.' :: pointed rest
  | c :: rest => c :: pointed rest
  | [] => []

/-- The key of a variable, if it belongs to the configuration. Case does not matter. -/
def variableKey? (name : String) : Option String :=
  let name := (Text.lowercase name).toList
  if variablePrefix.toList.isPrefixOf name then
    some (String.ofList (pointed (name.drop variablePrefix.length)))
  else none

/-- The value of a variable: a truth value, an integer, a real number, or else a text. -/
def variableValue (text : String) : Value :=
  let word := Text.lowercase text
  if word = "true" then .bool true
  else if word = "false" then .bool false
  else
    match (readInt? text).filter (fitsSigned 64) with
    | some n => .int n
    | none =>
      match readFloat? text with
      | some x => .real x
      | none => .text text

def ofEnvironment (environment : List (String × String)) : Layer :=
  environment.filterMap fun (name, text) => (variableKey? name).map (·, variableValue text)

/-- Enters a layer over what is there. -/
def enterInto (layer : Layer) (root : Value) : Value :=
  layer.foldl (fun root (key, v) => (Path.ofKey key).set v root) root

def build (layers : List Layer) : Value :=
  layers.foldl (fun root layer => layer.enterInto root) (.table [])

end Layer

end SocketRanking.Config
