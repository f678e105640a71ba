import SocketRanking.Client.Command

/-!
# Arguments of the command line

The arguments are read from left to right, level by level: the options of the client, its command,
and what belongs to the command. A value that has been read is pending until the next argument shows
that it is complete; only then is it checked. So an unknown option is reported before a bad value in
front of it, and a fault inside of a command before one in the options of the client.
-/

namespace SocketRanking.Client

/-- Why arguments are not an invocation. Requests for help and for the version end the reading in
the same way. -/
inductive UsageError where
  | helpRequested
  | versionRequested
  /-- Neither a command nor anything else was given. -/
  | nothingGiven
  | missingCommand
  | unknownCommand
  | unknownArgument
  | missingArgument
  /-- An option without its value, or with a value that is none of its names. -/
  | badValue
  /-- A value that is not of the right kind. -/
  | malformedValue
  /-- A value for a flag that takes none. -/
  | surplusValue
  | repeated
  deriving DecidableEq, Repr

/-- Something that is given by arguments. -/
inductive Argument where
  | apiUrl
  | format
  | node
  | nodes
  | workload
  | workloadProfile
  | socket
  | placedProfile
  | withoutIdle
  deriving DecidableEq, Repr

/-- What can be given at one level of the command line. -/
structure Level where
  /-- Options that take a value, by their long and their short names. -/
  options : List (String × Option Char × Argument) := []
  /-- Options that take no value. -/
  flags : List (String × Argument) := []
  positionals : List Argument := []
  commands : List String := []
  hasVersion : Bool := false

namespace Level

def client : Level :=
  { options := [("api-url", none, .apiUrl), ("format", some 'f', .format)]
    commands := ["score", "rank", "place", "idle", "cache", "profiles", "health", "help"]
    hasVersion := true }

/-- A command about one node. -/
def node : Level :=
  { positionals := [.node] }

/-- The command that ranks nodes. -/
def rank : Level :=
  { options := [("workload", some 'w', .workload), ("profile", some 'p', .workloadProfile)]
    positionals := [.nodes] }

/-- The command that records a placement. -/
def place : Level :=
  { flags := [("no-idle", .withoutIdle)]
    positionals := [.node, .socket, .placedProfile] }

/-- The commands about the cache. -/
def cache : Level :=
  { commands := ["show", "flush", "help"] }

/-- A command that takes nothing. -/
def bare : Level :=
  {}

end Level

/-- Values that were read for an argument and not yet checked. -/
structure Pending where
  argument : Argument
  values : List String

/-- How far the reading of a level has come. -/
structure Progress where
  /-- Values that were checked. -/
  given : List (Argument × List String) := []
  pending : Option Pending := none
  /-- Whether the pending option still waits for its value. -/
  awaiting : Bool := false
  /-- Whether options have been closed by two dashes. -/
  closed : Bool := false
  /-- How many positional arguments are complete. -/
  position : Nat := 0

namespace Argument

/-- Whether the argument takes any number of values. -/
def isList : Argument → Bool
  | nodes => true
  | _ => false

/-- What is wrong with a value of the argument. -/
def fault? (a : Argument) (value : String) : Option UsageError :=
  match a with
  | format => if (Format.ofName? value).isSome then none else some .badValue
  | socket => if (socketNumber? value).isSome then none else some .malformedValue
  | _ => none

end Argument

namespace Progress

/-- Whether the argument was given and checked. -/
def has (p : Progress) (a : Argument) : Bool :=
  p.given.any (·.1 = a)

/-- Everything that was given for the argument. -/
def values (p : Progress) (a : Argument) : List String :=
  (p.given.filter (·.1 = a)).flatMap (·.2)

def value? (p : Progress) (a : Argument) : Option String :=
  (p.values a).head?

/-- The value that has to be given for the argument. -/
def require (p : Progress) (a : Argument) : Except UsageError String :=
  match p.value? a with
  | some value => .ok value
  | none => .error .missingArgument

/-- Checks values and enters them. Nothing is pending then. -/
def enter (p : Progress) (a : Argument) (values : List String) : Except UsageError Progress :=
  if p.has a && !a.isList then .error .repeated
  else
    match values.findSome? a.fault? with
    | some fault => .error fault
    | none => .ok { p with given := p.given ++ [(a, values)], pending := none, awaiting := false }

/-- Checks and enters what is pending. -/
def settle (p : Progress) : Except UsageError Progress :=
  match p.pending with
  | none => .ok p
  | some pending =>
    if pending.values.isEmpty then .error .badValue
    else p.enter pending.argument pending.values

/-- Begins an option; its value may be attached to it. -/
def begin (p : Progress) (a : Argument) (attached : Option String) :
    Except UsageError Progress := do
  let p ← p.settle
  match attached with
  | some value => p.enter a [value]
  | none => return { p with pending := some { argument := a, values := [] }, awaiting := true }

/-- Enters a flag. -/
def raise (p : Progress) (a : Argument) : Except UsageError Progress := do
  let p ← p.settle
  p.enter a []

/-- Ends the reading with a request, after what is pending has been checked. -/
def request (p : Progress) (outcome : UsageError) : Except UsageError Progress :=
  match p.settle with
  | .ok _ => .error outcome
  | .error e => .error e

/-- Adds a value to what is pending. -/
def supply (p : Progress) (value : String) : Progress :=
  { p with
    awaiting := false
    pending := p.pending.map fun pending => { pending with values := pending.values ++ [value] } }

end Progress

namespace Level

/-- Reads a long option: its name, and a value after an equals sign. -/
def readLong (level : Level) (p : Progress) (body : List Char) : Except UsageError Progress :=
  let name := String.ofList (body.takeWhile (· ≠ '='))
  let attached := match body.dropWhile (· ≠ '=') with
    | _ :: value => some (String.ofList value)
    | [] => none
  let plain (outcome : Except UsageError Progress) : Except UsageError Progress :=
    if attached.isSome then .error .surplusValue else outcome
  match level.options.lookup name, level.flags.lookup name with
  | some (_, a), _ => p.begin a attached
  | none, some a => plain (p.raise a)
  | none, none =>
    if name = "help" then plain (p.request .helpRequested)
    else if name = "version" && level.hasVersion then plain (p.request .versionRequested)
    else .error .unknownArgument

/-- Reads a short option; what follows it is its value, with or without an equals sign. -/
def readShort (level : Level) (p : Progress) (name : Char) (rest : List Char) :
    Except UsageError Progress :=
  match level.options.find? (·.2.1 = some name) with
  | some (_, _, a) =>
    let attached := match rest with
      | [] => none
      | '=' :: value => some (String.ofList value)
      | value => some (String.ofList value)
    p.begin a attached
  | none =>
    if name = 'h' then p.request .helpRequested
    else if name = 'V' && level.hasVersion then p.request .versionRequested
    else .error .unknownArgument

/-- Reads a positional argument. One too many is taken for an unknown command where commands are
expected, unless it is a command that comes too late. -/
def readPositional (level : Level) (p : Progress) (value : String) : Except UsageError Progress :=
  match level.positionals[p.position]? with
  | some a =>
    match p.pending with
    | some pending =>
      if pending.argument = a && a.isList then .ok (p.supply value)
      else start a
    | none => start a
  | none =>
    if level.commands.isEmpty || (p.closed && level.commands.contains value) then
      .error .unknownArgument
    else .error .unknownCommand
where
  /-- Begins a positional argument. -/
  start (a : Argument) : Except UsageError Progress := do
    let p ← p.settle
    return { p with
             pending := some { argument := a, values := [value] }
             awaiting := false
             position := if a.isList then p.position else p.position + 1 }

def readOne (level : Level) (p : Progress) (argument : String) : Except UsageError Progress :=
  if p.closed then level.readPositional p argument
  else
    match argument.toList with
    | ['-', '-'] => .ok { p with closed := true }
    | '-' :: '-' :: body => level.readLong p body
    | '-' :: name :: rest => level.readShort p name rest
    | _ => if p.awaiting then .ok (p.supply argument) else level.readPositional p argument

/-- Reads arguments up to the first command, and gives the command with what follows it. -/
def read (level : Level) (p : Progress) :
    List String → Except UsageError (Progress × Option (String × List String))
  | [] => .ok (p, none)
  | argument :: rest =>
    if !p.closed && !p.awaiting && level.commands.contains argument then
      .ok (p, some (argument, rest))
    else
      match level.readOne p argument with
      | .ok p => level.read p rest
      | .error e => .error e

def readAll (level : Level) (arguments : List String) : Except UsageError Progress := do
  let (p, _) ← level.read {} arguments
  p.settle

end Level

/-- Answers a request for help about nested commands: every name has to be one. -/
def help (names : List String) (commands : List (String × List String)) : UsageError :=
  match names with
  | [] => .helpRequested
  | name :: rest =>
    match commands.lookup name, rest with
    | some _, [] => .helpRequested
    | some nested, [inner] => if nested.contains inner then .helpRequested else .unknownCommand
    | _, _ => .unknownCommand

/-- The commands of the client and those below them. -/
def commandTree : List (String × List String) :=
  Level.client.commands.map fun name => (name, if name = "cache" then Level.cache.commands else [])

def cacheCommand (arguments : List String) : Except UsageError Command := do
  match ← Level.cache.read {} arguments with
  | (p, none) =>
    let _ ← p.settle
    .error .nothingGiven
  | (p, some (name, rest)) =>
    if name = "help" then
      .error (help rest (Level.cache.commands.map fun name => (name, [])))
    else
      let _ ← Level.bare.readAll rest
      let _ ← p.settle
      return if name = "show" then .showCache else .flushCache

def rankCommand (arguments : List String) : Except UsageError Command := do
  let p ← Level.rank.readAll arguments
  match p.values .nodes with
  | [] => .error .missingArgument
  | nodes =>
    return .rank nodes ((p.value? .workload).getD "cli-workload") (p.value? .workloadProfile)

def placeCommand (arguments : List String) : Except UsageError Command := do
  let p ← Level.place.readAll arguments
  let node ← p.require .node
  let socket ← p.require .socket
  let profile ← p.require .placedProfile
  match socketNumber? socket with
  | some socket => return .place node socket profile (!p.has .withoutIdle)
  | none => .error .malformedValue

/-- Reads a command and what belongs to it. -/
def command (name : String) (arguments : List String) : Except UsageError Command := do
  match name with
  | "score" => return .score (← (← Level.node.readAll arguments).require .node)
  | "rank" => rankCommand arguments
  | "place" => placeCommand arguments
  | "idle" => return .idle (← (← Level.node.readAll arguments).require .node)
  | "cache" => cacheCommand arguments
  | "profiles" =>
    let _ ← Level.bare.readAll arguments
    return .profiles
  | "health" =>
    let _ ← Level.bare.readAll arguments
    return .health
  | _ => .error (help arguments commandTree)

/-- The address of the service where nothing else is said. -/
def defaultUrl : String :=
  "http://localhost:8080"

/-- The invocation that arguments denote; `environmentUrl` is the address that the environment
gives. -/
def invocation (environmentUrl : Option String) (arguments : List String) :
    Except UsageError Invocation := do
  match ← Level.client.read {} arguments with
  | (p, none) =>
    let p ← p.settle
    .error (if p.given.isEmpty && environmentUrl.isNone then .nothingGiven else .missingCommand)
  | (p, some (name, rest)) =>
    let command ← command name rest
    let p ← p.settle
    return { apiUrl := (p.value? .apiUrl).getD (environmentUrl.getD defaultUrl)
             format := ((p.value? .format).bind Format.ofName?).getD .table
             command }

end SocketRanking.Client
