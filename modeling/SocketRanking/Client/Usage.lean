import SocketRanking.Client.Arguments

/-!
# Usage

What a user is told when the arguments are no invocation, and what the exit status of the client
then is. Help and the version that a user asked for are no faults.
-/

namespace SocketRanking.Client

def versionText : String :=
  "sockscore 0.1.0"

def helpText : List String :=
  ["CLI for the socket scoring service",
    "",
    "Usage: sockscore [OPTIONS] <COMMAND>",
    "",
    "Commands:",
    "  score <NODE>                      Score every socket of a node and show the winner",
    "  rank <NODES>... [-w NAME] [-p PROFILE]",
    "                                    Rank nodes for a workload, best first",
    "  place <NODE> <SOCKET> <PROFILE> [--no-idle]",
    "                                    Report that a workload was placed on a socket",
    "  idle <NODE>                       Show the idle capacity of a node in cores",
    "  cache show                        Show every cached socket",
    "  cache flush                       Mark every cached value unknown",
    "  profiles                          List the known application profiles",
    "  health                            Show scorer health and readiness",
    "",
    "Options:",
    "      --api-url <API_URL>           API endpoint URL [env: SOCKSCORE_API_URL]",
    "  -f, --format <FORMAT>             Output format [default: table] [values: table, json]",
    "  -h, --help                        Print help",
    "  -V, --version                     Print version"]

namespace UsageError

/-- Whether the user got what was asked for. -/
def isAnswer : UsageError → Bool
  | helpRequested | versionRequested => true
  | _ => false

/-- The exit status of the client. -/
def exitCode (e : UsageError) : UInt32 :=
  if e.isAnswer then 0 else 2

/-- What is wrong with the arguments. -/
def complaint : UsageError → String
  | helpRequested | versionRequested | nothingGiven => ""
  | missingCommand => "a command is required but one was not provided"
  | unknownCommand => "unrecognized command"
  | unknownArgument => "unexpected argument found"
  | missingArgument => "a required argument was not provided"
  | badValue => "an option has no value or none of its possible values"
  | malformedValue => "a value is not of the right kind"
  | surplusValue => "a value was given to a flag that takes none"
  | repeated => "an argument cannot be used multiple times"

/-- What the user is told. -/
def lines : UsageError → List String
  | helpRequested | nothingGiven => helpText
  | versionRequested => [versionText]
  | e => ["error: " ++ e.complaint, "", "For more information, try '--help'."]

end UsageError

end SocketRanking.Client
