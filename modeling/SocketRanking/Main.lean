import SocketRanking.Client.Http
import SocketRanking.Client.Run
import SocketRanking.Client.Usage
import Std.Async.DNS
import Std.Async.TCP
import Std.Async.Timer

/-!
# The client as a program

Reads the arguments and the environment, carries requests over TCP, prints what a command shows and
ends with an exit status. Everything it prints and decides comes from the modules of the client.
-/

namespace SocketRanking.Main

open SocketRanking.Client

/-- The bytes that come until the connection ends. -/
partial def receiveAll (socket : Std.Async.TCP.Socket.Client) (bytes : ByteArray) :
    Std.Async.Async ByteArray := do
  match ← socket.recv? 65536 with
  | some more => receiveAll socket (bytes ++ more)
  | none => return bytes

/-- Puts a request to one address. -/
def exchangeAt (address : Std.Net.SocketAddress) (o : Outbound) :
    Std.Async.Async (Option Reply) := do
  let socket ← Std.Async.TCP.Socket.Client.mk
  socket.connect address
  socket.send o.text.toUTF8
  let bytes ← receiveAll socket ByteArray.empty
  return Reply.ofBytes? bytes.toList

/-- An address with a port. -/
def endpoint (address : Std.Net.IPAddr) (port : UInt16) : Std.Net.SocketAddress :=
  match address with
  | .v4 addr => .v4 { addr, port }
  | .v6 addr => .v6 { addr, port }

/-- The name or the address of a host without brackets. -/
def lookupName (host : Host) : String :=
  String.ofList (host.text.toList.filter fun c => c ≠ '[' && c ≠ ']')

/-- Puts a request to the first address of the service that takes it. -/
def exchange (o : Outbound) : Std.Async.Async (Option Reply) := do
  match o.url.host with
  | none => return none
  | some host =>
    if o.url.scheme ≠ "http" then return none
    else
      let port := UInt16.ofNat (o.url.port.getD 80)
      for address in ← Std.Async.DNS.getAddrInfo (lookupName host) "" do
        try
          return ← exchangeAt (endpoint address port) o
        catch _ => continue
      return none

/-- Gives up after half a minute. -/
def giveUp : Std.Async.Async (Option Reply) := do
  Std.Async.sleep 30000
  return none

/-- Carries requests over TCP. -/
def transport : Transport IO := fun o => do
  try
    (Std.Async.Async.race (exchange o) giveUp).block
  catch _ => return none

/-- The palette for standard output. -/
def palette : IO Palette := do
  let terminal ← (← IO.getStdout).isTty
  return Palette.choose (← IO.getEnv "CLICOLOR_FORCE") (← IO.getEnv "NO_COLOR")
    (← IO.getEnv "CLICOLOR") terminal

end SocketRanking.Main

open SocketRanking.Client in
/-- The client. -/
def main (arguments : List String) : IO UInt32 := do
  match invocation (← IO.getEnv "SOCKSCORE_API_URL") arguments with
  | .error e =>
    let text := textOfLines e.lines
    if e.isAnswer then IO.print text else IO.eprint text
    return e.exitCode
  | .ok i =>
    let palette ← SocketRanking.Main.palette
    match ← (run SocketRanking.Main.transport palette i).run with
    | .ok shown =>
      IO.print shown
      return 0
    | .error e =>
      IO.eprint (textOfLines [Report.failure palette e.message])
      return 1
