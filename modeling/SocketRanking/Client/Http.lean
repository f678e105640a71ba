import SocketRanking.Client.Session
import SocketRanking.Json.Writer

/-!
# HTTP messages

A request as it is written and a reply as it is read, both as plain bytes. A request asks that the
connection be closed after the answer, so the bytes of a reply are complete. Where the body of a
reply ends is said by the transfer coding, or else by the announced length, or else by the end of
the connection.
-/

namespace SocketRanking.Client

def lineEnd : String :=
  "\r\n"

/-- The host of a request, with its port if that is not the usual one. -/
def Outbound.authority (o : Outbound) : String :=
  let host := (o.url.host.map Host.text).getD ""
  match o.url.port with
  | some port => host ++ ":" ++ toString port
  | none => host

def Outbound.text (o : Outbound) : String :=
  let head := [o.method ++ " " ++ o.url.target ++ " HTTP/1.1", "host: " ++ o.authority,
    "accept: */*", "connection: close"]
  match o.body with
  | none => lineEnd.intercalate head ++ lineEnd ++ lineEnd
  | some json =>
    let body := json.compact
    let fields := ["content-type: application/json",
      "content-length: " ++ toString body.utf8ByteSize]
    lineEnd.intercalate (head ++ fields) ++ lineEnd ++ lineEnd ++ body

namespace Reply

/-- Splits the first line off; there is none without an end of line. -/
def splitLine? : List UInt8 → Option (List Char × List UInt8)
  | 13 :: 10 :: rest => some ([], rest)
  | byte :: rest => (splitLine? rest).map fun (line, rest) => (Char.ofNat byte.toNat :: line, rest)
  | [] => none

def status? (line : List Char) : Option Nat :=
  match (String.ofList line).splitOn " " with
  | version :: code :: _ =>
    if version = "HTTP/1.1" || version = "HTTP/1.0" then code.toNat? else none
  | _ => none

/-- A field of the head: its name in lower case and its value. -/
def field (line : List Char) : String × String :=
  let name := line.takeWhile (· ≠ ':')
  let value := (line.drop (name.length + 1)).dropWhile (· = ' ')
  (String.ofList (name.map Char.toLower), String.ofList value)

/-- Splits the fields of the head off, to the first empty line; every line takes up bytes. -/
def splitFields? : Nat → List UInt8 → Option (List (String × String) × List UInt8)
  | 0, _ => none
  | fuel + 1, bytes => do
    let (line, rest) ← splitLine? bytes
    if line.isEmpty then some ([], rest)
    else
      let (fields, rest) ← splitFields? fuel rest
      some (field line :: fields, rest)

/-- The payload of a body in chunks: each chunk after its length, an empty one at the end. -/
def chunks? : Nat → List UInt8 → Option (List UInt8)
  | 0, _ => none
  | fuel + 1, bytes => do
    let (line, rest) ← splitLine? bytes
    let size ← Host.digitsIn? 16 (line.takeWhile fun c => c ≠ ';' && c ≠ ' ')
    if size = 0 then some []
    else if rest.length < size then none
    else
      let (_, after) ← splitLine? (rest.drop size)
      let payload ← chunks? fuel after
      some (rest.take size ++ payload)

/-- The payload of a body under the fields of its head. -/
def payload? (fields : List (String × String)) (bytes : List UInt8) : Option (List UInt8) :=
  if fields.lookup "transfer-encoding" = some "chunked" then chunks? (bytes.length + 1) bytes
  else
    match fields.lookup "content-length" with
    | some length => do
      let length ← length.toNat?
      if bytes.length < length then none else some (bytes.take length)
    | none => some bytes

/-- Reads a reply. Bytes that are no text make an empty body. -/
def ofBytes? (bytes : List UInt8) : Option Reply := do
  let (line, rest) ← splitLine? bytes
  let status ← status? line
  let (fields, rest) ← splitFields? (rest.length + 1) rest
  let payload ← payload? fields rest
  some { status, body := (String.fromUTF8? ⟨payload.toArray⟩).getD "" }

end Reply

end SocketRanking.Client
