import SocketRanking.Client.Url.Host
import SocketRanking.Number.Decimal

/-!
# URLs

A URL is read once, from the text that the user gives, and paths are resolved against it. The
schemes of the web are treated alike: slashes and backslashes mean the same, there is always a host
and a path. The user information and the fragment of a URL are checked and dropped.
-/

namespace SocketRanking

structure Url where
  scheme : String
  host : Option Host
  /-- The port, if it is not the one of the scheme. -/
  port : Option Nat
  /-- The segments of the path; none when the URL has no hierarchy. -/
  segments : Option (List String)
  query : Option String
  deriving DecidableEq, Repr

namespace Url

/-- The ports of the schemes that are treated alike. -/
def knownPorts : List (String × Nat) :=
  [("http", 80), ("https", 443), ("ws", 80), ("wss", 443), ("ftp", 21)]

/-- Whether the scheme is one of the web, files included. -/
def isKnownScheme (scheme : String) : Bool :=
  scheme = "file" || (knownPorts.lookup scheme).isSome

/-- Control characters and all outside ASCII, which no part of a URL holds as they are. -/
def isUnsafe (c : Char) : Bool :=
  c.toNat < 32 || 127 ≤ c.toNat

/-- A text with the characters of a class percent-coded. -/
def encodeWhere (coded : Char → Bool) (text : List Char) : String :=
  String.ofList (text.flatMap fun c => if coded c then Text.percentEncodeChar c else [c])

def encodeSegment (text : List Char) : String :=
  encodeWhere (fun c => isUnsafe c || " \"<>\x60#?\x7b\x7d".toList.contains c) text

def encodeQuery (known : Bool) (text : List Char) : String :=
  let marks := if known then " \"#<>'" else " \"#<>"
  encodeWhere (fun c => isUnsafe c || marks.toList.contains c) text

/-- The text without tabs and line breaks. -/
def withoutBreaks (text : List Char) : List Char :=
  text.filter fun c => c ≠ '\t' && c ≠ '\n' && c ≠ '\r'

/-- The text without blanks and control characters at its ends. -/
def trimControls (text : List Char) : List Char :=
  let drop := List.dropWhile fun c : Char => c.toNat ≤ 32
  (drop (drop text).reverse).reverse

/-- Whether a character separates segments. -/
def isSlash (known : Bool) (c : Char) : Bool :=
  c = '/' || (known && c = '\\')

def splitSlashes (known : Bool) : List Char → List (List Char)
  | [] => [[]]
  | c :: rest =>
    if isSlash known c then [] :: splitSlashes known rest
    else
      match splitSlashes known rest with
      | [] => [[c]]
      | segment :: segments => (c :: segment) :: segments

/-- A segment with its coded points in their places. -/
def uncodedPoints : List Char → List Char
  | '%' :: '2' :: 'e' :: rest | '%' :: '2' :: 'E' :: rest => '.' :: uncodedPoints rest
  | c :: rest => c :: uncodedPoints rest
  | [] => []

/-- Whether a segment means the place where it stands. -/
def isHere (segment : List Char) : Bool :=
  uncodedPoints segment = ['.']

/-- Whether a segment means the place above. -/
def isAbove (segment : List Char) : Bool :=
  uncodedPoints segment = ['.', '.']

/-- Walks along segments, starting from a place. A path that ends with a step leads into a place
without a name. -/
def walk (place : List String) : List (List Char) → List String
  | [] => place
  | segment :: rest =>
    let next :=
      if isAbove segment then place.dropLast
      else if isHere segment then place
      else place ++ [encodeSegment segment]
    if rest.isEmpty && (isAbove segment || isHere segment) then next ++ [""] else walk next rest

/-- Splits the query off and drops the fragment. -/
def splitQuery (known : Bool) (text : List Char) : List Char × Option String :=
  let text := text.takeWhile (· ≠ '#')
  let path := text.takeWhile (· ≠ '?')
  match text.drop path.length with
  | _ :: query => (path, some (encodeQuery known query))
  | [] => (path, none)

/-- Splits the scheme off, in lower case. -/
def splitScheme? (text : List Char) : Option (String × List Char) :=
  let scheme := text.takeWhile fun c => c.isAlphanum || c = '+' || c = '-' || c = '.'
  match scheme, text.drop scheme.length with
  | first :: _, ':' :: rest =>
    if first.isAlpha then some (String.ofList (scheme.map Char.toLower), rest) else none
  | _, _ => none

/-- Splits a text where the first character of a class stands outside of brackets. -/
def splitOutsideBrackets (stops : Char → Bool) : Bool → List Char → List Char × List Char
  | _, [] => ([], [])
  | inside, c :: rest =>
    if !inside && stops c then ([], c :: rest)
    else
      let inside := if c = '[' then true else if c = ']' then false else inside
      let (before, after) := splitOutsideBrackets stops inside rest
      (c :: before, after)

/-- The port after a host. The port of the scheme itself is not kept. -/
def port? (scheme : String) : List Char → Option (Option Nat)
  | ':' :: digits =>
    if !digits.all Char.isDigit || 65535 < Number.digitsValue digits then none
    else
      let port := Number.digitsValue digits
      some (if digits.isEmpty || knownPorts.lookup scheme = some port then none else some port)
  | _ => some none

/-- The text of an authority after its user information, and whether there was any. -/
def withoutUser (authority : List Char) : List Char × Bool :=
  let host := (authority.reverse.takeWhile (· ≠ '@')).reverse
  (host, authority.contains '@' && authority.head? ≠ some '@' || 1 < authority.count '@')

/-- Host and port of an authority. Without a host there is neither port nor user. -/
def authority? (scheme : String) (authority : List Char) : Option (Host × Option Nat) := do
  let known := isKnownScheme scheme
  let (text, hasUser) := withoutUser authority
  let (hostText, portText) := splitOutsideBrackets (· = ':') false text
  if hostText.isEmpty && (known || hasUser || !portText.isEmpty) then none
  else
    let host ← if known then Host.ofText? hostText else Host.ofPlainText? hostText
    let port ← port? scheme portText
    some (host, port)

/-- Reads what follows the scheme and the slashes before the authority. -/
def afterSlashes? (scheme : String) (text : List Char) : Option Url := do
  let known := isKnownScheme scheme
  let authority := text.takeWhile fun c => !isSlash known c && c ≠ '?' && c ≠ '#'
  let (host, port) ← authority? scheme authority
  let (path, query) := splitQuery known (text.drop authority.length)
  let segments := match path with
    | [] => if known then [""] else []
    | _ :: path => walk [] (splitSlashes known path)
  some { scheme, host := some host, port, segments := some segments, query }

/-- Whether a text names a drive, which is a part of a path and no host. -/
def isDrive (text : List Char) : Bool :=
  match text with
  | [letter, mark] => letter.isAlpha && (mark = ':' || mark = '|')
  | _ => false

/-- Reads what follows the scheme of a file. The host may be missing. -/
def file? (text : List Char) : Option Url := do
  let (path, query) := splitQuery true text
  match path with
  | a :: b :: rest =>
    if isSlash true a && isSlash true b then
      let hostText := rest.takeWhile (!isSlash true ·)
      let named := !hostText.isEmpty && !isDrive hostText
      let host ← if named then (Host.ofText? hostText).map some else some none
      let path := if named then rest.drop hostText.length else rest
      let path := path.dropWhile (isSlash true)
      some { scheme := "file", host, port := none, query
             segments := some (walk [] (splitSlashes true path)) }
    else some { scheme := "file", host := none, port := none, query
                segments := some (walk [] (splitSlashes true (path.dropWhile (isSlash true)))) }
  | _ => some { scheme := "file", host := none, port := none, query
                segments := some (walk [] (splitSlashes true (path.dropWhile (isSlash true)))) }

def parse? (text : String) : Option Url := do
  let (scheme, rest) ← splitScheme? (withoutBreaks (trimControls text.toList))
  if scheme = "file" then file? rest
  else if isKnownScheme scheme then afterSlashes? scheme (rest.dropWhile (isSlash true))
  else
    match rest with
    | '/' :: '/' :: rest => afterSlashes? scheme rest
    | '/' :: rest =>
      let (path, query) := splitQuery false rest
      some { scheme, host := none, port := none, query
             segments := some (walk [] (splitSlashes false path)) }
    | _ =>
      let (_, query) := splitQuery false rest
      some { scheme, host := none, port := none, segments := none, query }

/-- The URL of a path relative to this one. The path starts with a name; it takes the place of what
follows the last slash. -/
def resolve? (base : Url) (path : String) : Option Url :=
  base.segments.map fun segments =>
    let known := isKnownScheme base.scheme
    let (path, query) := splitQuery known (withoutBreaks (trimControls path.toList))
    { base with segments := some (walk segments.dropLast (splitSlashes known path)), query }

/-- Path and query as they are sent. -/
def target (u : Url) : String :=
  "/" ++ "/".intercalate (u.segments.getD []) ++
    match u.query with
    | some query => "?" ++ query
    | none => ""

end Url

end SocketRanking
