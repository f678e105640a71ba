/-!
# Media types

The part of a content type header that decides whether a body is JSON: the type, the subtype up to
its last plus sign, and the suffix behind it. Parameters have to be well formed and are not used.
-/

namespace SocketRanking

/-- A media type without its parameters. -/
structure MediaType where
  kind : List Char
  subtype : List Char
  /-- What stands behind the last plus sign of the subtype. -/
  suffix : Option (List Char)
  deriving DecidableEq, Repr

namespace MediaType

/-- Characters of names and of values that are not quoted. -/
def isToken (c : Char) : Bool :=
  c.isAlphanum || "!#$%&'*+-.^_\x60|~".toList.contains c

/-- Splits a subtype at its last plus sign; a plus sign at the start does not split. -/
def splitSuffix (name : List Char) : List Char × Option (List Char) :=
  let suffix := (name.reverse.takeWhile (· ≠ '+')).reverse
  let before := name.take (name.length - suffix.length - 1)
  if suffix.length = name.length || before.isEmpty then (name, none) else (before, some suffix)

/-- What follows a quoted value: blanks, then the end or the next parameter. -/
def afterQuoted? : List Char → Option (List Char)
  | [] => some []
  | ' ' :: rest => afterQuoted? rest
  | ';' :: rest => some rest
  | _ => none

/-- What follows the value of a parameter, if the value is well formed. A quoted value has at least
one character. -/
def afterValue? (text : List Char) : Option (List Char) :=
  match text with
  | '"' :: first :: rest =>
    if first.toNat < 32 || first.toNat = 127 then none
    else
      let body := rest.takeWhile fun c => c ≠ '"' && 32 ≤ c.toNat && c.toNat ≠ 127
      match rest.drop body.length with
      | '"' :: after => afterQuoted? after
      | _ => none
  | ['"'] => none
  | _ =>
    let value := text.takeWhile isToken
    match text.drop value.length with
    | [] => some []
    | ';' :: after => if value.isEmpty then none else some after
    | _ => none

def wellFormedParameters : Nat → List Char → Bool
  | 0, _ => false
  | fuel + 1, text =>
    match text.dropWhile (· = ' ') with
    | [] => true
    | text =>
      let name := text.takeWhile isToken
      match text.drop name.length with
      | '=' :: after =>
        !name.isEmpty && match afterValue? after with
          | some rest => wellFormedParameters fuel rest
          | none => false
      | _ => false

/-- Reads a content type header. Names are told apart without regard to case. -/
def parse? (header : String) : Option MediaType :=
  let text := header.toList
  let kind := text.takeWhile isToken
  match text.drop kind.length with
  | '/' :: rest =>
    let name := rest.takeWhile isToken
    let (subtype, suffix) := splitSuffix (name.map Char.toLower)
    let mediaType : MediaType := { kind := kind.map Char.toLower, subtype, suffix }
    match rest.drop name.length with
    | [] => if kind.isEmpty then none else some mediaType
    | ';' :: parameters =>
      if kind.isEmpty || name.isEmpty ||
          !wellFormedParameters (parameters.length + 1) parameters then
        none
      else some mediaType
    | _ => none
  | _ => none

def isJson (t : MediaType) : Bool :=
  t.kind = "application".toList &&
    (t.subtype = "json".toList || t.suffix = some "json".toList)

end MediaType

end SocketRanking
