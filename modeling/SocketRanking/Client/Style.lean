/-!
# Terminal styles

Text in colours, by the escape sequences of terminals. Without colours the text stays as it is.
-/

namespace SocketRanking.Client

/-- Whether the terminal shows colours. -/
inductive Palette where
  | plain
  | coloured
  deriving DecidableEq, Repr

/-- The palette that the environment asks for: `force` and `forbid` decide wherever the text goes,
`shown` decides on a terminal. A zero means no. -/
def Palette.choose (force forbid shown : Option String) (terminal : Bool) : Palette :=
  if force.isSome && force ≠ some "0" then .coloured
  else if forbid.isSome then .plain
  else if terminal && shown ≠ some "0" then .coloured
  else .plain

inductive Colour where
  | red
  | green
  | yellow
  | blue
  | cyan
  deriving DecidableEq, Repr

def Colour.code : Colour → String
  | red => "31"
  | green => "32"
  | yellow => "33"
  | blue => "34"
  | cyan => "36"

/-- How a text is shown. -/
structure Style where
  bold : Bool := false
  colour : Option Colour := none
  deriving DecidableEq, Repr

namespace Style

/-- The sequence that ends a style. -/
def reset : String :=
  "\x1b[0m"

def start (s : Style) : String :=
  let bold := if s.bold then ["1"] else []
  let colour := match s.colour with
    | some c => [c.code]
    | none => []
  "\x1b[" ++ ";".intercalate (bold ++ colour) ++ "m"

/-- A text in a style. Where the text ends a style itself, the style begins again. -/
def paint (s : Style) (palette : Palette) (text : String) : String :=
  match palette with
  | .plain => text
  | .coloured => s.start ++ (reset ++ s.start).intercalate (text.splitOn reset) ++ reset

end Style

def Palette.colour (palette : Palette) (colour : Colour) (text : String) : String :=
  Style.paint { colour := some colour } palette text

def Palette.bold (palette : Palette) (text : String) : String :=
  Style.paint { bold := true } palette text

def Palette.boldColour (palette : Palette) (colour : Colour) (text : String) : String :=
  Style.paint { bold := true, colour := some colour } palette text

end SocketRanking.Client
