import SocketRanking.Text.Width

/-!
# Tables

A table is drawn with round corners: a header, a line below it, and the rows. Columns are as wide as
their widest line, cells stand at the left with a blank on both sides, and a line break in a cell
makes its row higher.
-/

namespace SocketRanking.Client

/-- A header and rows of cells. -/
structure Table where
  header : List String
  rows : List (List String)

namespace Table

def cellLines (cell : String) : List String :=
  cell.splitOn "\n"

def cellWidth (cell : String) : Nat :=
  (cellLines cell).foldl (fun n line => max n (Text.width line)) 0

/-- The wider of two widths in every column. -/
def widen : List Nat → List String → List Nat
  | n :: widths, cell :: cells => max n (cellWidth cell) :: widen widths cells
  | [], cells => cells.map cellWidth
  | widths, [] => widths

def widths (t : Table) : List Nat :=
  (t.header :: t.rows).foldl widen []

/-- A line with blanks up to a width. -/
def pad (width : Nat) (line : String) : String :=
  line ++ String.ofList (List.replicate (width - Text.width line) ' ')

/-- A horizontal line with these joints. -/
def rule (left joint right : String) (widths : List Nat) : String :=
  let segment (n : Nat) : String := String.ofList (List.replicate (n + 2) '─')
  left ++ joint.intercalate (widths.map segment) ++ right

def rowLines (widths : List Nat) (cells : List String) : List String :=
  let lines := cells.map cellLines
  let height := lines.foldl (fun n ls => max n ls.length) 1
  (List.range height).map fun i =>
    let shown := (widths.zip lines).map fun (n, ls) => " " ++ pad n (ls[i]?.getD "") ++ " "
    "│" ++ "│".intercalate shown ++ "│"

def lines (t : Table) : List String :=
  let ws := t.widths
  [rule "╭" "┬" "╮" ws] ++ rowLines ws t.header ++ [rule "├" "┼" "┤" ws] ++
    t.rows.flatMap (rowLines ws) ++ [rule "╰" "┴" "╯" ws]

end Table

end SocketRanking.Client
