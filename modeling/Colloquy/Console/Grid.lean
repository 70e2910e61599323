import Colloquy.Text.Blank
import Colloquy.Text.Width
/-!
# Grids

A grid has a header and rows, and every column is as wide as its widest line.
A cell may have several lines; the row is then as high as its highest cell.
-/

namespace Colloquy.Console

/-- A header and rows below it. -/
structure Grid where
  header : List String
  rows : List (List String)

namespace Grid

/-- The lines of a cell. -/
def lines (cell : String) : List String :=
  (Text.splitOnChar '\n' cell.toList).map String.ofList

/-- The columns that a cell needs. -/
def cellWidth (cell : String) : Nat :=
  (lines cell).foldl (fun width line => max width (Text.displayWidth line)) 0

/-- The wider of two lists of widths, column by column. -/
def wider : List Nat → List Nat → List Nat
  | [], ws => ws
  | ws, [] => ws
  | v :: vs, w :: ws => max v w :: wider vs ws

/-- The widths of the columns. -/
def widths (g : Grid) : List Nat :=
  g.rows.foldl (fun ws row => wider ws (row.map cellWidth)) (g.header.map cellWidth)

/-- A line across the grid: one character for each column in a cell, and others
at the left, between the cells and at the right. -/
def rule (left fill middle right : String) (widths : List Nat) : String :=
  left ++ middle.intercalate (widths.map fun w => String.join (List.replicate (w + 2) fill)) ++
    right

/-- A line of a cell with spaces up to the width of its column. -/
def padded (width : Nat) (line : String) : String :=
  " " ++ line ++ String.ofList (List.replicate (width - Text.displayWidth line) ' ') ++ " "

/-- The lines of a row. -/
def rowLines (widths : List Nat) (row : List String) : List String :=
  let cells := row.map lines
  let height := cells.foldl (fun h ls => max h ls.length) 1
  (List.range height).map fun i =>
    "│" ++ "┆".intercalate ((cells.zip widths).map fun (ls, w) => padded w (ls.getD i "")) ++ "│"

/-- The text of a grid. -/
def text (g : Grid) : String :=
  let ws := g.widths
  "\n".intercalate ([rule "┌" "─" "┬" "┐" ws] ++ rowLines ws g.header ++
    [rule "╞" "═" "╪" "╡" ws] ++ g.rows.flatMap (rowLines ws) ++ [rule "└" "─" "┴" "┘" ws])

end Grid

end Colloquy.Console
