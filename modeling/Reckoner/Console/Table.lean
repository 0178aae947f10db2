/-
  Tables drawn with lines.

  * `Table.render`: rows of cells in columns as wide as their widest line, with lines around
    all cells.
-/
import Reckoner.Text.Width

namespace Reckoner.Console

/-- A table: rows of as many cells. -/
abbrev Table := List (List String)

namespace Table

/-- The lines of a cell. -/
def lines (cell : String) : List (List Char) := cell.toList.splitOn '\n'

/-- The number of columns that a cell takes. -/
def cellWidth (cell : String) : Nat :=
  ((lines cell).map Text.width).foldl max 0

/-- The width of each column. -/
def widths : Table → List Nat
  | [] => []
  | [row] => row.map cellWidth
  | row :: rows => List.zipWith max (row.map cellWidth) (widths rows)

/-- A line across the table, between corners and with crossings. -/
def rule (widths : List Nat) (left cross right : Char) : List Char :=
  left :: List.intercalate [cross] (widths.map fun w => List.replicate (w + 2) '─') ++ [right]

/-- A line of a cell with spaces up to the width of its column. -/
def fill (width : Nat) (line : List Char) : List Char :=
  line ++ List.replicate (width - Text.width line) ' '

/-- The `i`-th lines of the cells of a row. -/
def rowLine (widths : List Nat) (cells : List (List (List Char))) (i : Nat) : List Char :=
  let parts := List.zipWith (fun w ls => ' ' :: fill w (ls[i]?.getD []) ++ [' ']) widths cells
  '│' :: List.intercalate ['│'] parts ++ ['│']

/-- A row, as high as its highest cell. -/
def row (widths : List Nat) (cells : List String) : List (List Char) :=
  let cells := cells.map lines
  (List.range ((cells.map List.length).foldl max 0)).map (rowLine widths cells)

/-- The table with lines around all cells. -/
def render (t : Table) : String :=
  let ws := widths t
  let rows := t.map (row ws)
  let body := List.intercalate [rule ws '├' '┼' '┤'] rows
  let all := rule ws '┌' '┬' '┐' :: body ++ [rule ws '└' '┴' '┘']
  String.ofList (List.intercalate ['\n'] all)

end Table

end Reckoner.Console
