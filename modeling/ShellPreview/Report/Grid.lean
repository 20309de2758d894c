import ShellPreview.Text.Width
/-!
# Grids

A table with lines around all cells. A column is as wide as its widest
line, with a blank on either side; a cell may have several lines, and a
row is as high as its highest cell.
-/

namespace ShellPreview.Report

/-- The lines of a cell. -/
def cellLines (cell : String) : List (List Char) :=
  cell.toList.splitOn '\n'

/-- The columns that a cell takes. -/
def cellWidth (cell : String) : Nat :=
  ((cellLines cell).map Text.width).foldl max 0

/-- The widths of the columns, of which there are as many as cells in the
header. -/
def columnWidths (header : List String) (rows : List (List String)) : List Nat :=
  rows.foldl (fun widths row => List.zipWith max widths (row.map cellWidth)) (header.map cellWidth)

/-- A line of a cell, filled up to the width of its column. -/
def padded (width : Nat) (line : List Char) : List Char :=
  ' ' :: (line ++ List.replicate (width - Text.width line) ' ' ++ [' '])

/-- Pieces between a left and a right end, with a separator between
them. -/
def joined (left separator right : Char) (pieces : List (List Char)) : List Char :=
  left :: (List.intercalate [separator] pieces ++ [right])

/-- A line that separates rows. -/
def ruled (left fill separator right : Char) (widths : List Nat) : List Char :=
  joined left separator right (widths.map fun w => List.replicate (w + 2) fill)

/-- The lines of a row. -/
def rowLines (widths : List Nat) (row : List String) : List (List Char) :=
  let cells := row.map cellLines
  let height := (cells.map List.length).foldl max 1
  (List.range height).map fun i =>
    joined '│' '┆' '│' (List.zipWith (fun w cell => padded w (cell.getD i [])) widths cells)

/-- The lines of the rows under the header, with a line between two rows. -/
def bodyLines (widths : List Nat) (rows : List (List String)) : List (List Char) :=
  List.intercalate [ruled '├' '╌' '┼' '┤' widths] (rows.map (rowLines widths))

/-- A grid, without a line break at its end. -/
def grid (header : List String) (rows : List (List String)) : String :=
  let widths := columnWidths header rows
  let lines := [ruled '┌' '─' '┬' '┐' widths] ++ rowLines widths header ++
    [ruled '╞' '═' '╪' '╡' widths] ++ bodyLines widths rows ++ [ruled '└' '─' '┴' '┘' widths]
  String.ofList (List.intercalate ['\n'] lines)

end ShellPreview.Report
