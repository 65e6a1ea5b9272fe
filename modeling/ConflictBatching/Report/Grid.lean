import ConflictBatching.Text.Columns

/-! # Grids

A table drawn with box characters. Columns are as wide as their widest line, every cell has a
space on both sides, and a row is as high as its highest cell.
-/
namespace ConflictBatching

/-- The lines of a cell. A line break at the end opens an empty line. -/
def cellLines (text : String) : List String := text.splitOn "\n"

def cellWidth (text : String) : Nat := ((cellLines text).map columns).foldl max 0

/-- An empty column is still one wide. -/
def columnWidth (cells : List String) : Nat := (cells.map cellWidth).foldl max 1

def padRight (width : Nat) (line : String) : String :=
  line ++ String.ofList (List.replicate (width - columns line) ' ')

/-- One line across all columns. -/
def gridLine (widths : List Nat) (texts : List String) : String :=
  "│" ++ "┆".intercalate
    ((widths.zip texts).map fun (width, text) => " " ++ padRight width text ++ " ") ++ "│"

/-- The lines of a row of cells. -/
def gridRow (widths : List Nat) (cells : List String) : List String :=
  let cells := cells.map cellLines
  let height := (cells.map List.length).foldl max 0
  (List.range height).map fun i => gridLine widths (cells.map fun lines => lines.getD i "")

/-- A line between rows. -/
def gridRule (left fill cross right : String) (widths : List Nat) : String :=
  left ++ cross.intercalate
    (widths.map fun width => String.join (List.replicate (width + 2) fill)) ++ right

/-- A header and rows, without a line break at the end. -/
def gridText (header : List String) (rows : List (List String)) : String :=
  let widths := (List.range header.length).map fun i =>
    columnWidth ((header :: rows).map fun row => row.getD i "")
  let between := gridRule "├" "╌" "┼" "┤" widths
  let body := [between].intercalate (rows.map (gridRow widths))
  "\n".intercalate <| [gridRule "┌" "─" "┬" "┐" widths] ++ gridRow widths header ++
    [gridRule "╞" "═" "╪" "╡" widths] ++ body ++ [gridRule "└" "─" "┴" "┘" widths]

end ConflictBatching
