import RequestPlan.Text.Split
import RequestPlan.Text.Width

/-!
# Tables in plain characters

* `Grid.text`: a heading and rows between ruled lines. Cells may have several lines, and
  every column is as wide as its widest line.
-/

namespace RequestPlan.Report

/-- A heading and rows with as many cells each. -/
structure Grid where
  heading : List String
  rows : List (List String)

/-- The lines of a cell. -/
def cellLines (cell : String) : List String := Text.splitOn '\n' cell

/-- The width of the widest line of a cell. -/
def cellWidth (cell : String) : Nat := ((cellLines cell).map Text.width).foldl max 0

/-- The widths of the columns. -/
def Grid.widths (g : Grid) : List Nat :=
  g.rows.foldl (fun ws row => List.zipWith max ws (row.map cellWidth)) (g.heading.map cellWidth)

/-- A ruled line: its first character, the one along it, the one between columns and its
last. -/
def rule (first along between last : Char) (widths : List Nat) : String :=
  String.ofList ([first] ++
    [between].intercalate (widths.map fun w => List.replicate (w + 2) along) ++ [last])

/-- A text with blanks behind it up to a width. -/
def fill (width : Nat) (s : String) : String :=
  s ++ String.ofList (List.replicate (width - Text.width s) ' ')

/-- The lines of a row. -/
def rowLines (widths : List Nat) (row : List String) : List String :=
  let cells := row.map cellLines
  let height := (cells.map List.length).foldl max 0
  (List.range height).map fun i =>
    "| " ++ Text.joinWith " | "
      (List.zipWith (fun w lines => fill w ((lines[i]?).getD "")) widths cells) ++ " |"

/-- Rows with a ruled line between each two. -/
def bodyLines (widths : List Nat) : List (List String) → List String
  | [] => []
  | [row] => rowLines widths row
  | row :: rows => rowLines widths row ++ [rule '|' '-' '+' '|' widths] ++ bodyLines widths rows

/-- The table as text. -/
def Grid.text (g : Grid) : String :=
  let ws := g.widths
  Text.joinWith "\n"
    ([rule '+' '-' '+' '+' ws] ++ rowLines ws g.heading ++ [rule '+' '=' '=' '+' ws] ++
      bodyLines ws g.rows ++ [rule '+' '-' '+' '+' ws])

end RequestPlan.Report
