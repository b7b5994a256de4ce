import Reroute.Text.Rune

/-!
# Tables

Rows of cells with their columns aligned.  Every cell but the last of a row is padded to
the width of its column, which is that of its widest cell and a gap.
-/

namespace Reroute.Table

/-- The blanks between columns. -/
def gap : Nat := 2

/-- The width of a text in characters. -/
def width (text : Bytes) : Nat :=
  (Bytes.runes text).length

/-- The width of the column at a position. -/
def columnWidth (rows : List (List Bytes)) (column : Nat) : Nat :=
  (rows.map fun row => width (row.getD column [])).foldl max 0 + gap

/-- A text with blanks up to a width. -/
def pad (size : Nat) (text : Bytes) : Bytes :=
  text ++ List.replicate (size - width text) 32

def rowText (widths : List Nat) (row : List Bytes) : Bytes :=
  ((row.dropLast.zip widths).flatMap fun (cell, size) => pad size cell)
    ++ row.getLastD [] ++ [Bytes.newline]

/-- The lines of a table with a number of columns. -/
def render (columns : Nat) (rows : List (List Bytes)) : Bytes :=
  let widths := (List.range columns).map (columnWidth rows)
  rows.flatMap (rowText widths)

end Reroute.Table
