namespace Crosscheck.Text

/-- Splits text into cells; each line has at least one. A tab or a vertical tab ends a cell, and a
line break ends a line. -/
def cellsOf : List Char → List (List (List Char))
  | [] => [[[]]]
  | c :: rest =>
    match cellsOf rest with
    | (cell :: cells) :: lines =>
      if c = '\n' then [[]] :: (cell :: cells) :: lines
      else if c = '\t' ∨ c = '\x0b' then ([] :: cell :: cells) :: lines
      else ((c :: cell) :: cells) :: lines
    | _ => [[[]]]

def greatestSoFar : Nat → List (Option Nat) → List (Option Nat)
  | _, [] => []
  | _, none :: rest => none :: greatestSoFar 0 rest
  | m, some n :: rest => some (max m n) :: greatestSoFar (max m n) rest

def greatestInRun (sizes : List (Option Nat)) : List (Option Nat) :=
  (greatestSoFar 0 (greatestSoFar 0 sizes).reverse).reverse

def closedCellSize (column : Nat) (cells : List (List Char)) : Option Nat :=
  if column + 1 < cells.length then (cells[column]?).map List.length else none

def columnWidths (lines : List (List (List Char))) (column : Nat) : List (Option Nat) :=
  greatestInRun (lines.map (closedCellSize column))

/-- A cell is filled up to the width of its column; the last one of a line is not. -/
def alignedLine (padding : Nat) (widths : List (Option Nat)) (line : List (List Char)) :
    List Char :=
  (line.zip widths).flatMap fun (cell, width) =>
    match width with
    | some w => cell.rightpad (w + padding) ' '
    | none => cell

def alignedLines (padding : Nat) (lines : List (List (List Char))) : List (List Char) :=
  let columns := (lines.map List.length).foldl max 0
  let widths := (List.range columns).map (columnWidths lines)
  (List.range lines.length).zip lines |>.map fun (i, line) =>
    alignedLine padding (widths.map fun column => (column[i]?).join) line

/-- Aligns the columns of a table. A form feed ends a table and its line. -/
def aligned (padding : Nat) (text : String) : String :=
  let tables := text.toList.splitOn '\x0c'
  let shown := tables.map fun table =>
    ['\n'].intercalate (alignedLines padding (cellsOf table))
  String.ofList (['\n'].intercalate shown)

end Crosscheck.Text
