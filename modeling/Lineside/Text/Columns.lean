/-!
Text in columns. A cell is text that ends in a tab, and a column is a run of consecutive lines that have a
cell in the same place; its cells are padded to the widest of them and two more. What follows the last
tab of a line is left as it is, and a form feed ends all columns.
-/

namespace Lineside.Text

def splitAtMarks (isMark : Char → Bool) : List Char → List (List Char)
  | [] => [[]]
  | c :: rest =>
    if isMark c then [] :: splitAtMarks isMark rest
    else match splitAtMarks isMark rest with
      | [] => [[c]]
      | first :: others => (c :: first) :: others

/-- The cells of a line, and the text behind them as the last entry. -/
abbrev Row := List (List Char)

namespace Row

def has (column : Nat) (row : Row) : Bool := decide (column + 1 < row.length)

def width (column : Nat) (row : Row) : Nat := (row.getD column []).length

def pad (column width : Nat) (row : Row) : Row :=
  row.modify column fun cell => cell ++ List.replicate (width - cell.length) ' '

end Row

/-- Pads a column in consecutive rows that all have it, or leaves rows that do not. -/
def padRun (column : Nat) (rows : List Row) : List Row :=
  if rows.all (Row.has column) then
    let width := (rows.map (Row.width column)).foldl max 0 + 2
    rows.map (Row.pad column width)
  else rows

def padColumn (rows : List Row) (column : Nat) : List Row :=
  (rows.splitBy fun a b => a.has column == b.has column).flatMap (padRun column)

def padRows (rows : List Row) : List Row :=
  (List.range ((rows.map List.length).foldl max 0)).foldl padColumn rows

def alignLines (cs : List Char) : List Char :=
  let rows := (splitAtMarks (· == '\n') cs).map (splitAtMarks fun c => c == '\t' || c == '\x0b')
  ['\n'].intercalate ((padRows rows).map List.flatten)

def align (text : String) : String :=
  String.ofList (['\n'].intercalate ((splitAtMarks (· == '\x0c') text.toList).map alignLines))

end Lineside.Text
