import NodeShader.Number.FloatFormat
import NodeShader.Text.Cluster

/-!
# Tables

Tables in boxes. A column is four cells wider than its longest text. Headers are centred; below them
the first column keeps to the left and the others to the right, one cell from the edge.
-/

namespace NodeShader.Command

structure Table where
  headers : List String
  rows : List (List String)

def blanks (n : Nat) : String := String.ofList (List.replicate n ' ')

/-- A title: an empty line and the lines of the text, with four cells on both sides. -/
def title (text : String) : String :=
  let text := text.replace "\t" (blanks 4)
  let across := Text.width text
  let line (s : String) : String := blanks 4 ++ s ++ blanks (across - Text.width s + 4) ++ "\n"
  blanks (across + 8) ++ "\n" ++ String.join ((Text.lines text).map line)

namespace Table

/-- The width of column `i`. -/
def columnWidth (t : Table) (i : Nat) : Nat :=
  let texts := (t.headers :: t.rows).filterMap (·[i]?)
  (texts.map Text.width).foldl max 0 + 4

def widths (t : Table) : List Nat := (List.range t.headers.length).map t.columnWidth

/-- A horizontal line with its left end, crossings and right end. -/
def rule (widths : List Nat) (left crossing right : String) : String :=
  let parts := widths.map fun w => String.ofList (List.replicate w '─')
  left ++ crossing.intercalate parts ++ right ++ "\n"

/-- A text in the middle of a cell; an odd blank goes to the right. -/
def centred (w : Nat) (s : String) : String :=
  let free := w - Text.width s
  blanks (free / 2) ++ s ++ blanks (free - free / 2)

/-- A line of text in column `i`. -/
def cell (i w : Nat) (s : String) : String :=
  let free := blanks (w - 1 - Text.width s)
  if i = 0 then " " ++ s ++ free else free ++ s ++ " "

/-- A line of cells between bars. -/
def line (cells : List String) : String := "│" ++ "│".intercalate cells ++ "│\n"

/-- A row, which is as high as its highest cell. -/
def rowText (widths : List Nat) (row : List String) : String :=
  let cells := row.map Text.lines
  let height := (cells.map List.length).foldl max 1
  let part (k : Nat) : List String :=
    (widths.zip cells).zipIdx.map fun ((w, ls), i) => cell i w (ls.getD k "")
  String.join ((List.range height).map fun k => line (part k))

def render (t : Table) : String :=
  let ws := t.widths
  rule ws "┌" "┬" "┐" ++ line (List.zipWith centred ws t.headers) ++ rule ws "├" "┼" "┤"
    ++ String.join (t.rows.map (rowText ws)) ++ rule ws "└" "┴" "┘"

end Table

/-! ### Counts and sizes -/

/-- A count with a comma after every three digits from the right. -/
def grouped (n : Nat) : String :=
  let digits := Nat.toDigits 10 n
  let marked := digits.zipIdx.flatMap fun (c, i) =>
    if i ≠ 0 ∧ (digits.length - i) % 3 = 0 then [',', c] else [c]
  String.ofList marked

/-- The units of sizes, each a thousand of the one before. -/
def sizeUnits : List String := ["B", "kB", "MB", "GB", "TB", "PB", "EB"]

/-- The number of times a thousand goes into a size. -/
def thousands : (fuel n : Nat) → Nat
  | 0, _ => 0
  | fuel + 1, n => if n < 1000 then 0 else thousands fuel (n / 1000) + 1

/-- A size in bytes in the largest unit it holds, with one decimal below ten. -/
def sizeText (n : Nat) : String :=
  if n < 10 then s!"{n} B"
  else
    let e := thousands (sizeUnits.length - 1) n
    let unit := sizeUnits.getD e ""
    let tenths := (n * 20 + Nat.pow 1000 e) / (2 * Nat.pow 1000 e)
    if tenths < 100 then s!"{tenths / 10}.{tenths % 10} {unit}"
    else s!"{FloatFormat.roundQuotient tenths 10} {unit}"

end NodeShader.Command
