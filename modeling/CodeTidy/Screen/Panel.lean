import CodeTidy.Screen.Wrap
import CodeTidy.Text.Blank
import CodeTidy.Text.Utf8

/-!
# `CodeTidy.Screen.Panel`: panels, tables and listings

A panel is a text in a frame as wide as the text or the title needs, and no wider than the
screen. The title stands in the middle of the upper border and the subtitle in
that of the lower one; what does not fit is cut off.

The header of a table has heavy lines and the body light ones. The title stands above the
table, in its middle. A text that is wider than its column goes on in the next
line of the same row.

Code is shown line by line, with or without line numbers. A line that is too
long is cut off. Code that ends with a line feed shows an empty line after it.
-/

set_option autoImplicit false

namespace CodeTidy.Screen

/-! ### Panels -/

/-- A caption as it stands in a border: on one line, with a space on each side. -/
def caption (t : Text) : Text :=
  " " ++ expandTabs tabStop (t.map (fun c => if c == '\n' then ' ' else c)) ++ " "

/-- A caption in the middle of a border; an odd cell goes to the right. -/
def inBorder (cells : Nat) (t : Text) : Text :=
  let t := crop cells t
  let free := cells - width t
  List.replicate (free / 2) '─' ++ t ++ List.replicate (free - free / 2) '─'

/-- The cells that the widest line of a text takes; line ends take none. -/
def widest (t : Text) : Nat :=
  ((Text.linesWithEnds t).map width).foldl max 0

/-- The lines of a framed text. -/
def panel (title subtitle content : Text) : List Text :=
  let title := caption title
  let inner := min (columns - 2) (max (widest content + 2) (width title + 2))
  let row (l : Text) : Text := "│ " ++ padTo (inner - 2) l ++ " │"
  let top : Text := "╭─" ++ inBorder (inner - 2) title ++ "─╮"
  let bottom : Text := "╰─" ++ inBorder (inner - 2) (caption subtitle) ++ "─╯"
  [top] ++ (wrap (inner - 2) content).map row ++ [bottom]

/-! ### Tables -/

/-- A column of a table. -/
structure Column where
  header : Text
  width : Nat
  alignsRight : Bool

namespace Column

/-- A text as it stands in the column. -/
def cell (c : Column) (t : Text) : Text :=
  let body := if c.alignsRight then padBefore c.width t else padTo c.width t
  " " ++ body ++ " "

/-- The line that goes through the column. -/
def rule (stroke : Char) (c : Column) : Text := List.replicate (c.width + 2) stroke

end Column

/-- The texts of one row, broken into lines of equal number. -/
def rowLines (columns : List Column) (texts : List Text) : List (List Text) :=
  let cells := List.zipWith (fun (c : Column) t => wrap c.width t) columns texts
  let height := (cells.map List.length).foldl max 1
  (List.range height).map (fun i => cells.map (fun lines => lines.getD i []))

/-- A row between `bars`. -/
def row (columns : List Column) (bar : Char) (texts : List Text) : List Text :=
  (rowLines columns texts).map (fun line =>
    [bar] ++ (List.zipWith Column.cell columns line).flatMap (fun cell => cell ++ [bar]))

/-- A line through the table, with the marks at its start, between columns and at its end. -/
def ruleLine (columns : List Column) (start stroke middle finish : Char) : Text :=
  [start] ++ Text.joinWith [middle] (columns.map (Column.rule stroke)) ++ [finish]

/-- A text in the middle of some cells. -/
def centered (cells : Nat) (t : Text) : Text := List.replicate ((cells - width t) / 2) ' ' ++ t

/-- The lines of a table. -/
def grid (title : Text) (columns : List Column) (rows : List (List Text)) : List Text :=
  let top := ruleLine columns '┏' '━' '┳' '┓'
  [centered (width top) title, top] ++
  row columns '┃' (columns.map Column.header) ++
  [ruleLine columns '┡' '━' '╇' '┩'] ++
  rows.flatMap (row columns '│') ++
  [ruleLine columns '└' '─' '┴' '┘']

/-- The cells that the widest of some texts takes. -/
def widestOf (texts : List Text) : Nat := (texts.map width).foldl max 0

/-- The columns of a table that is as wide as its texts. -/
def fittedColumns (headers : List (Text × Bool)) (rows : List (List Text)) : List Column :=
  headers.zipIdx.map (fun ((header, alignsRight), i) =>
    ⟨header, widestOf (header :: rows.map (fun texts => texts.getD i [])), alignsRight⟩)

/-- The columns of a table as wide as the screen: the first one is as wide as its texts, and the
others share what is left. -/
def sharedColumns (headers : List Text) (rows : List (List Text)) : List Column :=
  match headers with
  | [] => []
  | first :: others =>
    let firstWidth := widestOf (first :: rows.map (fun texts => texts.headD []))
    let free := columns - (firstWidth + 3) - 1
    ⟨first, firstWidth, false⟩ :: others.map
      (fun header => ⟨header, free / others.length - 3, false⟩)

end CodeTidy.Screen

/-! ### Listings -/

namespace CodeTidy.Screen.Listing

/-- The distance of tab stops in code. -/
def codeTabStop : Nat := 4

/-- The text without a mark of the byte order before it. -/
def withoutMark : Text → Text
  | '\uFEFF' :: rest => rest
  | t => t

/-- The lines of code as they are shown. -/
def shownLines (code : Text) : List Text :=
  let isClosed := Text.endsWith code "\n"
  let whole := if isClosed then code else code ++ "\n"
  let ls := Text.lines (Text.unifyLineEnds (withoutMark (Text.expandTabs codeTabStop whole)))
  (if isClosed then ls else ls.dropLast).map visible

/-- Code without line numbers. -/
def plain (code : Text) : List Text := (shownLines code).map (crop columns)

/-- Code with line numbers. -/
def numbered (code : Text) : List Text :=
  let digits := (Text.ofNat (code.count '\n' + 1)).length
  (shownLines code).zipIdx.map (fun (l, i) =>
    "  " ++ Text.padLeft digits ' ' (Text.ofNat (i + 1)) ++ " " ++ crop (columns - digits - 3) l)

end CodeTidy.Screen.Listing
