import CodeTidy.Literal
import CodeTidy.Rule.Nesting

/-!
# `CodeTidy.Sql.Format`: formatting queries

Keywords are written in capitals, each clause and join gets a line of its own,
and so do the columns of a select list. Keywords and clauses are looked for
outside strings, quoted names and comments only. On request subqueries are
indented and comments say what a query does.
-/

set_option autoImplicit false

namespace CodeTidy.Sql

open Pattern

/-- The keywords that are written in capitals. -/
def keywords : List String := [
  "SELECT", "FROM", "WHERE", "HAVING", "LIMIT", "OFFSET", "JOIN", "LEFT", "RIGHT", "INNER", "OUTER",
  "FULL", "CROSS", "ON", "AS", "AND", "OR", "IN", "NOT", "NULL", "IS", "LIKE", "BETWEEN", "EXISTS",
  "DISTINCT", "UNION", "ALL", "INSERT", "INTO", "VALUES", "UPDATE", "SET", "DELETE", "CREATE",
  "TABLE", "ALTER", "DROP", "CASE", "WHEN", "THEN", "ELSE", "END", "ASC", "DESC", "WITH"]

/-- The functions over groups of rows. -/
def aggregates : List String := ["COUNT", "SUM", "AVG", "MIN", "MAX"]

/-- One of the words, in any mixture of small and capital letters. -/
def anyCaseOf (ws : List String) : Pattern := oneOf (ws.map (fun w => anyCase w.toList))

/-- A keyword. -/
def keyword : Pattern := seq [boundary, anyCaseOf keywords, boundary]

/-- The name of an aggregate before its argument. -/
def aggregate : Pattern := seq [boundary, anyCaseOf aggregates, .ahead (seq [space, "("])]

/-- The keyword that groups or orders, with the space that it holds. -/
def groupOrOrder : Pattern :=
  seq [boundary, .group 1 (anyCaseOf ["GROUP", "ORDER"]), space1, anyCase "BY", boundary]

/-- A segment with its keywords in capitals. -/
def capitalizeKeywords (t : Text) : Text :=
  let t := keyword.replace (fun m => Text.upper m.text) t
  let t := aggregate.replace (fun m => Text.upper m.text) t
  groupOrOrder.replace (fun m => Text.upper (m.group 1) ++ " BY") t

/-- A keyword that begins a clause, with the white space before it. -/
def clause : Pattern :=
  seq [space, boundary,
    .group 1 (oneOf ["SELECT", "FROM", "WHERE", "GROUP BY", "HAVING", "ORDER BY", "LIMIT",
      seq ["UNION", opt " ALL"]]),
    boundary]

/-- A clause on a new line, unless a parenthesis opens right before it; at the very start of the
text only the white space before it goes. -/
def onNewLine (isFirst : Bool) (m : Match) : Text :=
  if isFirst && m.start.pos == 0 then m.group 1
  else if m.start.follows (· == '(') then m.text
  else "\n" ++ m.group 1

/-- A join with the words that say of which kind it is, and the white space before it. -/
def join : Pattern :=
  seq [space, boundary,
    opt (.group 1 (seq [
      oneOf [
        seq [oneOfWords ["LEFT", "RIGHT", "FULL"], opt (seq [space1, "OUTER"])],
        "INNER", "CROSS", "OUTER"],
      space1])),
    "JOIN", boundary]

/-- A join on a new line, indented, with one space after each word of its kind. -/
def joinOnNewLine (m : Match) : Text :=
  let kind : Text := (Text.words (m.group 1)).flatMap (fun w => w ++ [' '])
  "\n  " ++ kind ++ "JOIN"

/-- A segment with each clause and join on a new line. -/
def breakLines (isFirst : Bool) (t : Text) : Text :=
  join.replace joinOnNewLine (clause.replace (onNewLine isFirst) t)

/-- The pieces of a text with `f` applied outside literals; `f` is told which piece is the
first. -/
def mapGaps (f : Bool → Text → Text) : (isFirst : Bool) → List Segment → Text
  | _, [] => []
  | isFirst, .gap t :: rest => f isFirst t ++ mapGaps f false rest
  | isFirst, .hit m :: rest => m.text ++ mapGaps f isFirst rest

/-- The text with `f` applied outside strings, quoted names and comments. -/
def outsideLiterals (f : Bool → Text → Text) (t : Text) : Text :=
  mapGaps f true (LiteralGrammar.sql.pattern.segments t)

/-- The columns of a query, up to its source, the end of the statement or the end of the text. -/
def selectList : Pattern :=
  seq [boundary, "SELECT", opt (.group 1 (seq [space1, "DISTINCT"])), boundary,
    .group 2 (few CharSet.any),
    .ahead (oneOf [seq ["\nFROM", boundary], ";", textEnd])]

/-- Two or more columns on lines of their own, with single spaces inside. -/
def columnsOnLines (m : Match) : Text :=
  let columns := (splitColumns (m.group 2)).map (fun c => Text.joinWith " " (Text.words c))
  if columns.length < 2 || columns.any List.isEmpty then m.text
  else "SELECT" ++ m.group 1 ++ " " ++ Text.joinWith ",\n  " columns

/-- A query in parentheses that holds none itself. -/
def subquery : Pattern :=
  seq ["(", space, .group 1 (seq ["SELECT", boundary, few (CharSet.except "()")]), space, ")"]

/-- A subquery on lines of its own, indented. -/
def indentSubquery (m : Match) : Text :=
  "(\n" ++ Text.unlines ((Text.lines (m.group 1)).map (fun l => "  " ++ Text.trim l)) ++ "\n)"

/-- The comment on a query with a join. -/
def joinComment : Text := "-- Joining tables"

/-- The comment on a query with aggregates. -/
def aggregateComment : Text := "-- Query includes aggregations"

/-- The comments that a query calls for and does not hold yet. -/
def missingComments (t : Text) : List Text :=
  let joins := (seq [boundary, "JOIN", boundary]).occursIn t
  let aggregated := (seq [boundary, oneOfWords aggregates, space, "("]).occursIn t
  (if joins && !Text.holds t joinComment then [joinComment] else []) ++
    (if aggregated && !Text.holds t aggregateComment then [aggregateComment] else [])

/-- The text with comments that say what the query does. -/
def addComments (t : Text) : Text := Text.unlines (missingComments t ++ [t])

/-- The text without white space at the ends of lines, without empty lines at its start, and with
a line end if `before` has one. -/
def tidyLines (before t : Text) : Text :=
  let t := (Text.unlines ((Text.lines t).map Text.trimEnd)).dropWhile (· == '\n')
  if Text.endsWith before "\n" && !Text.endsWith t "\n" then t ++ "\n" else t

/-- The formatted query. Subqueries are indented if `aggressive`, and then comments may be
added. -/
def format (aggressive comments : Bool) (t : Text) : Text :=
  let r := outsideLiterals (fun _ => capitalizeKeywords) t
  let r := outsideLiterals breakLines r
  let r := selectList.replace columnsOnLines r
  let r := if aggressive then subquery.replace indentSubquery r else r
  let r := if aggressive && comments then addComments r else r
  tidyLines t r

end CodeTidy.Sql
