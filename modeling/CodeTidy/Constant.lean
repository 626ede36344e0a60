import CodeTidy.Literal

/-!
# `CodeTidy.Constant`: numbers that deserve a name

A number of three digits or more that is repeated in the code gets a named
constant. Some numbers have a name of their own, and round numbers get none.
-/

set_option autoImplicit false

namespace CodeTidy.Constant

open Pattern

/-- A whole number of three digits or more that is no part of a name or of a decimal. -/
def number : Pattern :=
  let isPart := CharSet.or Text.isWord (CharSet.of ".")
  seq [notAfter isPart, .run .most 3 Text.isDecimal, .notAhead (.one isPart)]

/-- The numbers that speak for themselves. -/
def commonNumbers : List Text := ["100", "1000"]

/-- The numbers that have a name. -/
def knownNames : List (Text × Text) := [
  ("365", "DAYS_PER_YEAR"),
  ("1024", "BYTES_PER_KB"),
  ("3600", "SECONDS_PER_HOUR"),
  ("86400", "SECONDS_PER_DAY")]

/-- The name of the constant for a number. -/
def name (n : Text) : Text := (knownNames.lookup n).getD ("CONSTANT_" ++ n)

/-- The numbers in the code of a text, in order. -/
def numbersIn (g : LiteralGrammar) (t : Text) : List Text :=
  (number.hits (g.codeOnly t)).map Match.text

/-- The numbers that occur at least `least` times, in the order in which they occur first, without
the common ones. -/
def repeated (least : Nat) (ns : List Text) : List Text :=
  ns.eraseDups.filter (fun n => least ≤ ns.count n && !commonNumbers.elem n)

/-- The text with names for the given numbers outside strings and comments. -/
def substitute (g : LiteralGrammar) (ns : List Text) (t : Text) : Text :=
  g.replaceOutside number (fun m => if ns.elem m.text then name m.text else m.text) t

end CodeTidy.Constant
