import CodeTidy.Notebook.Hoist
import CodeTidy.Proofs.Constant.Numbers
import CodeTidy.Proofs.Notebook.Constants

/-!
# `CodeTidy.Proofs.Notebook.Hoisted`: what is left after numbers are hoisted

Numbers that move into the cell of constants are written there once and
nowhere else, and all others are left where they were. So there is nothing to
hoist a second time. The theorems:

* `numbersIn_constantsSource`: the cell of constants holds each number once.
* `numbers_hoisted`: the numbers in the code cells, counted again.
* `hoistConstants_idempotent`: hoisting again changes nothing.
-/

set_option autoImplicit false

namespace CodeTidy

open Text Constant

/-- The lines behind the first one, each with the line feed in front of it. -/
theorem unlines_cons_eq (l : Text) (ls : List Text) :
    unlines (l :: ls) = l ++ ls.flatMap (fun l => '\n' :: l) := by
  induction ls generalizing l with
  | nil => rw [unlines_singleton, List.flatMap_nil, List.append_nil]
  | cons l' ls ih =>
    rw [unlines_cons l (List.cons_ne_nil l' ls), ih, List.flatMap_cons, List.cons_append]

namespace Notebook

/-! ### The cell of constants -/

/-- What a line that defines a constant is read as. -/
def definitionTokens (n : Text) : List Token :=
  .plain '\n' :: ((name n).map .plain ++ (" = ".toList.map .plain ++ [.hit n n]))

/-- The tokens of a definition: a line feed, the name, the sign and the number, which is a match. -/
theorem definitionTokens_append (n : Text) (ts : List Token) :
    definitionTokens n ++ ts =
      .plain '\n' :: ((name n).map .plain ++ (" = ".toList.map .plain ++ (.hit n n :: ts))) := by
  rw [definitionTokens, List.cons_append, List.append_assoc, List.append_assoc]
  rfl

section

variable {ns : List Text}

/-- The tokens make up the definitions, each on a line of its own. -/
theorem oldText_definitionTokens (ns : List Text) :
    oldText (ns.flatMap definitionTokens) =
      ns.flatMap (fun n => '\n' :: Constant.definition n) := by
  induction ns with
  | nil => rfl
  | cons n ns ih =>
    rw [List.flatMap_cons, List.flatMap_cons, definitionTokens_append, ← ih]
    show '\n' :: oldText ((name n).map .plain ++ _) = _
    rw [oldText_plain, oldText_plain, Constant.definition]
    show '\n' :: (name n ++ (" = " ++ (n ++ _))) = '\n' :: (name n ++ " = " ++ n) ++ _
    rw [List.cons_append, List.append_assoc, List.append_assoc]
    rfl

/-- Each definition holds its number as a match, which stays. -/
theorem hitsIn_definitionTokens (ns : List Text) :
    hitsIn (ns.flatMap definitionTokens) = ns.map (fun n => (n, n)) := by
  induction ns with
  | nil => rfl
  | cons n ns ih =>
    rw [List.flatMap_cons, definitionTokens_append, List.map_cons, ← ih]
    show hitsIn ((name n).map .plain ++ _) = _
    rw [hitsIn_plain, hitsIn_plain]
    rfl

/-- A character that is no part of a word is a token of its own where no literal begins with it. -/
theorem scans_cons_plain {g : LiteralGrammar} {a : Char} {ts : List Token} (ha : isPart a = false)
    (behind : Bool) (hnone : g.literal? (a :: oldText ts) = none)
    (h : Scans (numberScanner g) false ts) :
    Scans (numberScanner g) behind (.plain a :: ts) := by
  rw [← ha] at h
  refine .plain hnone (number?_cons ?_ _ _) h
  rw [← Bool.not_eq_true]
  intro hdecimal
  rw [isPart_of_isDecimal hdecimal] at ha
  cases ha

/-- The tokens are what the scanner reads: no number is found in a name. -/
theorem scans_definitionTokens (h : ∀ n ∈ ns, IsNumber n) (behind : Bool) :
    Scans (numberScanner .python) behind (ns.flatMap definitionTokens) := by
  induction ns generalizing behind with
  | nil => exact .stop behind
  | cons n ns ih =>
    rw [List.forall_mem_cons] at h
    have hnumber : Scans (numberScanner .python) false
        (.hit n n :: ns.flatMap definitionTokens) := by
      have hhead : (oldText (ns.flatMap definitionTokens)).head?.any isPart = false := by
        cases ns <;> rfl
      refine .hit (fun w hw hne => literal?_append_of_all_isPart h.1.all_isPart hw hne)
        ⟨?_, .inl rfl⟩ (ih h.2 _)
      rw [number?_eq_some_iff, takeWhile_append_of_number h.1, takeWhile_eq_nil_iff.mpr hhead,
        List.append_nil]
      exact ⟨rfl, h.1, rfl⟩
    rw [List.flatMap_cons, definitionTokens_append]
    refine scans_cons_plain (by decide) behind rfl (scans_name h.1 false ?_)
    exact scans_cons_plain (by decide) true rfl (scans_cons_plain (by decide) false rfl
      (scans_cons_plain (by decide) false rfl hnumber))

/-- The cell of constants holds each number once. -/
theorem numbersIn_constantsSource (h : ∀ n ∈ ns, IsNumber n) :
    numbersIn .python (constantsSource ns) = ns := by
  have hbehind : oldText (.literal constantsHeader :: ns.flatMap definitionTokens) =
      constantsSource ns := by
    show constantsHeader ++ oldText (ns.flatMap definitionTokens) = _
    rw [oldText_definitionTokens, constantsSource, unlines_cons_eq, List.flatMap_map]
  -- The header is a comment, which ends at its line feed, and the definitions come behind it.
  have hscans : Scans (numberScanner .python) false
      (.literal constantsHeader :: ns.flatMap definitionTokens) := by
    refine .literal ?_ (scans_definitionTokens h _)
    obtain ⟨w, hheader⟩ : ∃ w, constantsHeader = '#' :: w := ⟨constantsHeader.tail, rfl⟩
    have hline : constantsHeader.all (· != '\n') = true := by decide
    have hrest : (oldText (ns.flatMap definitionTokens)).takeWhile (· != '\n') = [] := by
      cases ns <;> rfl
    rw [hheader, List.all_cons, Bool.and_eq_true] at hline
    rw [hheader]
    show some ('#' :: (w ++ oldText (ns.flatMap definitionTokens)).takeWhile (· != '\n')) = _
    rw [List.takeWhile_append_of_pos (List.all_eq_true.mp hline.2), hrest, List.append_nil]
  rw [← hbehind, numbersIn_oldText hscans]
  show (hitsIn (ns.flatMap definitionTokens)).map Prod.fst = ns
  rw [hitsIn_definitionTokens, List.map_map]
  exact List.map_id ns

end

/-! ### Counting again -/

/-- Names for numbers change no kind of cell. -/
theorem isCode_nameNumbers (ns : List Text) (cell : Cell) :
    (nameNumbers ns cell).isCode = cell.isCode := by
  rw [nameNumbers]
  split
  · exact isCode_update _ cell
  · rfl

/-- The cells in front of the first one with code hold none. -/
theorem filter_isCode_beforeCode (extra cells : List Cell) :
    (beforeCode extra cells).filter Cell.isCode =
      extra.filter Cell.isCode ++ cells.filter Cell.isCode := by
  have hfront : (cells.takeWhile (fun c => !c.isCode)).filter Cell.isCode = [] := by
    rw [List.filter_eq_nil_iff]
    intro c hc
    have hother := List.mem_takeWhile_imp hc
    rwa [Bool.not_eq_true', ← Bool.not_eq_true] at hother
  have hall : cells.filter Cell.isCode =
      (cells.dropWhile (fun c => !c.isCode)).filter Cell.isCode := by
    rw [← List.nil_append ((cells.dropWhile _).filter _), ← hfront, ← List.filter_append,
      List.takeWhile_append_dropWhile]
  rw [beforeCode, List.filter_append, List.filter_append, hfront, List.nil_append, hall]

/-- The numbers in the code cells, in order. -/
def numbersOf (cells : List Cell) : List Text :=
  (cells.filter Cell.isCode).flatMap (fun c => numbersIn .python c.source)

/-- The numbers that are hoisted are those that the cells repeat. -/
theorem hoistedNumbers_eq (cells : List Cell) :
    hoistedNumbers cells = repeated minRepeats (numbersOf cells) := rfl

/-- After numbers are hoisted the code cells hold them once, and all others as before. -/
theorem numbers_hoisted {ns : List Text} (h : ∀ n ∈ ns, IsNumber n) (cells : List Cell) :
    numbersOf (beforeCode (constantCells ns) (cells.map (nameNumbers ns))) =
      ns ++ (numbersOf cells).filter (fun n => !ns.elem n) := by
  have hsame : (fun c : Cell => (nameNumbers ns c).isCode) = Cell.isCode :=
    funext (isCode_nameNumbers ns)
  have hnamed : ((cells.map (nameNumbers ns)).filter Cell.isCode).flatMap
      (fun c => numbersIn .python c.source) =
        (numbersOf cells).filter (fun n => !ns.elem n) := by
    rw [numbersOf, List.filter_map, List.flatMap_map, List.filter_flatMap]
    show (cells.filter (fun c => (nameNumbers ns c).isCode)).flatMap _ = _
    rw [hsame]
    refine List.flatMap_congr fun c hc => ?_
    have hcode : c.isCode = true := (List.mem_filter.mp hc).2
    rw [nameNumbers, if_pos hcode, Cell.source_update _ hcode, numbersIn_substitute]
  have hconstants : (constantCells ns).filter Cell.isCode = [constantsCell ns] := rfl
  rw [numbersOf, filter_isCode_beforeCode, List.flatMap_append, hnamed, hconstants,
    List.flatMap_singleton, constantsCell, Cell.source_newCode, numbersIn_constantsSource h]

/-- Hoisting again changes nothing. -/
theorem hoistConstants_idempotent (cells : List Cell) :
    hoistConstants (hoistConstants cells) = hoistConstants cells := by
  by_cases hnone : (hoistedNumbers cells).isEmpty = true
  · have hsame : hoistConstants cells = cells := if_pos hnone
    rw [hsame, hsame]
  · have hfirst : hoistConstants cells = beforeCode (constantCells (hoistedNumbers cells))
        (cells.map (nameNumbers (hoistedNumbers cells))) := if_neg hnone
    have hnumbers : ∀ n ∈ hoistedNumbers cells, IsNumber n := fun _ =>
      isNumber_of_mem_hoistedNumbers
    rw [hfirst]
    refine if_pos ?_
    rw [List.isEmpty_iff, hoistedNumbers_eq (beforeCode _ _), numbers_hoisted hnumbers,
      List.eq_nil_iff_forall_not_mem]
    intro n hn
    obtain ⟨hcommon, htwice⟩ := (mem_repeated_iff (by decide)).mp hn
    rw [List.count_append] at htwice
    by_cases hhoisted : n ∈ hoistedNumbers cells
    · -- It is written in the cell of constants, and nowhere else.
      have hgone : n ∉ (numbersOf cells).filter (fun n => !(hoistedNumbers cells).elem n) := by
        rw [List.mem_filter, List.elem_eq_true_of_mem hhoisted]
        exact fun h => nomatch h.2
      have honce := List.nodup_iff_count_le_one.mp (nodup_repeated minRepeats (numbersOf cells)) n
      rw [List.count_eq_zero_of_not_mem hgone] at htwice
      exact absurd (Nat.le_trans htwice honce) (by decide)
    · -- It occurs as often as before, so it would have been hoisted.
      have hsame : ((numbersOf cells).filter (fun n => !(hoistedNumbers cells).elem n)).count n =
          (numbersOf cells).count n := by
        refine List.count_filter ?_
        rw [Bool.not_eq_true', ← Bool.not_eq_true, List.elem_iff]
        exact hhoisted
      rw [List.count_eq_zero_of_not_mem hhoisted, Nat.zero_add, hsame] at htwice
      exact hhoisted ((mem_repeated_iff (by decide)).mpr ⟨hcommon, htwice⟩)

end Notebook

end CodeTidy
