import CodeTidy.Quality.Finding
import CodeTidy.Proofs.Constant.Names
import CodeTidy.Proofs.Except
import CodeTidy.Proofs.Text.LineStarts

/-!
# `CodeTidy.Proofs.Quality.Finding`: findings point at what they are about

The three scans find their places in different ways: the long lines are
numbered, the other places are positions that are turned into line numbers.
`Finding.PointsInto` says what a finding promises about a text: its line is a
line of the text, and its code stands there. `Scans` says which texts are
scanned: a text as a whole, or the sources of the code cells of a notebook. The
theorems:

* `mem_longLines_iff`, `pointsInto_nesting`, `pointsInto_magicNumber`: the scans
  one by one.
* `pointsInto_scan`, `countP_isNesting_scan`, `countP_isNumber_scan`,
  `longLine_mem_scan`: the findings in one text.
* `filter_scanCells`: the findings in a cell are those in its source.
* `findings_point_into_text`: the findings in a text, which may be a notebook.
-/

set_option autoImplicit false

namespace CodeTidy.Quality

open Pattern
open Text (lines unlines lastLine)

/-! ### What a finding promises -/

/-- The title of a long line. -/
def lengthTitle (n : Nat) : Text := "Line too long (" ++ Text.ofNat n ++ " characters)"

/-- The title of nested control flow. -/
def nestingTitle : Text := "Deeply nested control flow"

/-- What the titles of numbers without a name begin with. -/
def numberMark : Text := "Magic number "

/-- The title of a number without a name. -/
def numberTitle (n : Text) : Text := numberMark ++ n ++ " should be a named constant"

namespace Finding

/-- Whether the finding is one of nested control flow. -/
def isNesting (f : Finding) : Bool := f.title == nestingTitle

/-- Whether the finding is one of a number without a name. -/
def isNumber (f : Finding) : Bool := Text.startsWith f.title numberMark

/-- The code is a line of the text, and that is long. -/
def ShowsLine (f : Finding) (t : Text) : Prop :=
  f.title = lengthTitle f.code.length ∧ 100 < f.code.length ∧ (lines t)[f.line - 1]? = some f.code

/-- The code is what the text begins with from the line on. -/
def ShowsNesting (f : Finding) (t : Text) : Prop :=
  f.title = nestingTitle ∧ f.code ≠ [] ∧ f.code <+: unlines ((lines t).drop (f.line - 1))

/-- The code is a line of the text without the white space around it, and holds the number that
the title names. -/
def ShowsNumber (f : Finding) (t : Text) : Prop :=
  ∃ n l, f.title = numberTitle n ∧ Constant.IsNumber n ∧ (lines t)[f.line - 1]? = some l ∧
    f.code = Text.trim l ∧ n <:+: f.code

/-- The line of the finding is one of the text, and its code stands there. -/
structure PointsInto (f : Finding) (t : Text) : Prop where
  one_le : 1 ≤ f.line
  le_length : f.line ≤ (lines t).length
  shows : f.ShowsLine t ∨ f.ShowsNesting t ∨ f.ShowsNumber t

end Finding

/-! ### The scans of one text -/

/-- The findings of long lines are those of the lines that are long, each with its number. -/
theorem mem_longLines_iff {comment : Text} {cell : Option Nat} {number : Nat} {ls : List Text}
    {f : Finding} : f ∈ longLines comment cell number ls ↔
      ∃ i l, ls[i]? = some l ∧ maxLineLength < l.length ∧
        f = longLine comment cell (number + i) l := by
  -- The numbering moves on by one with each line, so the induction is for all first numbers.
  induction ls generalizing number with
  | nil => simp [longLines]
  | cons l ls ih =>
    have hrest : f ∈ longLines comment cell (number + 1) ls ↔ ∃ i l', (l :: ls)[i + 1]? = some l' ∧
        maxLineLength < l'.length ∧ f = longLine comment cell (number + (i + 1)) l' := by
      rw [ih]
      simp only [List.getElem?_cons_succ, Nat.add_assoc, Nat.add_comm 1]
    rw [longLines]
    constructor
    · intro h
      split at h
      next hlong =>
        rcases List.mem_cons.mp h with rfl | h
        · exact ⟨0, l, rfl, hlong, rfl⟩
        · obtain ⟨i, h⟩ := hrest.mp h
          exact ⟨i + 1, h⟩
      next =>
        obtain ⟨i, h⟩ := hrest.mp h
        exact ⟨i + 1, h⟩
    · rintro ⟨i, l', hl', hlong, hf⟩
      cases i with
      | zero =>
        rw [List.getElem?_cons_zero, Option.some.injEq] at hl'
        subst hl'
        rw [if_pos hlong, hf]
        exact List.mem_cons_self
      | succ i =>
        have hmem := hrest.mpr ⟨i, l', hl', hlong, hf⟩
        split
        · exact List.mem_cons_of_mem _ hmem
        · exact hmem

/-- A line that is too long is where its finding says. -/
theorem pointsInto_longLine (comment : Text) (cell : Option Nat) {t l : Text} {i : Nat}
    (hl : (lines t)[i]? = some l) (hlong : maxLineLength < l.length) :
    (longLine comment cell (1 + i) l).PointsInto t where
  one_le := Nat.le_add_right 1 i
  le_length := by
    have hlt := (List.getElem?_eq_some_iff.mp hl).1
    show 1 + i ≤ (lines t).length
    omega
  shows := by
    refine .inl ⟨rfl, hlong, ?_⟩
    show (lines t)[1 + i - 1]? = some l
    rw [Nat.add_sub_cancel_left, hl]

section

variable {p : Pattern} {t v : Text} {m : Match}

/-- What a match stands behind, and what it stands in front of, is the text. -/
theorem text_of_matchesBehind (h : MatchesBehind p t v m) : t = v ++ m.start.after :=
  h.1.after_eq

/-- The line of a match is one more than the line feeds in front of it. -/
theorem lineOf_of_matchesBehind (h : MatchesBehind p t v m) : lineOf m = v.count '\n' + 1 := by
  rw [lineOf, h.1.before_eq, Cursor.start, List.append_nil, List.count_reverse]

/-- The line of a match is what stands on it in front of the match, and behind its start. -/
theorem wholeLine_of_matchesBehind (h : MatchesBehind p t v m) :
    wholeLine m = lastLine v ++ m.start.after.takeWhile (· != '\n') := by
  rw [wholeLine, Match.lineBefore, h.1.before_eq, Cursor.start, List.append_nil, lastLine]

/-- A match starts on one of the lines. -/
theorem lineOf_le_length (h : MatchesBehind p t v m) : lineOf m ≤ (lines t).length := by
  rw [lineOf_of_matchesBehind h, text_of_matchesBehind h]
  exact Text.count_lt_length_lines v m.start.after

/-- The line that a match starts on is the one with its number. -/
theorem getElem?_lineOf (h : MatchesBehind p t v m) :
    (lines t)[lineOf m - 1]? = some (wholeLine m) := by
  rw [lineOf_of_matchesBehind h, wholeLine_of_matchesBehind h, text_of_matchesBehind h,
    Nat.add_sub_cancel]
  exact Text.getElem?_lines v m.start.after

end

/-- What nested control flow is found at: the start of a line. -/
theorem atLineStart_of_takes {c c' : Cursor} {caps caps' : Captures}
    (h : Takes nestedControl c caps c' caps') : c.atLineStart = true := by
  obtain ⟨_, _, ⟨hplace, -, -⟩, -⟩ := h
  exact hplace

/-- No match of `nestedControl` is empty. -/
theorem isSolid_nestedControl : IsSolid nestedControl := isSolid_spec rfl

/-- Nested control flow is where its finding says: the match begins a line, so the text from that
line on begins with it. -/
theorem pointsInto_nesting (comment : Text) (cell : Option Nat) {t : Text} {m : Match}
    (h : m ∈ nestedControl.hits t) : (nesting comment cell m).PointsInto t := by
  obtain ⟨v, hv⟩ := exists_matchesBehind_of_mem_hits isSolid_nestedControl h
  obtain ⟨u, hreads, htext, -⟩ := exists_reads_of_matchAt? hv.2
  -- The match starts a line, so nothing stands in front of it on that line.
  have hstart : lastLine v = [] := by
    have hplace := atLineStart_of_takes hv.takes
    rw [Cursor.atLineStart, hv.1.before_eq, Cursor.start, List.append_nil] at hplace
    rw [lastLine, List.reverse_eq_nil_iff]
    cases hrev : v.reverse with
    | nil => rfl
    | cons a r =>
      rw [hrev, List.head?_cons, Option.all_some, beq_iff_eq] at hplace
      rw [hplace]
      rfl
  refine ⟨Nat.le_add_left 1 _, lineOf_le_length hv, .inr (.inl ⟨rfl, ?_, ?_⟩)⟩
  · show m.text ≠ []
    have hpos := isSolid_nestedControl _ _ _ _ hv.takes
    rw [hreads.pos_eq] at hpos
    rw [htext]
    rintro rfl
    simp at hpos
  · show m.text <+: unlines ((lines t).drop (lineOf m - 1))
    rw [lineOf_of_matchesBehind hv, Nat.add_sub_cancel, text_of_matchesBehind hv, Text.drop_lines,
      Text.unlines_lines, hstart, List.nil_append, htext, hreads.after_eq]
    exact List.prefix_append u m.stop.after

/-- A decimal digit is no white space. -/
theorem not_isBlank_of_isDecimal {c : Char} (h : Text.isDecimal c = true) :
    Text.isBlank c = false := by
  cases hblank : Text.isBlank c with
  | false => rfl
  | true =>
    have hword := Text.isWord_of_isDecimal h
    rw [Text.isWord_of_isBlank hblank] at hword
    cases hword

/-- A number on a line is a number on the trimmed line. -/
theorem infix_trim_of_isNumber {n l : Text} (hn : Constant.IsNumber n) (h : n <:+: l) :
    n <:+: Text.trim l := by
  have hdigit : ∀ c ∈ n, (!Text.isBlank c) = true := fun c hc => by
    rw [not_isBlank_of_isDecimal (List.all_eq_true.mp hn.all_isDecimal c hc), Bool.not_false]
  refine Text.infix_trim ?_ ?_ hn.ne_nil h
  · rw [Option.all_eq_true]
    exact fun c hc => hdigit c (List.mem_of_mem_head? hc)
  · rw [Option.all_eq_true]
    exact fun c hc => hdigit c (List.mem_of_mem_getLast? hc)

/-- A number without a name is where its finding says: the finding shows the whole line, and the
number stands on it. -/
theorem pointsInto_magicNumber (comment : Text) (cell : Option Nat) {t : Text} {m : Match}
    (h : m ∈ bareNumber.hits t) : (magicNumber comment cell m).PointsInto t := by
  have hnumber : Constant.IsNumber m.text := Constant.spec_of_mem_hits h
  obtain ⟨v, hv⟩ := exists_matchesBehind_of_mem_hits Constant.isSolid_number h
  obtain ⟨u, hreads, htext, -⟩ := exists_reads_of_matchAt? hv.2
  -- A number holds no line feed, so all of it stands on the line that it starts on.
  have hline : m.text <:+: wholeLine m := by
    have hall : ∀ c ∈ u, (c != '\n') = true := by
      intro c hc
      rw [htext] at hnumber
      rw [bne_iff_ne]
      rintro rfl
      exact absurd (List.all_eq_true.mp hnumber.all_isDecimal _ hc) (by decide)
    rw [wholeLine_of_matchesBehind hv, htext, hreads.after_eq, List.takeWhile_append_of_pos hall]
    exact ⟨lastLine v, m.stop.after.takeWhile (· != '\n'), by rw [List.append_assoc]⟩
  refine ⟨Nat.le_add_left 1 _, lineOf_le_length hv, .inr (.inr ⟨m.text, wholeLine m, ?_, hnumber,
    getElem?_lineOf hv, rfl, infix_trim_of_isNumber hnumber hline⟩)⟩
  rfl

/-- The matches of nested control flow that a scan lists. -/
def nestedHits (t : Text) : List Match := (nestedControl.hits t).take maxNested

/-- The matches of numbers without a name that a scan lists. -/
def numberHits (t : Text) : List Match :=
  ((bareNumber.hits t).filter (fun m => !constantLine.isStart (wholeLine m))).take maxNumbers

/-- The findings of the three scans, one after the other. -/
theorem scan_eq (comment : Text) (cell : Option Nat) (t : Text) :
    scan comment cell t = longLines comment cell 1 (lines t) ++
      (nestedHits t).map (nesting comment cell) ++ (numberHits t).map (magicNumber comment cell) :=
  rfl

/-- The findings in a text point into it, and bear the cell that they are looked for in. -/
theorem pointsInto_scan {comment : Text} {cell : Option Nat} {t : Text} {f : Finding}
    (h : f ∈ scan comment cell t) : f.PointsInto t ∧ f.cell = cell := by
  rw [scan_eq, List.mem_append, List.mem_append, List.mem_map, List.mem_map] at h
  rcases h with (h | ⟨m, hm, rfl⟩) | ⟨m, hm, rfl⟩
  · obtain ⟨i, l, hl, hlong, rfl⟩ := mem_longLines_iff.mp h
    exact ⟨pointsInto_longLine comment cell hl hlong, rfl⟩
  · exact ⟨pointsInto_nesting comment cell (List.mem_of_mem_take hm), rfl⟩
  · have hhit := List.mem_of_mem_filter (List.mem_of_mem_take hm)
    exact ⟨pointsInto_magicNumber comment cell hhit, rfl⟩

/-- A long line is found. -/
theorem longLine_mem_scan (comment : Text) (cell : Option Nat) {t l : Text} {i : Nat}
    (hl : (lines t)[i]? = some l) (hlong : maxLineLength < l.length) :
    longLine comment cell (1 + i) l ∈ scan comment cell t := by
  rw [scan_eq, List.append_assoc]
  exact List.mem_append_left _ (mem_longLines_iff.mpr ⟨i, l, hl, hlong, rfl⟩)

section

variable (comment : Text) (cell : Option Nat) (t : Text)

/-- Findings of a kind that long lines are not of are counted in the other two scans. -/
theorem countP_scan {kind : Finding → Bool}
    (hline : ∀ number l, kind (longLine comment cell number l) = false) :
    (scan comment cell t).countP kind =
      ((nestedHits t).map (nesting comment cell)).countP kind +
        ((numberHits t).map (magicNumber comment cell)).countP kind := by
  have hlines : (longLines comment cell 1 (lines t)).countP kind = 0 := by
    rw [List.countP_eq_zero]
    intro f hf
    obtain ⟨i, l, -, -, rfl⟩ := mem_longLines_iff.mp hf
    rw [hline]
    exact Bool.false_ne_true
  rw [scan_eq, List.countP_append, List.countP_append, hlines, Nat.zero_add]

/-- At most two findings are about nested control flow. -/
theorem countP_isNesting_scan : (scan comment cell t).countP Finding.isNesting ≤ 2 := by
  have hnumbers : ((numberHits t).map (magicNumber comment cell)).countP Finding.isNesting = 0 := by
    rw [List.countP_eq_zero, List.forall_mem_map]
    intro m _ h
    cases h
  rw [countP_scan comment cell t (fun _ _ => rfl), hnumbers, Nat.add_zero]
  refine List.countP_le_length.trans ?_
  rw [List.length_map]
  exact List.length_take_le _ _

/-- At most three findings are about numbers. -/
theorem countP_isNumber_scan : (scan comment cell t).countP Finding.isNumber ≤ 3 := by
  have hnested : ((nestedHits t).map (nesting comment cell)).countP Finding.isNumber = 0 := by
    rw [List.countP_eq_zero, List.forall_mem_map]
    intro m _ h
    cases h
  rw [countP_scan comment cell t (fun _ _ => rfl), hnested, Nat.zero_add]
  refine List.countP_le_length.trans ?_
  rw [List.length_map]
  exact List.length_take_le _ _

end

/-! ### The cells of a notebook -/

/-- The findings bear the numbers of cells from the first one on. -/
theorem exists_cell_of_mem_scanCells {number : Nat} {cells : List Cell} {f : Finding}
    (h : f ∈ scanCells number cells) :
    ∃ i c, cells[i]? = some c ∧ c.isCode = true ∧ f.cell = some (number + i) := by
  induction cells generalizing number with
  | nil => cases h
  | cons c cells ih =>
    rw [scanCells, List.mem_append] at h
    rcases h with h | h
    · split at h
      next hcode => exact ⟨0, c, rfl, hcode, (pointsInto_scan h).2⟩
      next => cases h
    · obtain ⟨i, c', hc', hcode, hcell⟩ := ih h
      exact ⟨i + 1, c', hc', hcode, by rw [hcell, Nat.add_assoc, Nat.add_comm 1]⟩

/-- The findings in a code cell are those in its source. -/
theorem filter_scanCells {number i : Nat} {cells : List Cell} {c : Cell} (hc : cells[i]? = some c)
    (hcode : c.isCode = true) :
    (scanCells number cells).filter (fun f => f.cell == some (number + i)) =
      scan "#" (some (number + i)) c.source := by
  induction cells generalizing number i with
  | nil => cases hc
  | cons c' cells ih =>
    rw [scanCells, List.filter_append]
    cases i with
    | zero =>
      rw [List.getElem?_cons_zero, Option.some.injEq] at hc
      subst hc
      have hfirst : ∀ f ∈ scan "#" (some number) c'.source, (f.cell == some number) = true :=
        fun f hf => beq_iff_eq.mpr (pointsInto_scan hf).2
      -- The cells behind bear greater numbers.
      have hrest : ∀ f ∈ scanCells (number + 1) cells, ¬(f.cell == some number) = true := by
        intro f hf
        obtain ⟨j, _, -, -, hcell⟩ := exists_cell_of_mem_scanCells hf
        rw [hcell, beq_iff_eq, Option.some.injEq]
        omega
      rw [if_pos hcode, Nat.add_zero, List.filter_eq_self.mpr hfirst,
        List.filter_eq_nil_iff.mpr hrest, List.append_nil]
    | succ i =>
      -- The first cell bears a smaller number, if it is scanned at all.
      have hfirst : ∀ f ∈ (if c'.isCode then scan "#" (some number) c'.source else []),
          ¬(f.cell == some (number + (i + 1))) = true := by
        intro f hf
        split at hf
        next =>
          rw [(pointsInto_scan hf).2, beq_iff_eq, Option.some.injEq]
          omega
        next => cases hf
      have hrest :
          (scanCells (number + 1) cells).filter (fun f => f.cell == some (number + 1 + i)) =
          scan "#" (some (number + 1 + i)) c.source := ih hc
      rw [Nat.add_assoc, Nat.add_comm 1] at hrest
      rw [List.filter_eq_nil_iff.mpr hfirst, List.nil_append, hrest]

/-! ### Texts and notebooks -/

/-- The text that is scanned for findings that bear a cell: a text that is no notebook, for those
that bear none, and in a notebook the source of a code cell, for those that bear its number. -/
inductive Scans (t : Text) : Option Notebook → Option Nat → Text → Prop where
  | whole : Scans t none none t
  | cell {nb : Notebook} {i : Nat} {c : Cell} (hc : nb.cells[i]? = some c)
      (hcode : c.isCode = true) : Scans t (some nb) (some (i + 1)) c.source

/-- What is found in a text is what is found in each of the texts that are scanned. -/
theorem scans_findings {t : Text} {family : Family} {fs : List Finding}
    (h : findings t family = .ok fs) : ∃ found, Notebook.parse? t = .ok found ∧
      (∀ f ∈ fs, ∃ s, Scans t found f.cell s) ∧
      ∀ cell s, Scans t found cell s →
        ∃ comment, fs.filter (fun f => f.cell == cell) = scan comment cell s := by
  rw [findings] at h
  cases hparse : Notebook.parse? t with
  | error e =>
    rw [hparse] at h
    cases h
  | ok found =>
    rw [hparse] at h
    refine ⟨found, rfl, ?_⟩
    -- A text that is no notebook is scanned as a whole. A notebook is scanned cell by cell.
    cases found with
    | none =>
      cases h
      refine ⟨fun f hf => ⟨t, ?_⟩, fun cell s hs => ?_⟩
      · rw [(pointsInto_scan hf).2]
        exact .whole
      · cases hs
        exact ⟨_, List.filter_eq_self.mpr fun f hf => beq_iff_eq.mpr (pointsInto_scan hf).2⟩
    | some nb =>
      cases h
      refine ⟨fun f hf => ?_, fun cell s hs => ?_⟩
      · obtain ⟨i, c, hc, hcode, hcell⟩ := exists_cell_of_mem_scanCells hf
        rw [hcell, Nat.add_comm]
        exact ⟨c.source, .cell hc hcode⟩
      · cases hs with
        | @cell _ i c hc hcode =>
          rw [Nat.add_comm]
          exact ⟨_, filter_scanCells hc hcode⟩

/-- A text has findings, perhaps none, exactly if it can be told whether it is a notebook. -/
theorem exists_findings_iff (t : Text) (family : Family) :
    (∃ fs, findings t family = .ok fs) ↔ ∃ found, Notebook.parse? t = .ok found := by
  rw [findings]
  rcases Notebook.parse? t with e | found
  · simp [bind, Except.bind]
  · cases found <;> simp [bind, Except.bind, pure, Except.pure]

/-- Every finding points at what it is about. It is found in one of the texts that are scanned, its
line is a line of that text, and its code stands there: the line itself if it is long, the trimmed
line with the number that the title names, or what the text begins with from the line on. In each
text at most two findings are of nested control flow and at most three of numbers, and no long line
is missed. There is a result unless the text is nested too deeply to say whether it is a
notebook. -/
theorem findings_point_into_text (t : Text) (language : LanguageId) :
    ((∃ fs, findings t (LanguageId.family language) = .ok fs) ↔
      ∃ found, Notebook.parse? t = .ok found) ∧
    ∀ fs, findings t (LanguageId.family language) = .ok fs →
      ∃ found, Notebook.parse? t = .ok found ∧
      (∀ f ∈ fs, ∃ s, Scans t found f.cell s ∧ f.PointsInto s) ∧
      ∀ cell s, Scans t found cell s →
        (fs.filter (fun f => f.cell == cell)).countP Finding.isNesting ≤ 2 ∧
        (fs.filter (fun f => f.cell == cell)).countP Finding.isNumber ≤ 3 ∧
        ∀ i l, (lines s)[i]? = some l → 100 < l.length →
          ∃ f ∈ fs, f.cell = cell ∧ f.line = i + 1 ∧ f.code = l := by
  refine ⟨exists_findings_iff t _, fun fs hfs => ?_⟩
  obtain ⟨found, hparse, hscans, hfilter⟩ := scans_findings hfs
  refine ⟨found, hparse, fun f hf => ?_, fun cell s hs => ?_⟩
  · -- The finding is one of those in the text that it was found in.
    obtain ⟨s, hs⟩ := hscans f hf
    obtain ⟨comment, heq⟩ := hfilter f.cell s hs
    have hmem : f ∈ fs.filter (fun f' => f'.cell == f.cell) :=
      List.mem_filter.mpr ⟨hf, beq_self_eq_true _⟩
    rw [heq] at hmem
    exact ⟨s, hs, (pointsInto_scan hmem).1⟩
  · obtain ⟨comment, heq⟩ := hfilter cell s hs
    rw [heq]
    refine ⟨countP_isNesting_scan comment cell s, countP_isNumber_scan comment cell s, ?_⟩
    intro i l hl hlong
    have hmem := longLine_mem_scan comment cell hl hlong
    rw [← heq] at hmem
    exact ⟨_, List.mem_of_mem_filter hmem, rfl, Nat.add_comm 1 i, rfl⟩

/-- A notebook whose second cell nests three loops around a number. -/
def nestedNotebook : Text :=
  "\x7b\"cells\": [\x7b\"cell_type\": \"markdown\", \"source\": \"2024\"\x7d, " ++
    "\x7b\"cell_type\": \"code\", \"source\": " ++
      "[\"if a:\\n\", \"  for b in c:\\n\", \"    while d:\\n\", \"      e = 4711\"]\x7d]\x7d"

/-- The theorem at that notebook: the findings point into the second cell. -/
theorem findings_point_into_nested_cell :
    ∃ fs, findings nestedNotebook (LanguageId.family (.string "sql")) = .ok fs ∧
      fs.map (fun f => (f.title, f.line, f.cell)) =
        [(nestingTitle, 1, some 2), (numberTitle "4711", 4, some 2)] ∧
      ∃ found, Notebook.parse? nestedNotebook = .ok found ∧
        ∀ f ∈ fs, ∃ s, Scans nestedNotebook found f.cell s ∧ f.PointsInto s := by
  have hvalue : (findings nestedNotebook (LanguageId.family (.string "sql"))).toOption.map
      (List.map (fun f => (f.title, f.line, f.cell))) =
        some [(nestingTitle, 1, some 2), (numberTitle "4711", 4, some 2)] := by
    decide +kernel
  obtain ⟨fs, hfs, hplaces⟩ := exists_eq_ok_of_toOption hvalue
  obtain ⟨found, hparse, hpoints, -⟩ := (findings_point_into_text _ _).2 fs hfs
  exact ⟨fs, hfs, hplaces, found, hparse, hpoints⟩

end CodeTidy.Quality
