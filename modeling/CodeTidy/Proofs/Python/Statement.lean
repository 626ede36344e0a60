import CodeTidy.Proofs.Pattern.Spells
import CodeTidy.Proofs.Text.Gauge
import CodeTidy.Proofs.Text.Lines
import CodeTidy.Python.Statement

/-!
# `CodeTidy.Proofs.Python.Statement`: what comparisons and files become

The parts of the matches of the rules for comparisons, files and shells, and
what takes their place. The theorems:

* `exists_of_trueComparison`, `exists_of_falseComparison`,
  `exists_of_noneComparison`, `exists_of_shellArgument`: the comparisons.
* `isOpenAndClose`: a file that is opened and closed by hand.
* `exists_of_toWithBlock`: the block in which the file is open.
-/

set_option autoImplicit false

namespace CodeTidy.Python

open Pattern Text

/-! ### Comparisons -/

/-- The keyword of a condition is one of three. -/
theorem spells_conditionKeyword {e e' : Groups} {u : Text} (h : Spells conditionKeyword e u e') :
    u ∈ ["if".toList, "elif".toList, "while".toList] ∧ e' = e := by
  simp only [conditionKeyword, oneOfWords, List.map_cons, List.map_nil, spells_oneOf,
    spells_oneOf_one, spells_text] at h
  rcases h with ⟨rfl, rfl⟩ | ⟨rfl, rfl⟩ | ⟨rfl, rfl⟩ <;> simp

/-- A keyword is written in small letters. -/
theorem isLower_conditionKeyword {u : Text}
    (h : u ∈ ["if".toList, "elif".toList, "while".toList]) :
    u.any Char.isLower = true ∧ '\n' ∉ u ∧ '"' ∉ u ∧ '\'' ∉ u := by
  revert u
  decide

/-- A comparison by an operator with a word, as it stands at the end of a match. -/
def Compares (operator word t : Text) : Prop :=
  ∃ s s', s.all isBlank = true ∧ s'.all isBlank = true ∧ t = s ++ (operator ++ (s' ++ word))

variable {t v : Text} {m : Match}

/-- A condition that ends in a comparison with `True`. -/
theorem exists_of_trueComparison (h : MatchesBehind trueComparison t v m) :
    ∃ w, Compares "==" "True" w ∧ m.text = m.group 1 ++ w ∧ '\n' ∉ m.group 1 ∧
      (m.group 1).any Char.isLower = true := by
  have hspells := h.spells
  have hgroups := group_eq m
  generalize m.text = u at hspells
  generalize textsOf m.groups = e at hspells hgroups
  simp only [trueComparison, lineStart, space, indent, many, few, boundary, spells_place_then,
    spells_group_then, spells_run_then, spells_text_then, @spells_seq conditionKeyword,
    spells_seq_one, spells_place, spells_run] at hspells
  obtain ⟨_, _, ⟨i, hi, -, _, rfl, k, _, hk, rest, rfl, hrest, -, rfl⟩, _, rfl, hspells⟩ := hspells
  obtain ⟨hkeyword, rfl⟩ := spells_conditionKeyword hk
  obtain ⟨s, hs, -, _, rfl, _, rfl, s', hs', -, _, rfl, _, rfl, rfl, rfl⟩ := hspells
  obtain ⟨hlower, hfeed, -, -⟩ := isLower_conditionKeyword hkeyword
  rw [hgroups]
  refine ⟨_, ⟨s, s', hs, hs', rfl⟩, by simp, ?_, ?_⟩
  · -- The condition is on one line, and its keyword has small letters.
    have hindent : '\n' ∉ i := not_mem_of_all hi rfl
    have hcondition : '\n' ∉ rest := not_mem_of_all hrest (by decide)
    simp [hindent, hfeed, hcondition]
  · simp [hlower]

/-- The start of a condition, up to the name that is compared. -/
theorem exists_of_conditionStart {e e' : Groups} {u : Text}
    (h : Spells (seq [indent, conditionKeyword, space1, opt (seq ["not", space1])]) e u e') :
    e' = e ∧ '"' ∉ u ∧ '\'' ∉ u ∧ ∃ k s, u = k ++ s ∧ '\n' ∉ k ∧ k.any Char.isLower = true ∧
      '=' ∉ s := by
  have he := h.groups_eq (by decide)
  simp only [indent, space1, many, many1, spells_run_then, @spells_seq conditionKeyword,
    spells_seq_one, spells_opt, spells_text_then, spells_run] at h
  obtain ⟨i, hi, -, _, rfl, k, _, hk, _, rfl, s, hs, -, rest, rfl, hrest⟩ := h
  obtain ⟨hkeyword, -⟩ := spells_conditionKeyword hk
  obtain ⟨hlower, hfeed, hdouble, hsingle⟩ := isLower_conditionKeyword hkeyword
  -- What comes behind the keyword is white space and perhaps the word `not`.
  have hnot : '"' ∉ rest ∧ '\'' ∉ rest ∧ '=' ∉ rest := by
    rcases hrest with ⟨s', rfl, hs', -, -⟩ | ⟨rfl, -⟩
    · have hd : '"' ∉ s' := not_mem_of_all hs' (by decide)
      have hq : '\'' ∉ s' := not_mem_of_all hs' (by decide)
      have he : '=' ∉ s' := not_mem_of_all hs' (by decide)
      simp [hd, hq, he]
    · simp
  obtain ⟨hd, hq, heq⟩ := hnot
  have hindent : ∀ c, isIndent c = false → c ∉ i := fun c hc => not_mem_of_all hi hc
  have hspace : ∀ c, isBlank c = false → c ∉ s := fun c hc => not_mem_of_all hs hc
  refine ⟨he, ?_, ?_, i ++ k, s ++ rest, by simp, ?_, by simp [hlower], ?_⟩
  · simp [hindent '"' rfl, hdouble, hspace '"' (by decide), hd]
  · simp [hindent '\'' rfl, hsingle, hspace '\'' (by decide), hq]
  · simp [hindent '\n' rfl, hfeed]
  · simp [hspace '=' (by decide), heq]

/-- A condition that begins with a comparison with `False`. -/
theorem exists_of_falseComparison (h : MatchesBehind falseComparison t v m) :
    ∃ w, Compares "==" "False" w ∧ m.text = m.group 1 ++ (m.group 2 ++ w) ∧
      '"' ∉ m.group 1 ∧ '\'' ∉ m.group 1 ∧
      (∃ k s, m.group 1 = k ++ s ∧ '\n' ∉ k ∧ k.any Char.isLower = true ∧ '=' ∉ s) ∧
      '\n' ∉ m.group 2 ∧
      ∃ name call, m.group 2 = name ++ call ∧ name ≠ [] ∧
        name.all (CharSet.or isWord (CharSet.of ".")) = true ∧ call.getLast?.all (· == ')') = true
      := by
  have hspells := h.spells
  have hgroups := group_eq m
  generalize m.text = u at hspells
  generalize textsOf m.groups = e at hspells hgroups
  simp only [falseComparison, lineStart, boundary, spells_place_then, spells_group_then] at hspells
  obtain ⟨start, _, hstart, _, rfl, hspells⟩ := hspells
  obtain ⟨rfl, hdouble, hsingle, hstart⟩ := exists_of_conditionStart hstart
  simp only [space, many, many1, spells_run_then, spells_text_then, spells_seq_one,
    spells_place, spells_opt, spells_text] at hspells
  obtain ⟨compared, e₁, ⟨name, hname, hlength, call, rfl, hcall⟩, _, rfl, hspells⟩ := hspells
  obtain ⟨s, hs, -, _, rfl, _, rfl, s', hs', -, _, rfl, _, rfl, rfl, rfl⟩ := hspells
  have hne : name ≠ [] := by
    rintro rfl
    cases hlength
  have hfeed : '\n' ∉ name := not_mem_of_all hname (by decide)
  -- The call is optional, and remembers nothing.
  have hcall' : e₁ = [(1, start)] ∧ '\n' ∉ call ∧ call.getLast?.all (· == ')') = true := by
    rcases hcall with ⟨_, rfl, args, hargs, -, _, rfl, rfl, rfl⟩ | ⟨rfl, rfl⟩
    · have hargs : '\n' ∉ args := not_mem_of_all hargs (by decide)
      refine ⟨rfl, by simp [hargs], ?_⟩
      have hlast : "(".toList ++ (args ++ ")".toList) = ("(".toList ++ args) ++ [')'] := by simp
      rw [hlast, List.getLast?_concat]
      rfl
    · exact ⟨rfl, List.not_mem_nil, rfl⟩
  obtain ⟨rfl, hfeed', hlast⟩ := hcall'
  have hgroup1 : m.group 1 = start := by
    rw [hgroups]
    rfl
  have hgroup2 : m.group 2 = name ++ call := by
    rw [hgroups]
    rfl
  rw [hgroup1, hgroup2]
  exact ⟨_, ⟨s, s', hs, hs', rfl⟩, by simp, hdouble, hsingle, hstart,
    by simp [hfeed, hfeed'], name, call, rfl, hne, hname, hlast⟩

/-- A comparison with `None`. -/
theorem exists_of_noneComparison {operator : String}
    (h : MatchesBehind (noneComparison operator) t v m) :
    Compares operator.toList "None" m.text := by
  have hspells := h.spells
  simp only [noneComparison, space, many, boundary, spells_run_then, spells_text_then,
    spells_seq_one, spells_place] at hspells
  obtain ⟨s, hs, -, _, hu, _, rfl, s', hs', -, _, rfl, _, rfl, rfl, -⟩ := hspells
  rw [← hu]
  exact ⟨s, s', hs, hs', by simp⟩

/-- An argument that asks for a shell. -/
theorem exists_of_shellArgument (h : MatchesBehind shellArgument t v m) :
    ∃ s s', s.all isBlank = true ∧ s'.all isBlank = true ∧
      m.text = "shell" ++ (s ++ ("=" ++ (s' ++ "True"))) := by
  have hspells := h.spells
  simp only [shellArgument, space, many, boundary, spells_place_then, spells_run_then,
    spells_text_then, spells_seq_one, spells_place] at hspells
  obtain ⟨_, hu, s, hs, -, _, rfl, _, rfl, s', hs', -, _, rfl, _, rfl, rfl, -⟩ := hspells
  rw [← hu]
  exact ⟨s, s', hs, hs', by simp⟩

/-! ### Files -/

/-- A line between opening and closing a file. -/
def fileLine : Pattern := oneOf [seq [.again 1, restOfLine, "\n"], seq [indent, "\n"]]

/-- The pattern with its parts spelled out. -/
theorem openAndClose_eq : openAndClose =
    seq [lineStart, .group 1 indent, .group 2 word, space, "=", space, "open(", .group 3 restOfLine,
      ")", indent, "\n", .group 4 (.rounds .least fileLine), .again 1, .again 2, ".close()", indent,
      .group 5 (oneOf ["\n", lineEnd])] := rfl

/-- What a file that is opened and closed by hand consists of: a line with a bracket, some lines,
and another line with a bracket. -/
structure IsOpenAndClose (m : Match) : Prop where
  exists_parts : ∃ first last, m.text = first ++ '\n' :: (m.group 4 ++ (last ++ m.group 5)) ∧
    first.any isLoud = true ∧ last.any isLoud = true
  indent : (m.group 1).all isIndent = true
  handle : '\n' ∉ m.group 2
  args : '\n' ∉ m.group 3
  body : m.group 4 = [] ∨ ∃ t, m.group 4 = t ++ ['\n']
  stop : m.group 5 = ['\n'] ∨ m.group 5 = [] ∧ EndsLine m.stop

/-- Lines of a block are none, or end a line. -/
theorem ends_of_fileLines {e e' : Groups} {u : Text} (h : Repeats (Spells fileLine) e u e') :
    u = [] ∨ ∃ t, u = t ++ ['\n'] := by
  induction h with
  | none => exact .inl rfl
  | @more e e₁ e' u v round _ ih =>
    rcases ih with rfl | ⟨t, rfl⟩
    · simp only [fileLine, indent, restOfLine, many, spells_oneOf, spells_oneOf_one,
        spells_again_then, spells_run_then, spells_seq_one, spells_text] at round
      rcases round with ⟨i, -, _, rfl, r, -, -, _, rfl, rfl, -⟩ | ⟨s, -, -, _, rfl, rfl, -⟩
      · exact .inr ⟨i ++ r, by simp⟩
      · exact .inr ⟨s, by simp⟩
    · exact .inr ⟨u ++ t, by simp⟩

/-- The line feed behind the closed file, or the end of the text, is remembered. -/
theorem stop_of_openAndClose (h : MatchesBehind openAndClose t v m) :
    m.group 5 = ['\n'] ∨ m.group 5 = [] ∧ EndsLine m.stop := by
  obtain ⟨c, caps, caps', hlast, hgroups⟩ := takes_seq_last (by decide) (openAndClose_eq ▸ h.takes)
  have hlookup : m.groups.lookup 5 = some ⟨c, m.stop⟩ := by
    rw [hgroups]
    rfl
  rcases hlast with hfeed | ⟨hend, hc, -⟩
  · exact .inl (Match.group_of_lookup hlookup (takes_text_iff.mp hfeed).1)
  · rw [hc] at hlookup ⊢
    exact .inr ⟨Match.group_of_lookup hlookup (.refl c), endsLine_of_atLineEnd hend⟩

/-- What a match of `openAndClose` promises. -/
theorem isOpenAndClose (h : MatchesBehind openAndClose t v m) : IsOpenAndClose m := by
  have hspells := h.spells
  have hgroups := group_eq m
  generalize hu : m.text = u at hspells
  generalize textsOf m.groups = e at hspells hgroups
  rw [openAndClose_eq] at hspells
  simp only [lineStart, lineEnd, indent, space, word, restOfLine, many, many1, spells_place_then,
    spells_group_then, spells_text_then, spells_run_then, spells_again_then, spells_seq_one,
    spells_run, spells_group, spells_oneOf, spells_oneOf_one, spells_text, spells_place] at hspells
  obtain ⟨i, _, ⟨hi, -, rfl⟩, _, rfl, x, _, ⟨hx, -, rfl⟩, _, rfl, s₁, -, -, _, rfl,
    hspells⟩ := hspells
  obtain ⟨_, rfl, s₂, -, -, _, rfl, _, rfl, args, _, ⟨hargs, -, rfl⟩, _, rfl, hspells⟩ := hspells
  obtain ⟨_, rfl, s₃, -, -, _, rfl, _, rfl, body, _, hbody, _, rfl, hspells⟩ := hspells
  obtain ⟨i', -, _, rfl, x', -, _, rfl, _, rfl, s₄, -, -, last, rfl, e₁, hlast, rfl⟩ := hspells
  -- The lines of the block capture nothing, so the groups are the five that are written out.
  obtain rfl := Spells.groups_eq (p := .rounds .least fileLine) hbody (by decide)
  obtain rfl : e₁ = [(4, body), (3, args), (2, x), (1, i)] := hlast.elim And.right And.right
  refine ⟨⟨i ++ (x ++ (s₁ ++ ("=" ++ (s₂ ++ ("open(" ++ (args ++ (")" ++ s₃))))))),
    i' ++ (x' ++ (".close()" ++ s₄)), ?_, by simp [isLoud], by simp [isLoud]⟩, ?_, ?_, ?_, ?_,
    stop_of_openAndClose h⟩
  · rw [hgroups, hgroups, hu]
    simp [List.lookup_cons]
  · rw [hgroups]
    exact hi
  · rw [hgroups]
    exact not_mem_of_all hx (by decide)
  · rw [hgroups]
    exact not_mem_of_all hargs (by decide)
  · rw [hgroups]
    exact ends_of_fileLines hbody

/-- White space in front of a line makes no lines. -/
theorem filter_deeper (l : Text) : (deeper l).filter makesLines = l.filter makesLines := by
  rw [deeper]
  split
  · rfl
  · rw [List.filter_append]
    rfl

/-- A line that is set deeper begins with white space, or is empty. -/
theorem head?_deeper (l : Text) : (deeper l).head?.all isBlank = true := by
  rw [deeper]
  split
  · next hblank =>
    cases l with
    | nil => rfl
    | cons c l =>
      rw [allBlank, List.all_cons, Bool.and_eq_true] at hblank
      exact hblank.1
  · rfl

/-- A line that is set deeper is one line still. -/
theorem not_mem_deeper {l : Text} (h : '\n' ∉ l) : '\n' ∉ deeper l := by
  rw [deeper]
  split
  · exact h
  · simpa using h

/-- What takes the place of a file that is opened and closed by hand: a line, and a block of lines
that are indented and hold what stood between. -/
theorem exists_of_toWithBlock (h : IsOpenAndClose m) :
    ∃ head inner, toWithBlock m = head ++ '\n' :: (inner ++ m.group 5) ∧ '\n' ∉ head ∧
      head.any Char.isLower = true ∧ isIndented true inner = true ∧
      endsFresh true inner = false ∧
      (inner.filter makesLines).Sublist ((m.group 4).filter makesLines) := by
  have hindent : '\n' ∉ m.group 1 := not_mem_of_all h.indent rfl
  refine ⟨m.group 1 ++ ("with open(" ++ (m.group 3 ++ (") as " ++ (m.group 2 ++ ":")))), _,
    by simp only [toWithBlock, List.append_assoc]; rfl, ?_, by simp, ?_⟩
  · have hargs := h.args
    have hhandle := h.handle
    simp [hindent, hargs, hhandle]
  · generalize hbody : dropEndWhile (· == '\n') (unlines ((lines (m.group 4)).map deeper)) = body
    cases hempty : body.isEmpty with
    | true =>
      -- Nothing stood between, so the block has `pass` as its only line.
      have hplain : ∀ c ∈ m.group 1, makesLines c = false := by
        intro c hc
        have hor := List.all_eq_true.mp h.indent c hc
        rw [isIndent, Bool.or_eq_true, beq_iff_eq, beq_iff_eq] at hor
        rcases hor with rfl | rfl <;> rfl
      rw [if_pos rfl]
      refine ⟨isIndented_line (by simp [hindent]) ?_, ?_, ?_⟩
      · have hall : (m.group 1).all isBlank = true := all_isBlank_of_isIndent h.indent
        cases hgroup : m.group 1 with
        | nil => rfl
        | cons c i =>
          rw [hgroup, List.all_cons, Bool.and_eq_true] at hall
          exact hall.1
      · rw [endsFresh_append]
        rfl
      · have hnone : (m.group 1 ++ "    pass").filter makesLines = [] := by
          rw [List.filter_append, List.filter_eq_nil_iff.mpr (by simpa using hplain)]
          rfl
        rw [hnone]
        exact List.nil_sublist _
    | false =>
      rw [if_neg Bool.false_ne_true]
      -- The block is what the lines begin with that have been moved to the right.
      have hprefix : body <+: unlines ((lines (m.group 4)).map deeper) := by
        rw [← hbody, dropEndWhile_eq]
        exact List.rdropWhile_prefix _ _
      refine ⟨isIndented_beginning hprefix (isIndented_unlines ?_), ?_, ?_⟩
      · intro l hl
        obtain ⟨l', hl', rfl⟩ := List.mem_map.mp hl
        exact ⟨not_mem_deeper (not_mem_of_mem_lines hl'), head?_deeper l'⟩
      · have hne : body ≠ [] := by
          rintro rfl
          cases hempty
        rw [← hbody] at hne ⊢
        exact endsFresh_dropEndWhile hne true
      · have hkept := filter_unlines_map filter_deeper (lines (m.group 4))
        rw [unlines_lines] at hkept
        rw [← hkept]
        exact hprefix.sublist.filter makesLines

end CodeTidy.Python
