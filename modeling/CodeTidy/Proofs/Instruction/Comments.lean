import CodeTidy.Instruction
import CodeTidy.Proofs.Literal.Pruned
import CodeTidy.Proofs.Literal.Scan
import Mathlib.Data.List.Chain

/-!
# `CodeTidy.Proofs.Instruction.Comments`: strings where comments are removed

The wish to remove comments looks at one line at a time. A line of a string that goes on over
several lines may begin like a comment, and is taken out of the string. A comment that takes a
whole line is one literal of the text, so nothing else happens to the strings, except in two rare
cases: a backslash at the end of the line in front of a comment escapes what comes behind the
comment, and the last line of a block comment may begin like a line comment. The theorems:

* `exists_scans_of_pruned`: the tokens of a text without its comment lines.
* `isCommentLine_of_mem_strings`: no string has such a line when the comments are removed.
* `strings_removeComments_iff`: the strings stay the same if and only if none has such a line.
-/

set_option autoImplicit false

namespace CodeTidy.Instruction

open Pattern Text

/-- Whether a literal is a string, and not a comment. -/
def isString (u : Text) : Bool := u.head?.any "\"'`".toList.contains

/-- The strings of a text. -/
def strings (family : Family) (t : Text) : List Text :=
  (((literals family).literals t).map Match.text).filter isString

/-- The comments of a text. -/
def comments (family : Family) (t : Text) : List Text :=
  (((literals family).literals t).map Match.text).filter (fun u => !isString u)

/-! ### Lines that hold only a comment -/

/-- What a comment of a family begins with, if there is but one such mark. -/
def commentMark : Family → Text
  | .python => "#"
  | .sql => "--"
  | _ => "//"

section

variable {f : Family}

/-- Every family but the general one has one mark for comments. -/
theorem commentMarks_eq (hf : f ≠ .generic) : commentMarks f = [commentMark f] := by
  cases f with
  | generic => exact absurd rfl hf
  | _ => rfl

/-- A line with a comment is white space, the mark and some more characters. -/
theorem exists_of_isCommentLine (hf : f ≠ .generic) {l : Text} (h : isCommentLine f l = true) :
    ∃ s c, l = s ++ (commentMark f ++ c) ∧ s.all isBlank = true := by
  rw [isCommentLine, Bool.and_eq_true, commentMarks_eq hf, startsWithAny, List.any_cons,
    List.any_nil, Bool.or_false] at h
  obtain ⟨c, hc⟩ := List.isPrefixOf_iff_prefix.mp h.2
  refine ⟨l.takeWhile isBlank, c, ?_, List.all_takeWhile⟩
  rw [hc]
  exact (List.takeWhile_append_dropWhile (p := isBlank) (l := l)).symm

/-- Whether a line begins with a mark is said by what stands in front of a quote. -/
theorem startsWith_append_cons {m : Text} {q : Char} (hq : q ∉ m) (w z : Text) :
    startsWith (w ++ q :: z) m = startsWith (w ++ [q]) m := by
  induction m generalizing w with
  | nil => rfl
  | cons b m ih =>
    rw [List.mem_cons, not_or] at hq
    obtain _ | ⟨a, w⟩ := w
    · have hne : (b == q) = false := beq_false_of_ne (Ne.symm hq.1)
      rw [startsWith, startsWith, List.nil_append, List.nil_append, List.isPrefixOf_cons_cons,
        List.isPrefixOf_cons_cons, hne, Bool.false_and, Bool.false_and]
    · have hrest := ih hq.2 w
      rw [startsWith, startsWith] at hrest
      rw [startsWith, startsWith, List.cons_append, List.cons_append, List.isPrefixOf_cons_cons,
        List.isPrefixOf_cons_cons, hrest]

/-- What comes behind a quote or an asterisk does not matter to whether a line holds only a
comment. -/
theorem isCommentLine_append_cons {q : Char} (hq : q ∈ "\"'`*".toList) (w z : Text) :
    isCommentLine f (w ++ q :: z) = isCommentLine f (w ++ [q]) := by
  -- Neither is white space, and neither is in a mark of a comment.
  have hquotes : ∀ q ∈ "\"'`*".toList, isBlank q = false ∧ q ∉ ("#!" : Text) ∧
      ∀ m ∈ commentMarks f, q ∉ m := by
    cases f <;> decide
  obtain ⟨hblank, hbang, hmarks⟩ := hquotes q hq
  obtain ⟨w', hw'⟩ : ∃ w', ∀ z, trimStart (w ++ q :: z) = w' ++ q :: z := by
    refine ⟨w.dropWhile isBlank, fun z => ?_⟩
    rw [trimStart, List.dropWhile_append]
    split
    · next hnil =>
      rw [List.isEmpty_iff.mp hnil, List.dropWhile_cons_of_neg (by rw [hblank]; decide),
        List.nil_append]
    · rfl
  rw [isCommentLine, isCommentLine, hw', hw', startsWith_append_cons hbang, startsWithAny,
    startsWithAny]
  congr 1
  generalize hms : commentMarks f = ms at hmarks
  clear hms
  induction ms with
  | nil => rfl
  | cons m ms ih =>
    rw [List.forall_mem_cons] at hmarks
    rw [List.any_cons, List.any_cons, startsWith_append_cons hmarks.1, ih hmarks.2]

/-- Where a line begins in a stretch that ends with a quote, or with an asterisk and a slash, what
comes behind the stretch does not matter. -/
theorem isCommentLine_firstLine_append {q : Char} (hq : q ∈ "\"'`*".toList) {w y z : Text}
    (hy : y = w ++ q :: z) (r : Text) :
    isCommentLine f (firstLine (y ++ r)) = isCommentLine f (firstLine y) := by
  by_cases hline : '\n' ∈ y
  · rw [firstLine_append_of_mem hline]
  · rw [firstLine_append_of_not_mem hline, firstLine_eq_self hline, hy, List.append_assoc,
      List.cons_append, isCommentLine_append_cons hq w (z ++ _), isCommentLine_append_cons hq w z]

end

/-! ### Literals without their comment lines -/

/-- A string that ends with a quote. -/
def IsQuoted (u : Text) : Prop :=
  isString u = true ∧ ∃ w q, u = w ++ [q] ∧ q ∈ "\"'`*".toList

/-- A comment in one line. -/
def IsLineComment (u : Text) : Prop := isString u = false ∧ '\n' ∉ u

/-- What stands between two quotes of a kind is a string. -/
theorem isQuoted_of_mem {q : Char} (hq : q ∈ "\"'`".toList) (w : Text) :
    IsQuoted (q :: (w ++ [q])) :=
  ⟨List.contains_iff_mem.mpr hq, q :: w, q, rfl,
    (show ∀ q ∈ "\"'`".toList, q ∈ "\"'`*".toList by decide) q hq⟩

/-- A mark and the rest of its line are a comment in one line. -/
theorem isLineComment_append {m : Text} (hm : isString m = false) (hne : m ≠ [])
    (hfeed : '\n' ∉ m) (s : Text) : IsLineComment (m ++ firstLine s) := by
  obtain ⟨a, m, rfl⟩ := List.exists_cons_of_ne_nil hne
  exact ⟨hm, List.not_mem_append hfeed (not_mem_firstLine s)⟩

section

variable {u r : Text}

/-- A literal of the grammar is a string, a comment in one line or a block comment. -/
theorem literal_cases_cStyle (h : Generic.literal? (u ++ r) = some u) :
    IsQuoted u ∨ IsLineComment u ∨
      ∃ v, u = '/' :: '*' :: v ∧ Generic.blockRest? (v ++ r) = some v := by
  have hquotes : ∀ q ∈ Generic.quotes, q.1 ∈ "\"'`".toList := by decide
  have hliteral := Generic.literal?_eq_some_iff.mp h
  generalize hx : u ++ r = x at hliteral
  cases hliteral with
  | block hrest =>
    obtain rfl := (List.cons.inj (List.cons.inj hx).2).2
    exact .inr (.inr ⟨_, rfl, hrest⟩)
  | line s =>
    have hcomment := isLineComment_append (m := "//") rfl (List.cons_ne_nil _ _) (by decide) s
    exact .inr (.inl hcomment)
  | string hquote hrest =>
    obtain ⟨-, w, rfl⟩ := Generic.exists_of_quotedRest? hrest
    exact .inl (isQuoted_of_mem (hquotes _ hquote) w)

/-- A literal of the grammar is a string or a comment in one line. -/
theorem literal_cases_python (h : Python.literal? (u ++ r) = some u) :
    IsQuoted u ∨ IsLineComment u := by
  have hquotes : ∀ q ∈ Python.quotes, q ∈ "\"'`".toList := by decide
  have hliteral := Python.isLiteral_of_literal? h
  generalize hx : u ++ r = x at hliteral
  cases hliteral with
  | @block q _ _ hquote hrest =>
    obtain ⟨-, w, rfl⟩ := Python.exists_of_blockRest? hrest
    have hsplit : Python.triple q ++ (w ++ Python.triple q) =
        q :: (q :: q :: w ++ [q, q] ++ [q]) := by
      simp [Python.triple]
    rw [hsplit]
    exact .inl (isQuoted_of_mem (hquotes q hquote) _)
  | line hquote _ hrest =>
    obtain ⟨-, w, rfl⟩ := Generic.exists_of_quotedRest? hrest
    exact .inl (isQuoted_of_mem (hquotes _ hquote) w)
  | comment s =>
    have hcomment := isLineComment_append (m := "#") rfl (List.cons_ne_nil _ _) (by decide) s
    exact .inr hcomment

/-- A literal of the grammar is a string or a comment in one line. -/
theorem literal_cases_sql (h : Sql.literal? (u ++ r) = some u) :
    IsQuoted u ∨ IsLineComment u := by
  have hliteral := Sql.isLiteral_of_literal? h
  generalize hx : u ++ r = x at hliteral
  cases hliteral with
  | string hrest =>
    obtain ⟨-, w, rfl⟩ := Sql.stringRest?_spec hrest
    exact .inl (isQuoted_of_mem (by decide) w)
  | name hquote hrest =>
    obtain ⟨-, w, -, rfl⟩ := Sql.nameRest?_eq_some_iff.mp hrest
    refine .inl (isQuoted_of_mem ?_ w)
    rcases hquote with rfl | rfl <;> decide
  | comment s =>
    have hcomment := isLineComment_append (m := "--") rfl (List.cons_ne_nil _ _) (by decide) s
    exact .inr hcomment

/-- A literal is a string and ends with a quote, is a comment in one line, or is a block
comment. -/
theorem literal_cases {g : LiteralGrammar} (h : g.literal? (u ++ r) = some u) :
    IsQuoted u ∨ IsLineComment u ∨
      g = .cStyle ∧ ∃ v, u = '/' :: '*' :: v ∧ Generic.blockRest? (v ++ r) = some v := by
  cases g with
  | cStyle =>
    rcases literal_cases_cStyle h with hquoted | hline | hblock
    · exact .inl hquoted
    · exact .inr (.inl hline)
    · exact .inr (.inr ⟨rfl, hblock⟩)
  | python => exact (literal_cases_python h).imp_right .inl
  | sql => exact (literal_cases_sql h).imp_right .inl

end

section

variable {f : Family} {u r t' : Text} {behind : Bool}

/-- A string that has no line that is taken for a comment is kept. -/
theorem exists_of_string {w : Text} {q : Char} (hu : u = w ++ [q]) (hq : q ∈ "\"'`*".toList)
    (hlines : ∀ l ∈ (lines u).tail, isCommentLine f l = false)
    (h : Pruned (isCommentLine f) (literals f).escapes behind (u ++ r) t') :
    ∃ t₁, t' = u ++ t₁ ∧
      Pruned (isCommentLine f) (literals f).escapes (endsInSlash behind u) r t₁ := by
  have hfeed : '\n' ∉ [q] := fun hmem => absurd (List.mem_singleton.mp hmem ▸ hq) (by decide)
  -- A line of the string ends with the quote, or before it, so that it is a line of the text.
  refine h.of_append_of_kept fun x y hxy => ?_
  obtain ⟨w', hy⟩ := exists_behind_feed hfeed (hu.symm.trans hxy)
  rw [isCommentLine_firstLine_append hq hy]
  exact hlines _ (hxy ▸ firstLine_mem_tail_lines x y)

/-- A block comment whose last line is not taken for a comment stays a block comment. -/
theorem exists_of_block {v : Text} (hrest : Generic.blockRest? (v ++ r) = some v)
    (hlast : ∀ l ∈ (lines ('/' :: '*' :: v)).tail.getLast?, isCommentLine f l = false)
    (h : Pruned (isCommentLine f) (literals f).escapes behind ('/' :: '*' :: v ++ r) t') :
    ∃ v' t₁, t' = '/' :: '*' :: v' ++ t₁ ∧ Generic.blockRest? (v' ++ t₁) = some v' ∧
      ∃ behind', Pruned (isCommentLine f) (literals f).escapes behind' r t₁ := by
  obtain ⟨t₀, rfl, h₀⟩ := h.of_append (u := ['/', '*']) (by decide)
  obtain ⟨-, w, hw⟩ := Generic.exists_of_blockRest? hrest
  obtain ⟨v', t₁, rfl, hv', h₁⟩ := Generic.exists_of_blockRest?_pruned hrest h₀ fun x y hxy hy => by
    obtain ⟨w', hend⟩ := exists_behind_feed (by decide) (hw.symm.trans hxy)
    obtain ⟨ls, hls⟩ := suffix_tail_lines ('/' :: '*' :: x) y
    rw [isCommentLine_firstLine_append (by decide) hend, firstLine_eq_self hy]
    refine hlast y ?_
    rw [hxy, ← List.cons_append, ← List.cons_append, ← hls, lines_eq_singleton hy,
      List.getLast?_concat]
    rfl
  exact ⟨v', t₁, rfl, hv', h₁⟩

/-- What is left of a literal, and what the text goes on with behind it. -/
theorem exists_of_literal (hliteral : (literals f).literal? (u ++ r) = some u)
    (hstring : isString u = true → ∀ l ∈ (lines u).tail, isCommentLine f l = false)
    (hcomment : isString u = false → ∀ l ∈ (lines u).tail.getLast?, isCommentLine f l = false)
    (h : Pruned (isCommentLine f) (literals f).escapes behind (u ++ r) t') :
    ∃ u' t₁ behind', t' = u' ++ t₁ ∧ (literals f).literal? (u' ++ t₁) = some u' ∧
      Pruned (isCommentLine f) (literals f).escapes behind' r t₁ ∧
      [u'].filter isString = [u].filter isString := by
  rcases literal_cases hliteral with ⟨hu, w, q, hend, hq⟩ | ⟨-, hline⟩ | ⟨hg, v, rfl, hv⟩
  · obtain ⟨t₁, rfl, h₁⟩ := exists_of_string hend hq (hstring hu) h
    exact ⟨u, t₁, _, rfl, LiteralGrammar.literal?_append_of_pruned hliteral h₁, h₁, rfl⟩
  · obtain ⟨t₁, rfl, h₁⟩ := h.of_append hline
    exact ⟨u, t₁, _, rfl, LiteralGrammar.literal?_append_of_pruned hliteral h₁, h₁, rfl⟩
  · obtain ⟨v', t₁, rfl, hv', behind', h₁⟩ := exists_of_block hv (hcomment rfl) h
    refine ⟨'/' :: '*' :: v', t₁, behind', rfl, ?_, h₁, rfl⟩
    rw [hg]
    exact Generic.literal?_eq_some_iff.mpr (.block hv')

end

/-! ### The tokens of a text without its comment lines -/

/-- The scanner for literals where nothing is replaced. -/
def bareScanner (g : LiteralGrammar) : Scanner where
  grammar := g
  isBehind _ := false
  IsFree _ _ := True
  IsHit _ _ _ _ := False

/-- A pattern for no character matches nowhere. -/
theorem matchAt?_never (c : Cursor) : (Pattern.one fun _ => false).matchAt? c = none := by
  obtain ⟨before, after, pos⟩ := c
  cases after <;> rfl

/-- A pattern that matches nowhere fits its scanner. -/
theorem fits_bareScanner (g : LiteralGrammar) :
    (bareScanner g).Fits (.one fun _ => false) Match.text where
  solid := isSolid_spec rfl
  free _ _ := trivial
  hit c m h := by
    rw [matchAt?_never] at h
    cases h
  begins c m h := by
    rw [matchAt?_never] at h
    cases h
  ends c u v w d m _ _ _ _ h := by
    rw [matchAt?_never] at h
    cases h

/-- Every text is scanned for its literals. -/
theorem exists_scans (g : LiteralGrammar) (t : Text) :
    ∃ ts, Scans (bareScanner g) false ts ∧ oldText ts = t := by
  obtain ⟨ts, hscans, hold, -⟩ := (fits_bareScanner g).exists_scans t
  exact ⟨ts, hscans, hold⟩

section

variable {g : LiteralGrammar} {behind : Bool} {ts : List Token} {r : Text}

/-- Nothing in front of the tokens matters to the scanner. -/
theorem scans_bareScanner (h : Scans (bareScanner g) behind ts) (behind' : Bool) :
    Scans (bareScanner g) behind' ts := by
  cases h with
  | stop => exact .stop behind'
  | plain hnone hfree h => exact .plain hnone hfree h
  | hit _ hhit => exact hhit.elim
  | literal hliteral h => exact .literal hliteral h

/-- Where no literal begins, the first token is one character. -/
theorem exists_of_scans_plain (h : Scans (bareScanner g) behind ts) {a : Char}
    (hold : oldText ts = a :: r) (hnone : g.literal? (a :: r) = none) :
    ∃ ts', ts = .plain a :: ts' ∧ oldText ts' = r ∧ Scans (bareScanner g) false ts' := by
  cases h with
  | stop => cases hold
  | plain _ _ h =>
    obtain ⟨rfl, hr⟩ := List.cons.inj hold
    exact ⟨_, rfl, hr, h⟩
  | hit _ hhit => exact hhit.elim
  | @literal _ u ts hliteral h =>
    have hold : u ++ oldText ts = a :: r := hold
    rw [hold] at hliteral
    cases hnone.symm.trans hliteral

/-- Inert characters in front are tokens by themselves. -/
theorem exists_of_scans_inert {s : Text} (h : Scans (bareScanner g) behind ts)
    (hs : s.all isInert = true) (hold : oldText ts = s ++ r) :
    ∃ ts', ts = s.map .plain ++ ts' ∧ oldText ts' = r ∧ Scans (bareScanner g) false ts' := by
  induction s generalizing ts behind with
  | nil => exact ⟨ts, rfl, hold, scans_bareScanner h false⟩
  | cons a s ih =>
    rw [List.all_cons, Bool.and_eq_true] at hs
    obtain ⟨ts', rfl, hold', h'⟩ := exists_of_scans_plain h hold (g.literal?_inert hs.1 _)
    obtain ⟨ts'', rfl, hold'', h''⟩ := ih h' hs.2 hold'
    exact ⟨ts'', rfl, hold'', h''⟩

/-- Where a literal begins, it is the first token. -/
theorem exists_of_scans_literal (h : Scans (bareScanner g) behind ts) {u : Text}
    (hold : oldText ts = u ++ r) (hliteral : g.literal? (u ++ r) = some u) :
    ∃ ts', ts = .literal u :: ts' ∧ oldText ts' = r ∧ Scans (bareScanner g) false ts' := by
  cases h with
  | stop =>
    obtain ⟨a, w, rfl, -⟩ := LiteralGrammar.exists_cons hliteral
    cases hold
  | @plain _ a ts hnone _ h =>
    have hold : a :: oldText ts = u ++ r := hold
    rw [hold] at hnone
    cases hnone.symm.trans hliteral
  | hit _ hhit => exact hhit.elim
  | @literal _ u' ts hliteral' h =>
    have hold : u' ++ oldText ts = u ++ r := hold
    rw [hold] at hliteral'
    obtain rfl := Option.some.inj (hliteral'.symm.trans hliteral)
    exact ⟨ts, rfl, List.append_cancel_left hold, scans_bareScanner h false⟩

/-- A literal in front is the first of the literals. -/
theorem literalsIn_literal (u : Text) (ts : List Token) :
    literalsIn (.literal u :: ts) = u :: literalsIn ts := rfl

end

section

variable {f : Family} {ts : List Token} {behind : Bool}

/-- The mark with the rest of its line is found as a comment. -/
theorem literal?_commentMark (hf : f ≠ .generic) {c r : Text} (hc : '\n' ∉ c)
    (hr : r.head?.all (· == '\n') = true) :
    (literals f).literal? (commentMark f ++ c ++ r) = some (commentMark f ++ c) := by
  have hrest : (c ++ r).takeWhile (· != '\n') = c := firstLine_eq hc hr
  cases f with
  | generic => exact absurd rfl hf
  | python =>
    show some ('#' :: (c ++ r).takeWhile (· != '\n')) = _
    rw [hrest]
    rfl
  | sql =>
    show some ('-' :: ('-' :: (c ++ r)).takeWhile (· != '\n')) = _
    rw [List.takeWhile_cons_of_pos (by decide), hrest]
    rfl
  | _ =>
    show some ('/' :: '/' :: (c ++ r).takeWhile (· != '\n')) = _
    rw [hrest]
    rfl

/-- What begins with the mark is no string. -/
theorem isString_commentMark (f : Family) (c : Text) : isString (commentMark f ++ c) = false := by
  cases f <;> rfl

/-- A line that holds only a comment is one literal, and some characters in front of it. -/
theorem exists_of_scans_commentLine (hf : f ≠ .generic) {l r : Text}
    (hl : isCommentLine f l = true) (hline : '\n' ∉ l) (hr : r.head?.all (· == '\n') = true)
    (h : Scans (bareScanner (literals f)) behind ts) (hold : oldText ts = l ++ r) :
    ∃ (s c : Text) (ts' : List Token),
      ts = s.map .plain ++ .literal (commentMark f ++ c) :: ts' ∧ oldText ts' = r ∧
        Scans (bareScanner (literals f)) false ts' := by
  obtain ⟨s, c, rfl, hs⟩ := exists_of_isCommentLine hf hl
  rw [List.mem_append, List.mem_append, not_or, not_or] at hline
  -- The characters in front are white space on the line, which no literal begins with.
  have hinert : s.all isInert = true := List.all_eq_true.mpr fun a ha => by
    have hset : (isBlank a && a != '\n') = true := by
      rw [List.all_eq_true.mp hs a ha, Bool.true_and, bne_iff_ne]
      exact ne_of_mem_of_not_mem ha hline.1
    have hmarks : "\"'`/*#-\\\n".toList.all (fun b => !(isBlank b && b != '\n')) = true := by
      decide
    exact isInert_of_set hmarks hset
  rw [List.append_assoc] at hold
  obtain ⟨ts₁, rfl, hold₁, h₁⟩ := exists_of_scans_inert h hinert hold
  obtain ⟨ts₂, rfl, hold₂, h₂⟩ := exists_of_scans_literal h₁ hold₁
    (literal?_commentMark hf hline.2.2 hr)
  exact ⟨s, c, ts₂, rfl, hold₂, h₂⟩

/-- The tokens of a text without its comment lines, in which no string has such a line, and no
block comment ends in one. -/
theorem exists_scans_of_pruned (hf : f ≠ .generic) {behind' : Bool} {t' : Text}
    (h : Scans (bareScanner (literals f)) behind ts)
    (hpruned : Pruned (isCommentLine f) (literals f).escapes behind' (oldText ts) t')
    (hstrings : ∀ u ∈ literalsIn ts, isString u = true →
      ∀ l ∈ (lines u).tail, isCommentLine f l = false)
    (hcomments : ∀ u ∈ literalsIn ts, isString u = false →
      ∀ l ∈ (lines u).tail.getLast?, isCommentLine f l = false) :
    ∃ ts', Scans (bareScanner (literals f)) false ts' ∧ oldText ts' = t' ∧
      (literalsIn ts').filter isString = (literalsIn ts).filter isString := by
  -- A line that is taken out is several tokens, so the induction is on their number.
  generalize hn : ts.length = n
  induction n using Nat.strongRecOn generalizing ts behind behind' t' with
  | ind n ih =>
    cases h with
    | stop => exact ⟨[], .stop false, hpruned.of_nil.symm, rfl⟩
    | hit _ hhit => exact hhit.elim
    | @plain _ a ts hnone _ h =>
      have hlt : ts.length < n := by
        rw [← hn]
        exact Nat.lt_succ_self _
      generalize hx : oldText (.plain a :: ts) = x at hpruned
      have hx : a :: oldText ts = x := hx
      cases hpruned with
      | nil => cases hx
      | keep b hpruned =>
        obtain ⟨rfl, rfl⟩ := List.cons.inj hx
        obtain ⟨ts', h', rfl, hsame⟩ := ih _ hlt h hpruned hstrings hcomments rfl
        exact ⟨.plain a :: ts', .plain (LiteralGrammar.literal?_eq_none_of_pruned hpruned hnone)
          trivial (scans_bareScanner h' _), rfl, hsame⟩
      | @drop _ l t₂ _ hl hline hend _ hpruned =>
        -- The line feed and the comment behind it go, and no string with them.
        obtain ⟨rfl, hsplit⟩ := List.cons.inj hx
        obtain ⟨s, c, ts₂, rfl, rfl, h₂⟩ := exists_of_scans_commentLine hf hl hline hend h hsplit
        have hliterals : literalsIn (.plain '\n' :: (s.map .plain ++
            .literal (commentMark f ++ c) :: ts₂)) = (commentMark f ++ c) :: literalsIn ts₂ :=
          literalsIn_plain s _
        rw [hliterals, List.forall_mem_cons] at hstrings hcomments
        rw [List.length_append, List.length_cons] at hlt
        obtain ⟨ts', h', rfl, hsame⟩ := ih ts₂.length (by omega) h₂ hpruned hstrings.2
          hcomments.2 rfl
        refine ⟨ts', h', rfl, ?_⟩
        rw [hsame, hliterals, List.filter_cons_of_neg (by rw [isString_commentMark]; decide)]
    | @literal _ u ts hliteral h =>
      have hlt : ts.length < n := by
        rw [← hn]
        exact Nat.lt_succ_self _
      rw [literalsIn_literal, List.forall_mem_cons] at hstrings hcomments
      obtain ⟨u', t₁, behind₁, rfl, hu', hpruned₁, hsame'⟩ :=
        exists_of_literal hliteral hstrings.1 hcomments.1 hpruned
      obtain ⟨ts', h', rfl, hsame⟩ := ih _ hlt h hpruned₁ hstrings.2 hcomments.2 rfl
      refine ⟨.literal u' :: ts', .literal hu' (scans_bareScanner h' _), rfl, ?_⟩
      show ([u'] ++ literalsIn ts').filter isString = ([u] ++ literalsIn ts).filter isString
      rw [List.filter_append, List.filter_append, hsame', hsame]

end

/-! ### Texts without their comment lines -/

/-- A text ends in a backslash if its last character is one, or it is empty and stands behind
one. -/
theorem endsInSlash_cases {behind : Bool} {u : Text} (h : endsInSlash behind u = true) :
    (u = [] ∧ behind = true) ∨ u.getLast? = some '\\' := by
  induction u generalizing behind with
  | nil => exact .inl ⟨rfl, h⟩
  | cons a u ih =>
    refine .inr ?_
    rcases ih h with ⟨rfl, ha⟩ | hlast
    · rw [List.getLast?_singleton, beq_iff_eq.mp ha]
    · rw [List.getLast?_cons, hlast]
      rfl

/-- Lines that are taken out, each with the line feed in front of it, none behind a backslash. -/
theorem pruned_flatMap {drops : Text → Bool} {guarded behind : Bool} {ls : List Text}
    (hlines : ∀ l ∈ ls, '\n' ∉ l)
    (hslash : guarded = true → ls.IsChain fun l l' =>
      drops l' = true → drops l = true ∨ l.getLast? ≠ some '\\')
    (hbehind : guarded = true → ∀ l ∈ ls.head?, drops l = true → behind = false) :
    Pruned drops guarded behind (ls.flatMap ('\n' :: ·))
      ((ls.filter (fun l => !drops l)).flatMap ('\n' :: ·)) := by
  induction ls generalizing behind with
  | nil => exact .nil behind
  | cons l ls ih =>
    rw [List.forall_mem_cons] at hlines
    have hchain := fun hguarded => List.isChain_cons.mp (hslash hguarded)
    have hhead : (ls.flatMap ('\n' :: ·)).head?.all (· == '\n') = true := by
      cases ls <;> rfl
    rw [List.flatMap_cons, List.cons_append]
    cases hdrops : drops l with
    | true =>
      rw [List.filter_cons_of_neg (by rw [hdrops]; decide)]
      have hfirst := fun hguarded => hbehind hguarded l rfl hdrops
      exact .drop hdrops hlines.1 hhead hfirst
        (ih hlines.2 (fun hguarded => (hchain hguarded).2) fun hguarded _ _ _ => hfirst hguarded)
    | false =>
      rw [List.filter_cons_of_pos (by rw [hdrops]; rfl), List.flatMap_cons, List.cons_append]
      refine .keep '\n' (.append_left l (ih hlines.2 (fun hguarded => (hchain hguarded).2)
        fun hguarded l' hl' hdrops' => ?_))
      rw [← Bool.not_eq_true]
      -- If the next line goes, this one does not end in a backslash, since it stays.
      intro hends
      rcases (hchain hguarded).1 l' hl' hdrops' with hdrop | hplain
      · rw [hdrops] at hdrop
        cases hdrop
      · rcases endsInSlash_cases hends with ⟨-, hfalse⟩ | hlast
        · cases hfalse
        · exact hplain hlast

section

variable {f : Family} {t u : Text}

/-- The lines that stay hold not only a comment. -/
theorem isCommentLine_of_mem_lines {l : Text} (h : l ∈ lines (removeComments f t)) :
    isCommentLine f l = false := by
  rw [removeComments] at h
  by_cases hnil : (lines t).filter (fun l => !isCommentLine f l) = []
  · obtain rfl : l = [] := by
      rw [hnil] at h
      exact List.mem_singleton.mp h
    cases f <;> rfl
  · rw [lines_unlines hnil fun l hl => not_mem_of_mem_lines (List.mem_of_mem_filter hl)] at h
    simpa using (List.mem_filter.mp h).2

/-- The literals of a text are those among its tokens. -/
theorem strings_eq {behind : Bool} {ts : List Token}
    (h : Scans (bareScanner (literals f)) behind ts) :
    strings f (oldText ts) = (literalsIn ts).filter isString := by
  rw [strings]
  exact congrArg _ h.literals_eq

/-- The comments are the literals among the tokens that are no strings. -/
theorem comments_eq {behind : Bool} {ts : List Token}
    (h : Scans (bareScanner (literals f)) behind ts) :
    comments f (oldText ts) = (literalsIn ts).filter (fun u => !isString u) := by
  rw [comments]
  exact congrArg _ h.literals_eq

/-- A literal among the tokens is found in the text. -/
theorem exists_of_mem_literalsIn {s : Scanner} {behind : Bool} {ts : List Token}
    (h : Scans s behind ts) (hu : u ∈ literalsIn ts) :
    ∃ v r, oldText ts = v ++ (u ++ r) ∧ s.grammar.literal? (u ++ r) = some u := by
  induction h with
  | stop => cases hu
  | @plain _ a ts _ _ _ ih =>
    obtain ⟨v, r, hold, hliteral⟩ := ih hu
    exact ⟨a :: v, r, congrArg (a :: ·) hold, hliteral⟩
  | @hit _ old _ ts _ _ _ ih =>
    obtain ⟨v, r, hold, hliteral⟩ := ih hu
    exact ⟨old ++ v, r, (congrArg (old ++ ·) hold).trans (List.append_assoc ..).symm, hliteral⟩
  | @literal _ u' ts hliteral _ ih =>
    rcases List.mem_cons.mp hu with rfl | hu
    · exact ⟨[], oldText ts, rfl, hliteral⟩
    · obtain ⟨v, r, hold, hliteral⟩ := ih hu
      exact ⟨u' ++ v, r, (congrArg (u' ++ ·) hold).trans (List.append_assoc ..).symm, hliteral⟩

/-- A string ends with a quote, which stands in its last line. -/
theorem exists_of_mem_strings (h : u ∈ strings f t) :
    ∃ v r w q, t = v ++ (u ++ r) ∧ u = w ++ [q] ∧ q ∈ "\"'`*".toList := by
  obtain ⟨ts, hscans, rfl⟩ := exists_scans (literals f) t
  rw [strings_eq hscans, List.mem_filter] at h
  obtain ⟨v, r, hold, hliteral⟩ := exists_of_mem_literalsIn hscans h.1
  rcases literal_cases hliteral with ⟨-, w, q, hu, hq⟩ | ⟨hnot, -⟩ | ⟨-, v, rfl, -⟩
  · exact ⟨v, r, w, q, hold, hu, hq⟩
  · rw [hnot] at h
    cases h.2
  · cases h.2

/-- Where comments are removed, no line of a string begins like a comment. -/
theorem isCommentLine_of_mem_strings (h : u ∈ strings f (removeComments f t)) {l : Text}
    (hl : l ∈ (lines u).tail) : isCommentLine f l = false := by
  obtain ⟨v, r, w, q, ht, hu, hq⟩ := exists_of_mem_strings h
  obtain ⟨x, y, hxy, rfl⟩ := exists_of_mem_tail_lines hl
  have hfeed : '\n' ∉ [q] := fun hmem => absurd (List.mem_singleton.mp hmem ▸ hq) (by decide)
  obtain ⟨w', hy⟩ := exists_behind_feed hfeed (hu.symm.trans hxy)
  rw [← isCommentLine_firstLine_append hq hy r]
  refine isCommentLine_of_mem_lines (t := t) ?_
  have hsplit : removeComments f t = (v ++ x) ++ '\n' :: (y ++ r) := by
    rw [ht, hxy]
    simp
  rw [hsplit]
  exact List.mem_of_mem_tail (firstLine_mem_tail_lines _ _)

/-- If no string has a line that begins like a comment, to remove the comments leaves the strings
alone. -/
theorem strings_removeComments (hf : f ≠ .generic)
    (hslash : f = .sql ∨ (lines t).IsChain fun l l' =>
      isCommentLine f l' = true → isCommentLine f l = true ∨ l.getLast? ≠ some '\\')
    (hcomments : ∀ u ∈ comments f t, ∀ l ∈ (lines u).tail.getLast?, isCommentLine f l = false)
    (hstrings : ∀ u ∈ strings f t, ∀ l ∈ (lines u).tail, isCommentLine f l = false) :
    strings f (removeComments f t) = strings f t := by
  obtain ⟨ts, hscans, rfl⟩ := exists_scans (literals f) t
  have hfeed (r : Text) : (literals f).literal? ('\n' :: r) = none := by
    cases f <;> rfl
  -- A line feed in front of the text makes all its lines alike.
  have hscans' : Scans (bareScanner (literals f)) false (.plain '\n' :: ts) :=
    .plain (hfeed _) trivial hscans
  have hlines : (lines (oldText ts)).flatMap ('\n' :: ·) = oldText (.plain '\n' :: ts) := by
    rw [flatMap_feed (lines_ne_nil _), unlines_lines]
    rfl
  have hpruned : Pruned (isCommentLine f) (literals f).escapes false
      ((lines (oldText ts)).flatMap ('\n' :: ·))
      (((lines (oldText ts)).filter (fun l => !isCommentLine f l)).flatMap ('\n' :: ·)) :=
    pruned_flatMap (fun _ => not_mem_of_mem_lines) (fun hguarded => hslash.resolve_left (by
      rintro rfl
      cases hguarded)) (fun _ _ _ _ => rfl)
  rw [hlines] at hpruned
  obtain ⟨ts', hscans'', hold, hsame⟩ := exists_scans_of_pruned hf hscans' hpruned
    (fun u hu hstring => hstrings u (by
      rw [strings_eq hscans]
      exact List.mem_filter.mpr ⟨hu, hstring⟩))
    (fun u hu hstring => hcomments u (by
      rw [comments_eq hscans]
      exact List.mem_filter.mpr ⟨hu, by rw [hstring]; rfl⟩))
  have hempty : unlines ([] : List Text) = [] := rfl
  rw [strings_eq hscans]
  by_cases hnil : (lines (oldText ts)).filter (fun l => !isCommentLine f l) = []
  · rw [hnil, List.flatMap_nil] at hold
    rw [removeComments, hnil, hempty, ← hold]
    exact (strings_eq hscans'').trans hsame
  · rw [flatMap_feed hnil] at hold
    obtain ⟨ts'', rfl, hold', hscans''⟩ := exists_of_scans_plain hscans'' hold (hfeed _)
    rw [removeComments, ← hold']
    exact (strings_eq hscans'').trans hsame

/-- The strings of a text stay the same where its comments are removed if and only if none has a
line that begins like a comment. -/
theorem strings_removeComments_iff (hf : f ≠ .generic)
    (hslash : f = .sql ∨ (lines t).IsChain fun l l' =>
      isCommentLine f l' = true → isCommentLine f l = true ∨ l.getLast? ≠ some '\\')
    (hcomments : ∀ u ∈ comments f t, ∀ l ∈ (lines u).tail.getLast?, isCommentLine f l = false) :
    strings f (removeComments f t) = strings f t ↔
      ∀ u ∈ strings f t, ∀ l ∈ (lines u).tail, isCommentLine f l = false :=
  ⟨fun hsame _ hu _ hl => isCommentLine_of_mem_strings (hsame ▸ hu) hl,
    strings_removeComments hf hslash hcomments⟩

/-- A template that goes on over two lines, and a comment with a quote in it. -/
theorem strings_removeComments_template :
    strings .javascript (removeComments .javascript "a = `x\n y`;\n// it's\nb = '//';") =
      strings .javascript "a = `x\n y`;\n// it's\nb = '//';" :=
  (strings_removeComments_iff (by decide) (.inr (by decide +kernel)) (by decide +kernel)).mpr
    (by decide +kernel)

/-- A line of a docstring, of a template or of a string in a query is taken for a comment. -/
theorem strings_removeComments_ne :
    strings .python (removeComments .python "x = '''\n# a\n'''") ≠
        strings .python "x = '''\n# a\n'''" ∧
      strings .javascript (removeComments .javascript "x = `\n// a\n`") ≠
        strings .javascript "x = `\n// a\n`" ∧
      strings .sql (removeComments .sql "SELECT '\n-- a\n'") ≠
        strings .sql "SELECT '\n-- a\n'" := by
  decide +kernel

end

end CodeTidy.Instruction
