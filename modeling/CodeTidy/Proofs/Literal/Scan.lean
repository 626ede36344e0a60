import CodeTidy.Proofs.Literal.Reader
import CodeTidy.Proofs.Pattern.Stretch

/-!
# `CodeTidy.Proofs.Literal.Scan`: literals and matches in one walk

A replacement outside strings and comments searches the text twice: for its
literals and for the matches of a pattern. If no match runs over the start or
the end of a literal, one walk over the text meets both. It is a list of
tokens: literals, matches outside of them with what takes their places, and
single characters. A `Scanner` says what is known of the places where the
pattern matches and of those where it does not, and `Scans` that the tokens of
a text are read by it. The theorems:

* `exists_gaps_replaceOutside`: the matches that are replaced, and what is not.
* `exists_scans`: the tokens of a text, from which its matches and the text
  after the replacement are read off.
* `Scans.literals_eq`, `Scans.codeOnly_eq`: the literals of a text and its code, read off from
  the tokens.
-/

set_option autoImplicit false

namespace CodeTidy

open Pattern Text

/-- The matches of the pattern that are replaced, which start outside every literal. -/
def LiteralGrammar.hitsOutside (g : LiteralGrammar) (p : Pattern) (t : Text) : List Match :=
  (p.hits t).filter (fun m => !covers (g.literals t) m.start.pos)

/-- What a replacement outside some literals does at a match. -/
def outside (literals : List Match) (f : Match → Text) (m : Match) : Text :=
  if LiteralGrammar.covers literals m.start.pos then m.text else f m

/-- A match inside a literal stays as it is. -/
theorem outside_of_covers {literals : List Match} {m : Match}
    (h : LiteralGrammar.covers literals m.start.pos = true) (f : Match → Text) :
    outside literals f m = m.text := if_pos h

/-- A match outside of all literals is replaced. -/
theorem outside_of_not_covers {literals : List Match} {m : Match}
    (h : LiteralGrammar.covers literals m.start.pos = false) (f : Match → Text) :
    outside literals f m = f m := if_neg (by rw [h]; exact Bool.false_ne_true)

/-! ### What is replaced -/

/-- The gaps with the pieces between them. -/
def interleave : List Text → List Text → Text
  | g :: gaps, u :: pieces => g ++ (u ++ interleave gaps pieces)
  | gaps, _ => gaps.flatten

/-- A text in front belongs to the first gap. -/
theorem interleave_append (v g : Text) (gaps pieces : List Text) :
    interleave ((v ++ g) :: gaps) pieces = v ++ interleave (g :: gaps) pieces := by
  cases pieces with
  | nil => exact List.append_assoc v g gaps.flatten
  | cons u pieces => exact List.append_assoc v g _

/-- What is not replaced stays between the matches that are. -/
theorem exists_gaps (literals : List Match) (segments : List Segment) :
    ∃ g gaps, gaps.length = ((hitsOf segments).filter
        (fun m => !LiteralGrammar.covers literals m.start.pos)).length ∧
      ∀ f, segments.flatMap (Segment.rewrite (outside literals f)) =
        interleave (g :: gaps) (((hitsOf segments).filter
          (fun m => !LiteralGrammar.covers literals m.start.pos)).map f) := by
  induction segments with
  | nil => exact ⟨[], [], rfl, fun _ => rfl⟩
  | cons s segments ih =>
    obtain ⟨g, gaps, hlength, hrest⟩ := ih
    cases s with
    | gap v =>
      refine ⟨v ++ g, gaps, hlength, fun f => ?_⟩
      show v ++ segments.flatMap _ =
        interleave ((v ++ g) :: gaps) (List.map f ((hitsOf segments).filter _))
      rw [interleave_append, hrest f]
    | hit m =>
      show ∃ g gaps, gaps.length = ((m :: hitsOf segments).filter _).length ∧
        ∀ f, outside literals f m ++ segments.flatMap _ =
          interleave (g :: gaps) (List.map f ((m :: hitsOf segments).filter _))
      -- A match inside a literal belongs to the gap, as it stays; any other one ends the gap.
      cases hcovers : LiteralGrammar.covers literals m.start.pos with
      | true =>
        rw [List.filter_cons_of_neg (by rw [hcovers]; exact Bool.false_ne_true)]
        refine ⟨m.text ++ g, gaps, hlength, fun f => ?_⟩
        rw [interleave_append, hrest f, outside_of_covers hcovers]
      | false =>
        rw [List.filter_cons_of_pos (by rw [hcovers]; rfl)]
        refine ⟨[], g :: gaps, congrArg (· + 1) hlength, fun f => ?_⟩
        rw [hrest f, outside_of_not_covers hcovers]
        rfl

/-- A text consists of the matches that are replaced and of what stands between them, and nothing
but the matches is replaced. -/
theorem LiteralGrammar.exists_gaps_replaceOutside (g : LiteralGrammar) (p : Pattern) (t : Text) :
    ∃ gaps : List Text, gaps.length = (g.hitsOutside p t).length + 1 ∧
      ∀ f, g.replaceOutside p f t = interleave gaps ((g.hitsOutside p t).map f) := by
  obtain ⟨v, gaps, hlength, hreplace⟩ := exists_gaps (g.literals t) (p.segments t)
  rw [hitsOf_segments] at hlength hreplace
  exact ⟨v :: gaps, congrArg (· + 1) hlength, hreplace⟩

/-! ### Tokens -/

/-- A piece of a text: a character by itself, a match and what takes its place, or a literal. -/
inductive Token where
  | plain (a : Char)
  | hit (old new : Text)
  | literal (u : Text)

namespace Token

/-- The characters of the piece. -/
def old : Token → Text
  | plain a => [a]
  | hit u _ => u
  | literal u => u

/-- The characters after the replacement. -/
def new : Token → Text
  | plain a => [a]
  | hit _ v => v
  | literal u => u

/-- The characters of the code; literals are blanked out. -/
def code : Token → Text
  | plain a => [a]
  | hit u _ => u
  | literal _ => [' ']

end Token

/-- The text that the tokens make up. -/
def oldText (ts : List Token) : Text := ts.flatMap Token.old

/-- The text after the replacement. -/
def newText (ts : List Token) : Text := ts.flatMap Token.new

/-- The code of the text, with a space for each literal. -/
def codeText (ts : List Token) : Text := ts.flatMap Token.code

/-- The literals among the tokens. -/
def literalsIn (ts : List Token) : List Text :=
  ts.filterMap (fun x => match x with
    | .literal u => some u
    | _ => none)

/-- The matches among the tokens, each with what takes its place. -/
def hitsIn (ts : List Token) : List (Text × Text) :=
  ts.filterMap (fun x => match x with
    | .hit u v => some (u, v)
    | _ => none)

section

variable (t : Text) (ts : List Token)

/-- Characters by themselves are characters of the text. -/
theorem oldText_plain : oldText (t.map Token.plain ++ ts) = t ++ oldText ts := by
  induction t with
  | nil => rfl
  | cons a t ih => exact congrArg (a :: ·) ih

/-- Characters by themselves are no literals. -/
theorem literalsIn_plain : literalsIn (t.map Token.plain ++ ts) = literalsIn ts := by
  induction t with
  | nil => rfl
  | cons a t ih => exact ih

/-- Characters by themselves are no matches. -/
theorem hitsIn_plain : hitsIn (t.map Token.plain ++ ts) = hitsIn ts := by
  induction t with
  | nil => rfl
  | cons a t ih => exact ih

end

/-- What is known of a pattern that is searched outside the literals of a grammar. -/
structure Scanner where
  grammar : LiteralGrammar
  /-- The characters that make a difference to what comes behind them. -/
  isBehind : CharSet
  /-- Whether nothing may match in front of a text, behind such a character or not. -/
  IsFree : Bool → Text → Prop
  /-- Whether a match may be replaced by a text, and some text come behind it. -/
  IsHit : Bool → Text → Text → Text → Prop

/-- The tokens are what the scanner reads, behind one of its characters or not. -/
inductive Scans (s : Scanner) : Bool → List Token → Prop where
  | stop (behind : Bool) : Scans s behind []
  | plain {behind : Bool} {a : Char} {ts : List Token}
      (hnone : s.grammar.literal? (a :: oldText ts) = none)
      (hfree : s.IsFree behind (a :: oldText ts)) (h : Scans s (s.isBehind a) ts) :
      Scans s behind (.plain a :: ts)
  | hit {behind : Bool} {old new : Text} {ts : List Token}
      (hnone : ∀ w, w <:+ old → w ≠ [] → s.grammar.literal? (w ++ oldText ts) = none)
      (hhit : s.IsHit behind old new (oldText ts)) (h : Scans s (old.getLast?.any s.isBehind) ts) :
      Scans s behind (.hit old new :: ts)
  | literal {behind : Bool} {u : Text} {ts : List Token}
      (hliteral : s.grammar.literal? (u ++ oldText ts) = some u)
      (h : Scans s (u.getLast?.any s.isBehind) ts) : Scans s behind (.literal u :: ts)

/-- What the cursor stands behind is the last character that was read. -/
theorem Cursor.Reads.follows_getLast? {c c' : Cursor} {u : Text} (h : c.Reads u c') (hne : u ≠ [])
    (set : CharSet) : c'.follows set = u.getLast?.any set := by
  rw [Cursor.follows, h.before_eq, List.head?_append_of_ne_nil _ (by simpa using hne),
    List.head?_reverse]

/-! ### Literals and code -/

/-- A character at the start of the first piece is the first of the whole. -/
theorem joinWith_cons_char (sep : Text) (a : Char) (w : Text) (pieces : List Text) :
    joinWith sep ((a :: w) :: pieces) = a :: joinWith sep (w :: pieces) := by
  cases pieces with
  | nil => rw [joinWith_singleton, joinWith_singleton]
  | cons v pieces => rw [joinWith_cons_cons, joinWith_cons_cons, List.cons_append]

/-- A text at the start of the first piece is the start of the whole. -/
theorem joinWith_append (sep u w : Text) (pieces : List Text) :
    joinWith sep ((u ++ w) :: pieces) = u ++ joinWith sep (w :: pieces) := by
  induction u with
  | nil => rfl
  | cons a u ih => rw [List.cons_append, joinWith_cons_char, ih, List.cons_append]

section

variable {s : Scanner} {behind : Bool} {ts : List Token}

/-- The walk over the literals of the text meets those among the tokens. -/
theorem Scans.literals_and_code (h : Scans s behind ts) {c : Cursor} {segments : List Segment}
    (hcuts : Cuts s.grammar.pattern c segments) (hafter : c.after = oldText ts) :
    (hitsOf segments).map Match.text = literalsIn ts ∧
      joinWith " " (gapsOf segments) = codeText ts := by
  have hsolid := s.grammar.isSolid_pattern
  -- A stretch in which no literal begins goes to the gap.
  have hstretch {u : Text} {ts : List Token} {c : Cursor} {segments : List Segment}
      (hcuts : Cuts s.grammar.pattern c segments) (hafter : c.after = u ++ oldText ts)
      (hnone : ∀ w, w <:+ u → w ≠ [] → s.grammar.literal? (w ++ oldText ts) = none)
      (ih : ∀ {c : Cursor} {segments : List Segment}, Cuts s.grammar.pattern c segments →
        c.after = oldText ts → (hitsOf segments).map Match.text = literalsIn ts ∧
          joinWith " " (gapsOf segments) = codeText ts) :
      (hitsOf segments).map Match.text = literalsIn ts ∧
        joinWith " " (gapsOf segments) = u ++ codeText ts := by
    have hreads : c.Reads u (c.behind u) := Cursor.reads_behind ⟨oldText ts, hafter.symm⟩
    have hrest : (c.behind u).after = oldText ts := Cursor.after_behind hafter
    obtain ⟨g, rest, rfl, hcuts'⟩ := hcuts.behind_gap hreads fun v w d huv hw hd => by
      rw [LiteralGrammar.matchAt?_eq, hd.after_of_split hreads huv, hrest, hnone w ⟨v, huv.symm⟩ hw]
      rfl
    obtain ⟨hliterals, hcode⟩ := ih hcuts' hrest
    refine ⟨hliterals, ?_⟩
    rw [← hcode]
    exact joinWith_append " " u g _
  induction h generalizing c segments with
  | stop =>
    obtain rfl := hcuts.of_end hsolid hafter
    exact ⟨rfl, rfl⟩
  | @plain behind a ts hnone hfree _ ih =>
    refine hstretch (u := [a]) hcuts hafter (fun w hw hne => ?_) ih
    obtain rfl : w = [a] := (List.suffix_cons_iff.mp hw).resolve_right fun hnil =>
      hne (List.suffix_nil.mp hnil)
    exact hnone
  | @hit behind old new ts hnone hhit _ ih =>
    exact hstretch hcuts hafter hnone ih
  | @literal behind u ts hliteral _ ih =>
    have hafter : c.after = u ++ oldText ts := hafter
    have hmatch : s.grammar.pattern.matchAt? c = some ⟨c, c.behind u, []⟩ := by
      rw [LiteralGrammar.matchAt?_eq, hafter, hliteral]
      rfl
    obtain ⟨rest, rfl, hrest⟩ := hcuts.of_match hsolid hmatch
    have hbehind : (c.behind u).after = oldText ts := Cursor.after_behind hafter
    have htext : (⟨c, c.behind u, []⟩ : Match).text = u :=
      Match.text_of_reads (Cursor.reads_behind ⟨oldText ts, hafter.symm⟩)
    obtain ⟨hliterals, hcode⟩ := ih hrest hbehind
    constructor
    · show Match.text _ :: (hitsOf rest).map Match.text = _
      rw [htext, hliterals]
      rfl
    · obtain ⟨g, rest, rfl⟩ := hrest.exists_gap
      show joinWith " " ([] :: g :: gapsOf rest) = ' ' :: codeText ts
      rw [joinWith_cons_cons, ← hcode]
      rfl

/-- The literals of the text are those among the tokens. -/
theorem Scans.literals_eq (h : Scans s behind ts) :
    (s.grammar.literals (oldText ts)).map Match.text = literalsIn ts := by
  rw [LiteralGrammar.literals, ← hitsOf_segments]
  exact (h.literals_and_code (cuts_segments s.grammar.isSolid_pattern _) rfl).1

/-- The code of the text is that of the tokens. -/
theorem Scans.codeOnly_eq (h : Scans s behind ts) :
    s.grammar.codeOnly (oldText ts) = codeText ts := by
  rw [LiteralGrammar.codeOnly, gaps_eq]
  exact (h.literals_and_code (cuts_segments s.grammar.isSolid_pattern _) rfl).2

end

/-! ### The tokens of a text -/

/-- The scanner says what is true of the pattern and of what takes the places of its matches, and
no match runs over the start or the end of a literal. -/
structure Scanner.Fits (s : Scanner) (p : Pattern) (f : Match → Text) : Prop where
  solid : IsSolid p
  free : ∀ c, p.matchAt? c = none → s.IsFree (c.follows s.isBehind) c.after
  hit : ∀ c m, p.matchAt? c = some m →
    s.IsHit (c.follows s.isBehind) m.text (f m) m.stop.after
  begins : ∀ c m, p.matchAt? c = some m → ∀ w, w <:+ m.text → w ≠ [] →
    s.grammar.literal? (w ++ m.stop.after) = none
  ends : ∀ (c : Cursor) (u v w : Text) (d : Cursor) (m : Match),
    s.grammar.literal? c.after = some u → u = v ++ w → w ≠ [] → c.Reads v d →
      p.matchAt? d = some m → m.text.length ≤ w.length

/-- A literal that ends in front of a place does not cover it. -/
theorem covers_cons_of_le {l : Match} {pos : Nat} (h : l.stop.pos ≤ pos) (literals : List Match) :
    LiteralGrammar.covers (l :: literals) pos = LiteralGrammar.covers literals pos := by
  rw [LiteralGrammar.covers, LiteralGrammar.covers, List.any_cons,
    decide_eq_false (Nat.not_lt.mpr h), Bool.and_false, Bool.false_or]

/-- A place in front of all literals is covered by none. -/
theorem covers_eq_false {literals : List Match} {pos : Nat}
    (h : ∀ l ∈ literals, pos < l.start.pos) : LiteralGrammar.covers literals pos = false := by
  rw [LiteralGrammar.covers, List.any_eq_false]
  intro l hl
  rw [decide_eq_false (Nat.not_le.mpr (h l hl)), Bool.false_and]
  exact Bool.false_ne_true

section

variable {s : Scanner} {p : Pattern} {f : Match → Text} {c : Cursor}
  {literals matches' : List Segment}

/-- The text behind the cursor has tokens that go with the walks over its literals and over the
matches in it. -/
def HasTokens (s : Scanner) (f : Match → Text) (c : Cursor) (literals matches' : List Segment) :
    Prop :=
  ∃ ts, Scans s (c.follows s.isBehind) ts ∧ oldText ts = c.after ∧
    newText ts = matches'.flatMap (Segment.rewrite (outside (hitsOf literals) f)) ∧
    hitsIn ts = ((hitsOf matches').filter
      (fun m => !LiteralGrammar.covers (hitsOf literals) m.start.pos)).map (fun m => (m.text, f m))

/-- Where a literal begins, the walk over the matches is taken up behind it. -/
theorem HasTokens.literal (hfits : s.Fits p f) {u : Text}
    (hliteral : s.grammar.literal? c.after = some u) (hp : Cuts p c matches')
    {lrest : List Segment}
    (h : ∀ prest, Cuts p (c.behind u) prest → HasTokens s f (c.behind u) lrest prest) :
    HasTokens s f c (.gap [] :: .hit ⟨c, c.behind u, []⟩ :: lrest) matches' := by
  have hreads : c.Reads u (c.behind u) := Cursor.reads_behind (LiteralGrammar.begins hliteral)
  obtain ⟨a, w, hu, -⟩ := LiteralGrammar.exists_cons hliteral
  have hne : u ≠ [] := hu ▸ List.cons_ne_nil a w
  obtain ⟨front, prest, hp', hhits, hfront, hrewrite⟩ := hp.behind hreads
    fun v w d m huv hw hd hm => hfits.ends c u v w d m hliteral huv hw hd hm
  obtain ⟨ts, hscans, hold, hnew, hin⟩ := h prest hp'
  -- The literal covers the matches in it and none of those behind it.
  have hcovered : ∀ m ∈ front,
      LiteralGrammar.covers (⟨c, c.behind u, []⟩ :: hitsOf lrest) m.start.pos = true := by
    intro m hm
    rw [LiteralGrammar.covers, List.any_cons, Bool.or_eq_true, Bool.and_eq_true,
      decide_eq_true_eq, decide_eq_true_eq]
    exact .inl (hfront m hm)
  have hbehind : ∀ m ∈ hitsOf prest,
      LiteralGrammar.covers (⟨c, c.behind u, []⟩ :: hitsOf lrest) m.start.pos =
        LiteralGrammar.covers (hitsOf lrest) m.start.pos :=
    fun m hm => covers_cons_of_le (hp'.pos_le hm) _
  have hkept : (hitsOf matches').filter (fun m =>
        !LiteralGrammar.covers (⟨c, c.behind u, []⟩ :: hitsOf lrest) m.start.pos) =
      (hitsOf prest).filter (fun m => !LiteralGrammar.covers (hitsOf lrest) m.start.pos) := by
    rw [hhits, List.filter_append, List.filter_eq_nil_iff.mpr fun m hm => by
      rw [hcovered m hm]
      exact Bool.false_ne_true, List.nil_append]
    exact List.filter_congr fun m hm => by rw [hbehind m hm]
  refine ⟨.literal u :: ts, .literal ?_ ?_, ?_, ?_, ?_⟩
  · rw [hold, ← hreads.after_eq, hliteral]
  · rw [← hreads.follows_getLast? hne]
    exact hscans
  · rw [hreads.after_eq, ← hold]
    rfl
  · show u ++ newText ts =
      matches'.flatMap (Segment.rewrite (outside (⟨c, c.behind u, []⟩ :: hitsOf lrest) f))
    rw [hrewrite _ fun m hm => outside_of_covers (hcovered m hm) f, hnew]
    refine congrArg (u ++ ·) (flatMap_rewrite_congr fun m hm => ?_)
    rw [outside, outside, hbehind m hm]
  · show hitsIn ts = List.map _ ((hitsOf matches').filter (fun m =>
      !LiteralGrammar.covers (⟨c, c.behind u, []⟩ :: hitsOf lrest) m.start.pos))
    rw [hkept, hin]

/-- No literal begins in a match, so the walk over the literals is taken up behind it. -/
theorem HasTokens.hit (hfits : s.Fits p f) {m : Match} (hm : p.matchAt? c = some m)
    (hl : Cuts s.grammar.pattern c literals) {prest : List Segment}
    (h : ∀ lrest, Cuts s.grammar.pattern m.stop lrest → HasTokens s f m.stop lrest prest) :
    HasTokens s f c literals (.gap [] :: .hit m :: prest) := by
  obtain ⟨a, u, hreads, htext, -⟩ := exists_cons_reads_of_matchAt? hfits.solid hm
  rw [← htext] at hreads
  have hne : m.text ≠ [] := htext ▸ List.cons_ne_nil a u
  have hbegins := hfits.begins c m hm
  obtain ⟨g, rest, rfl, hl'⟩ := hl.behind_gap hreads fun v w d huv hw hd => by
    rw [LiteralGrammar.matchAt?_eq, hd.after_of_split hreads huv, hbegins w ⟨v, huv.symm⟩ hw]
    rfl
  obtain ⟨ts, hscans, hold, hnew, hin⟩ := h _ hl'
  -- All literals that are still to come lie behind the match.
  have hfree : LiteralGrammar.covers (hitsOf (.gap g :: rest)) m.start.pos = false := by
    refine covers_eq_false fun l hmem => ?_
    have hpos := hl'.pos_le hmem
    have hlength := List.length_pos_iff.mpr hne
    rw [hreads.pos_eq] at hpos
    rw [(takes_of_matchAt? hm).1]
    omega
  refine ⟨.hit m.text (f m) :: ts, .hit ?_ ?_ ?_, ?_, ?_, ?_⟩
  · rw [hold]
    exact hbegins
  · rw [hold]
    exact hfits.hit c m hm
  · rw [← hreads.follows_getLast? hne]
    exact hscans
  · rw [hreads.after_eq, ← hold]
    rfl
  · show f m ++ newText ts = outside (hitsOf (.gap g :: rest)) f m ++ _
    rw [outside_of_not_covers hfree, hnew]
    rfl
  · show (m.text, f m) :: hitsIn ts = List.map _ ((m :: hitsOf prest).filter (fun m =>
      !LiteralGrammar.covers (hitsOf (.gap g :: rest)) m.start.pos))
    rw [List.filter_cons_of_pos (by rw [hfree]; rfl), hin]
    rfl

/-- Where neither begins, both walks pass one character. -/
theorem HasTokens.plain (hfits : s.Fits p f) {a : Char} {r : Text} (hafter : c.after = a :: r)
    (hliteral : s.grammar.literal? c.after = none) (hm : p.matchAt? c = none)
    (hl : Cuts s.grammar.pattern c literals) (hp : Cuts p c matches')
    (h : ∀ lrest prest, Cuts s.grammar.pattern (c.behind [a]) lrest → Cuts p (c.behind [a]) prest →
      HasTokens s f (c.behind [a]) lrest prest) : HasTokens s f c literals matches' := by
  have hreads : c.Reads [a] (c.behind [a]) := Cursor.reads_behind ⟨r, hafter.symm⟩
  -- No match begins inside a single character, so both walks go on behind it.
  have hsingle {q : Pattern} (hq : q.matchAt? c = none) :
      ∀ v w d, [a] = v ++ w → w ≠ [] → c.Reads v d → q.matchAt? d = none := by
    intro v w d hvw hw hd
    cases v with
    | nil => rwa [hd.unique (.refl c)]
    | cons b v => exact absurd (List.append_eq_nil_iff.mp (List.cons.inj hvw).2.symm).2 hw
  have hnone : s.grammar.pattern.matchAt? c = none := by
    rw [LiteralGrammar.matchAt?_eq, hliteral]
    rfl
  obtain ⟨g, lrest, rfl, hl'⟩ := hl.behind_gap hreads (hsingle hnone)
  obtain ⟨g', prest, rfl, hp'⟩ := hp.behind_gap hreads (hsingle hm)
  obtain ⟨ts, hscans, hold, hnew, hin⟩ := h _ _ hl' hp'
  have hold' : a :: oldText ts = c.after := by
    rw [hold]
    exact hreads.after_eq.symm
  refine ⟨.plain a :: ts, .plain ?_ ?_ ?_, hold', congrArg (a :: ·) hnew, hin⟩
  · rw [hold', hliteral]
  · rw [hold']
    exact hfits.free c hm
  · exact hreads.follows (u := []) s.isBehind ▸ hscans

/-- The text has tokens, in which literals and matches are those of the two walks: a literal that
begins at the place is taken first, then a match, then a single character. -/
theorem Scanner.Fits.hasTokens (hfits : s.Fits p f) (hl : Cuts s.grammar.pattern c literals)
    (hp : Cuts p c matches') : HasTokens s f c literals matches' := by
  have hsolid := s.grammar.isSolid_pattern
  -- By induction on the text that is left, as both walks take several characters at once.
  generalize hn : c.after.length = n
  induction n using Nat.strongRecOn generalizing c literals matches' with
  | ind n ih =>
    have hlater {c' : Cursor} {u : Text} (hreads : c.Reads u c') (hne : u ≠ []) :
        c'.after.length < n := by
      have hlength := List.length_pos_iff.mpr hne
      rw [← hn, hreads.after_eq, List.length_append]
      omega
    by_cases hend : c.after = []
    · obtain rfl := hl.of_end hsolid hend
      obtain rfl := hp.of_end hfits.solid hend
      exact ⟨[], .stop _, hend.symm, rfl, rfl⟩
    cases hliteral : s.grammar.literal? c.after with
    | some u =>
      have hmatch : s.grammar.pattern.matchAt? c = some ⟨c, c.behind u, []⟩ := by
        rw [LiteralGrammar.matchAt?_eq, hliteral]
        rfl
      obtain ⟨lrest, rfl, hl'⟩ := hl.of_match hsolid hmatch
      obtain ⟨a, w, hu, -⟩ := LiteralGrammar.exists_cons hliteral
      exact .literal hfits hliteral hp fun prest hp' =>
        ih _ (hlater (Cursor.reads_behind (LiteralGrammar.begins hliteral))
          (hu ▸ List.cons_ne_nil a w)) hl' hp' rfl
    | none =>
      cases hm : p.matchAt? c with
      | some m =>
        obtain ⟨prest, rfl, hp'⟩ := hp.of_match hfits.solid hm
        obtain ⟨a, u, hreads, -⟩ := exists_cons_reads_of_matchAt? hfits.solid hm
        exact .hit hfits hm hl fun lrest hl' =>
          ih _ (hlater hreads (List.cons_ne_nil a u)) hl' hp' rfl
      | none =>
        obtain ⟨a, r, hafter⟩ := List.exists_cons_of_ne_nil hend
        exact .plain hfits hafter hliteral hm hl hp fun lrest prest hl' hp' =>
          ih _ (hlater (Cursor.reads_behind ⟨r, hafter.symm⟩) (List.cons_ne_nil a [])) hl' hp' rfl

/-- The tokens of a text. The matches that are replaced and the text after the replacement are read
off from them. -/
theorem Scanner.Fits.exists_scans (hfits : s.Fits p f) (t : Text) :
    ∃ ts, Scans s false ts ∧ oldText ts = t ∧ newText ts = s.grammar.replaceOutside p f t ∧
      hitsIn ts = (s.grammar.hitsOutside p t).map (fun m => (m.text, f m)) := by
  obtain ⟨ts, hscans, hold, hnew, hin⟩ := hfits.hasTokens
    (cuts_segments s.grammar.isSolid_pattern t) (cuts_segments hfits.solid t)
  rw [hitsOf_segments] at hnew hin
  rw [hitsOf_segments] at hin
  exact ⟨ts, hscans, hold, hnew, hin⟩

end

end CodeTidy
