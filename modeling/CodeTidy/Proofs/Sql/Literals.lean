import CodeTidy.Proofs.Sql.Content
import CodeTidy.Proofs.Sql.Lockstep

/-!
# `CodeTidy.Proofs.Sql.Literals`: what formatting does to literals

The passes that put keywords in capitals and clauses on new lines work outside
literals, and no literal is changed by them. The layout of select lists and the
removal of white space at the ends of lines do not mind literals. They keep the
literals exactly if each of them still stands at its place afterwards: none of
the white space inside it is changed, and behind a comment the line still
ends. The theorems:

* `stands_mapGaps`, `literals_outsideLiterals`: what is done outside literals only
  does not change them.
* `literals_breakClauses`: so it is with keywords and clauses.
* `format_keeps_literals_iff`: when formatting keeps the literals.
* `format_changes_string`: a query whose string is changed.
-/

set_option autoImplicit false

namespace CodeTidy.Sql

open Pattern Text

/-! ### What is done outside literals -/

/-- A pass keeps what a literal needs of a gap behind it: the number of visible characters, the
marks, and the line feed that ends a comment. -/
structure KeepsGaps (f : Bool → Text → Text) : Prop where
  read_eq : ∀ s isFirst t, markReader.read s (f isFirst t) = markReader.read s t
  nil_eq : f false [] = []
  head_feed : ∀ t, t.head? = some '\n' → (f false t).head? = some '\n'

/-- A pass that keeps what literals need keeps the number of visible characters. -/
theorem KeepsGaps.size_eq {f : Bool → Text → Text} (hf : KeepsGaps f) (isFirst : Bool) (t : Text) :
    size (f isFirst t) = size t := by
  have hclosed := congrArg markReader.close (hf.read_eq Marks.start isFirst t)
  rw [size, ← length_marksFrom false, marksFrom_of_close_read hclosed, length_marksFrom, size]

/-- A gap that is empty or begins with a line feed is so afterwards. -/
theorem KeepsGaps.head_append {f : Bool → Text → Text} (hf : KeepsGaps f) {g r : Text}
    (hg : g.head?.all (· == '\n') = true) (hr : g = [] → r = []) :
    (f false g ++ r).head?.all (· == '\n') = true := by
  cases g with
  | nil =>
    rw [hf.nil_eq, hr rfl]
    rfl
  | cons a g =>
    have ha : a = '\n' := by simpa using hg
    have hhead := hf.head_feed (a :: g) (by rw [ha, List.head?_cons])
    rw [List.head?_append, hhead]
    rfl

/-- What a literal begins with. -/
theorem exists_cons_of_matchAt? {c : Cursor} {m : Match} (h : literals.matchAt? c = some m) :
    ∃ a u, m.text = a :: u ∧ isBlank a = false := by
  obtain ⟨hliteral, -, -⟩ := matchAt?_eq_some h
  obtain ⟨r, hr⟩ := (isLiteral_of_literal? hliteral).begins
  cases htext : m.text with
  | nil =>
    obtain ⟨a, u, -, hcons, -⟩ := exists_cons_reads_of_matchAt? (isSolid_spec rfl) h
    rw [htext] at hcons
    cases hcons
  | cons a u =>
    rw [← hr, htext, List.cons_append] at hliteral
    exact ⟨a, u, rfl, isBlank_of_literal? hliteral⟩

/-- Behind a comment there is a line feed or the end of the text, and so there is afterwards. -/
theorem head_mapGaps {f : Bool → Text → Text} (hf : KeepsGaps f) {c : Cursor}
    {segments : List Segment} (h : Pieces literals c segments)
    (hend : c.after.head?.all (· == '\n') = true) :
    (mapGaps f false segments).head?.all (· == '\n') = true := by
  cases h with
  | @last c c' g hreads hnone =>
    rw [hreads.after_eq, hnone, List.append_nil] at hend
    rw [mapGaps, mapGaps]
    exact hf.head_append hend (fun _ => rfl)
  | @more c c' g m rest hreads hmatch hrest =>
    obtain ⟨a, u, htext, hblank⟩ := exists_cons_of_matchAt? hmatch
    obtain ⟨-, hreads', -⟩ := matchAt?_eq_some hmatch
    rw [hreads.after_eq, hreads'.after_eq, htext] at hend
    rw [mapGaps, mapGaps]
    cases g with
    | nil =>
      -- No literal begins with a line feed.
      have ha : a = '\n' := by simpa using hend
      rw [ha] at hblank
      cases hblank
    | cons b g => exact hf.head_append hend (fun h => absurd h (List.cons_ne_nil b g))

/-- Each literal stands at its place in the text that is changed outside literals. -/
theorem stands_mapGaps {f : Bool → Text → Text} (hf : KeepsGaps f) {c : Cursor}
    {segments : List Segment} (h : Pieces literals c segments) {z : Text} {isFirst : Bool}
    (hplace : fromVisible (size c.before) z = fromVisible 0 (mapGaps f isFirst segments)) :
    ∀ m ∈ hitsOf segments, Stands z (place m) m.text := by
  induction h generalizing isFirst with
  | last hreads hnone =>
    intro m hm
    cases hm
  | @more c c' g m rest hreads hmatch hrest ih =>
    obtain ⟨hliteral, hreads', hstart⟩ := matchAt?_eq_some hmatch
    obtain ⟨a, u, htext, hblank⟩ := exists_cons_of_matchAt? hmatch
    rw [mapGaps, mapGaps] at hplace
    -- As many visible characters stand in front of the literal as before, since gaps keep theirs.
    have hhere : fromVisible (size c'.before) z = m.text ++ mapGaps f false rest := by
      rw [hreads.before_eq, size_append, size_reverse, Nat.add_comm, ← fromVisible_fromVisible,
        hplace, fromVisible_fromVisible, Nat.zero_add, ← hf.size_eq isFirst, fromVisible_append,
        htext]
      exact fromVisible_zero hblank _
    have hbehind : fromVisible (size m.stop.before) z = fromVisible 0 (mapGaps f false rest) := by
      rw [hreads'.before_eq, size_append, size_reverse, Nat.add_comm, ← fromVisible_fromVisible,
        hhere, fromVisible_append]
    intro m' hm'
    rcases List.mem_cons.mp hm' with rfl | hm'
    · refine ⟨mapGaps f false rest, by rw [place, hstart, hhere], fun hhead => ?_⟩
      -- A comment ends where a line does, and that line feed is kept in front of the next gap.
      rcases (isLiteral_of_literal? hliteral).ends with ⟨hne, -⟩ | hend
      · exact absurd hhead hne
      · rw [hreads'.after_eq, List.drop_left] at hend
        exact head_mapGaps hf hrest hend
    · exact ih hbehind m' hm'

/-- What is done outside literals only does not change them. -/
theorem literals_outsideLiterals {f : Bool → Text → Text} (hf : KeepsGaps f) (t : Text) :
    (literals.hits (outsideLiterals f t)).map Match.text = (literals.hits t).map Match.text := by
  have hpieces : Pieces literals (Cursor.start t) (literals.segments t) :=
    (cuts_segments (isSolid_spec rfl) t).pieces
  have hread : markReader.read Marks.start (outsideLiterals f t) = markReader.read Marks.start t :=
    read_outsideLiterals (fun s isFirst t _ => hf.read_eq s isFirst t) rfl t
  rw [literals_eq_iff (marksFrom_of_close_read (congrArg markReader.close hread.symm)),
    ← hitsOf_segments]
  have hplace : fromVisible (size (Cursor.start t).before) (outsideLiterals f t) =
      fromVisible 0 (mapGaps f true (literals.segments t)) := rfl
  exact stands_mapGaps hf hpieces hplace

/-! ### Keywords and clauses -/

/-- In an empty text nothing is replaced. -/
theorem replace_nil {p : Pattern} (hp : IsSolid p) (f : Match → Text) : p.replace f [] = [] := by
  have hcuts := cuts_segments hp []
  rw [replace_eq]
  generalize p.segments [] = segments at hcuts
  cases hcuts with
  | stop hend => rfl
  | pass hread hnone hrest =>
    have hafter := hread.after_eq
    cases hafter
  | hit hmatch hrest =>
    obtain ⟨a, u, hreads, -, -⟩ := exists_cons_reads_of_matchAt? hp hmatch
    cases hreads.after_eq

/-- A line feed at the start stays, unless a match there puts something else in its place. -/
theorem head_replace {p : Pattern} (hp : IsSolid p) {f : Match → Text} {t : Text}
    (ht : t.head? = some '\n')
    (hf : ∀ m, p.matchAt? (Cursor.start t) = some m → (f m).head? = some '\n') :
    (p.replace f t).head? = some '\n' := by
  have hcuts := cuts_segments hp t
  rw [replace_eq]
  generalize p.segments t = segments at hcuts
  cases hcuts with
  | stop hend =>
    have hnil : t = [] := hend
    rw [hnil] at ht
    cases ht
  | @pass _ c' a g rest hread hnone hrest =>
    have hcons : t = a :: c'.after := hread.after_eq
    rw [hcons] at ht
    exact ht
  -- The match at the start decides what comes first.
  | @hit _ m rest hmatch hrest =>
    rw [List.flatMap_cons, List.flatMap_cons, Segment.rewrite, Segment.rewrite, List.nil_append,
      List.head?_append, hf m hmatch]
    rfl

/-- At the start of a text that begins with a line feed there is no boundary of a word. -/
theorem atWordBoundary_feed {t : Text} (ht : t.head? = some '\n') :
    (Cursor.start t).atWordBoundary = false := by
  have hprecedes : (Cursor.start t).precedes isWord = false := by
    rw [Cursor.precedes, Cursor.start, ht]
    decide
  rw [Cursor.atWordBoundary, hprecedes]
  rfl

/-- A pattern that begins with a boundary does not match in front of a line feed. -/
theorem head_replace_boundary {p q : Pattern} (hp : IsSolid p) (hq : p = .both boundary q)
    (f : Match → Text) {t : Text} (ht : t.head? = some '\n') :
    (p.replace f t).head? = some '\n' := by
  subst hq
  refine head_replace hp ht (fun m hm => ?_)
  obtain ⟨-, c₁, caps₁, ⟨hbound, -⟩, -⟩ := takes_of_matchAt? hm
  rw [atWordBoundary_feed ht] at hbound
  cases hbound

/-- Keywords in capitals keep what literals need. -/
theorem keepsGaps_capitalizeKeywords : KeepsGaps (fun _ => capitalizeKeywords) where
  read_eq s _ t := read_capitalizeKeywords markReader s t
  nil_eq := by
    rw [capitalizeKeywords, replace_nil (isSolid_spec rfl), replace_nil (isSolid_spec rfl),
      replace_nil (isSolid_spec rfl)]
  head_feed t ht := by
    rw [capitalizeKeywords]
    exact head_replace_boundary (isSolid_spec rfl) rfl _ (head_replace_boundary (isSolid_spec rfl)
      rfl _ (head_replace_boundary (isSolid_spec rfl) rfl _ ht))

/-- Clauses and joins on new lines keep what literals need. -/
theorem keepsGaps_breakLines : KeepsGaps breakLines where
  read_eq s isFirst t := read_breakLines markReader isFirst (.inl (markReader_isFree s))
  nil_eq := by
    rw [breakLines, replace_nil (isSolid_spec rfl), replace_nil (isSolid_spec rfl)]
  head_feed t ht := by
    have hclause : (clause.replace (onNewLine false) t).head? = some '\n' := by
      refine head_replace (isSolid_spec rfl) ht (fun m hm => ?_)
      obtain ⟨hstart, -⟩ := takes_of_matchAt? hm
      -- At the start of a segment there is no parenthesis in front of the clause.
      have hfollows : m.start.follows (· == '(') = false := by rw [hstart]; rfl
      rw [onNewLine, Bool.false_and, if_neg Bool.false_ne_true, hfollows,
        if_neg Bool.false_ne_true]
      rfl
    exact head_replace (isSolid_spec rfl) hclause (fun m _ => rfl)

/-- The query with its keywords in capitals and its clauses and joins on new lines. -/
def breakClauses (t : Text) : Text :=
  outsideLiterals breakLines (outsideLiterals (fun _ => capitalizeKeywords) t)

/-- Putting keywords in capitals and clauses on new lines changes no literal. -/
theorem literals_breakClauses (t : Text) :
    (literals.hits (breakClauses t)).map Match.text = (literals.hits t).map Match.text := by
  rw [breakClauses, literals_outsideLiterals keepsGaps_breakLines,
    literals_outsideLiterals keepsGaps_capitalizeKeywords]

/-! ### The formatted query -/

/-- The literals of a formatted query are those of the query exactly if the layout of the select
lists and of the ends of lines leaves each of them at its place. -/
theorem format_keeps_literals_iff (comments : Bool) (t : Text) :
    (literals.hits (format false comments t)).map Match.text = (literals.hits t).map Match.text ↔
      ∀ m ∈ literals.hits (breakClauses t),
        Stands (tidyLines t (selectList.replace columnsOnLines (breakClauses t))) (place m)
          m.text := by
  have hformat : format false comments t =
      tidyLines t (selectList.replace columnsOnLines (breakClauses t)) := rfl
  have hread : markReader.read Marks.start (breakClauses t) = markReader.read Marks.start t := by
    rw [breakClauses,
      read_outsideLiterals (fun s b t _ => keepsGaps_breakLines.read_eq s b t) rfl,
      read_outsideLiterals (fun s b t _ => keepsGaps_capitalizeKeywords.read_eq s b t) rfl]
  have hmarks : marksFrom false (breakClauses t) = marksFrom false (format false comments t) := by
    refine marksFrom_of_close_read ?_
    rw [hread, close_read_format markReader rfl rfl]
  rw [← literals_breakClauses t, literals_eq_iff hmarks, hformat]

/-- Two spaces in a string of a select list become one. -/
theorem format_changes_string :
    (literals.hits (format false false "SELECT 'a  b',c".toList)).map Match.text ≠
      (literals.hits "SELECT 'a  b',c".toList).map Match.text := by
  decide +kernel

/-- A comment of a select list is cut at its comma. What stood behind the comma is no longer part of
the comment, and a second run writes it in capitals. -/
theorem format_format_comment :
    format false false (format false false "SELECT -- a,as".toList) ≠
      format false false "SELECT -- a,as".toList := by
  decide +kernel

end CodeTidy.Sql
