import CodeTidy.Proofs.Pattern.Rewrite
import CodeTidy.Proofs.Rule.Nesting
import CodeTidy.Proofs.Sql.Lexer
import CodeTidy.Proofs.Text.Tally
import CodeTidy.Sql.Format

/-!
# `CodeTidy.Proofs.Sql.Content`: formatting loses and merges nothing

Formatting a query changes its white space and the case of its keywords. No
`Reader` notices that, which two facts about the pattern of each pass account
for: the words that it rewrites are keywords, and it puts in or takes out white
space only at the boundaries of words and next to commas and parentheses. The
theorems:

* `read_capitalizeKeywords`, `read_breakLines`: the two passes that work
  outside literals keep the state of a reader at any place.
* `agrees_columnsOnLines`, `read_indentSubquery`, `close_read_tidyLines`: the
  passes that do not mind literals keep it as far as it is closed.
* `close_read_format`: so does formatting as a whole.
* `format_keeps_content`: the characters other than white space and the words
  of a formatted query, in capitals, are those of the query.
-/

set_option autoImplicit false

namespace CodeTidy.Sql

open Pattern Text

variable {σ : Type} (r : Reader σ)

/-! ### Keywords in capitals -/

/-- One of the words is read in letters of any case, so all of them are letter forms. -/
theorem takes_anyCaseOf {ws : List String} {c c' : Cursor} {caps caps' : Captures}
    (hws : ws.all (fun w => w.toList.all (fun l => l.toLower.isLower)) = true)
    (h : Takes (anyCaseOf ws) c caps c' caps') :
    ∃ u, c.Reads u c' ∧ caps' = caps ∧ ∀ a ∈ u, a ∈ letterForms := by
  obtain ⟨p, hp, htakes⟩ := takes_oneOf h
  obtain ⟨w, hw, rfl⟩ := List.mem_map.mp hp
  obtain ⟨u, hu, hcaps, -, hforms⟩ := takes_anyCase (List.all_eq_true.mp hws w hw) htakes
  exact ⟨u, hu, hcaps, hforms⟩

/-- Keywords and the names of aggregates are written in capitals. -/
theorem read_replace_upper {p : Pattern} (hp : p.isSolid = true)
    (hforms : ∀ c caps c' caps', Takes p c caps c' caps' →
      ∃ u, c.Reads u c' ∧ ∀ a ∈ u, a ∈ letterForms) (s : σ) (t : Text) :
    r.read s (p.replace (fun m => upper m.text) t) = r.read s t := by
  refine read_replace r (isSolid_spec hp) s (fun v m hm => ?_)
  obtain ⟨u, hu, hletters⟩ := hforms _ _ _ _ hm.takes
  rw [Match.text_of_reads hu]
  exact r.read_upper _ hletters

/-- Keywords in capitals are read as they were. -/
theorem read_keyword (s : σ) (t : Text) :
    r.read s (keyword.replace (fun m => upper m.text) t) = r.read s t := by
  refine read_replace_upper r rfl (fun c caps c' caps' h => ?_) s t
  obtain ⟨c₁, caps₁, ⟨-, rfl, rfl⟩, c₂, caps₂, hword, -, rfl, -⟩ := h
  obtain ⟨u, hu, -, hforms⟩ := takes_anyCaseOf (by decide) hword
  exact ⟨u, hu, hforms⟩

/-- Aggregate functions in capitals are read as they were. -/
theorem read_aggregate (s : σ) (t : Text) :
    r.read s (aggregate.replace (fun m => upper m.text) t) = r.read s t := by
  refine read_replace_upper r rfl (fun c caps c' caps' h => ?_) s t
  obtain ⟨c₁, caps₁, ⟨-, rfl, rfl⟩, c₂, caps₂, hword, rfl, -⟩ := h
  obtain ⟨u, hu, -, hforms⟩ := takes_anyCaseOf (by decide) hword
  exact ⟨u, hu, hforms⟩

/-- The letters of the second keyword have one capital form each. -/
theorem upperChar_by {c : Char} (hc : c ∈ letterForms) :
    (sameIgnoringCase 'b' c = true → upperChar c = ['B']) ∧
      (sameIgnoringCase 'y' c = true → upperChar c = ['Y']) := by
  have hforms : letterForms.all (fun c =>
      (!sameIgnoringCase 'b' c || upperChar c == ['B']) &&
        (!sameIgnoringCase 'y' c || upperChar c == ['Y'])) = true := by
    decide +kernel
  have hform := List.all_eq_true.mp hforms c hc
  simp only [Bool.and_eq_true, Bool.or_eq_true, Bool.not_eq_true', beq_iff_eq] at hform
  exact ⟨fun h => hform.1.resolve_left (by simp [h]), fun h => hform.2.resolve_left (by simp [h])⟩

/-- The word `BY` in capitals, behind one space, is read as it was with any white space in front. -/
theorem read_by (s : σ) {w : Text} {a b : Char} (hblank : w.all isBlank = true) (hne : w ≠ [])
    (ha : sameIgnoringCase 'b' a = true) (hb : sameIgnoringCase 'y' b = true) :
    r.read s " BY".toList = r.read s (w ++ [a, b]) := by
  have ha' := mem_letterForms rfl ha
  have hb' := mem_letterForms rfl hb
  have hletters : upper [a, b] = "BY".toList := by
    rw [upper_cons, upper_cons, (upperChar_by ha').1 ha, (upperChar_by hb').2 hb]
    rfl
  have hforms : ∀ c ∈ [a, b], c ∈ letterForms := by
    intro c hc
    simp only [List.mem_cons, List.not_mem_nil, or_false] at hc
    rcases hc with rfl | rfl
    · exact ha'
    · exact hb'
  calc r.read s " BY".toList
      = r.read (r.read s [' ']) (upper [a, b]) := by rw [hletters]; rfl
    _ = r.read (r.close s) [a, b] := by
        rw [r.read_blanks s (u := [' ']) (by decide) (by decide), r.read_upper _ hforms]
    _ = r.read s (w ++ [a, b]) := by rw [r.read_append, r.read_blanks s hblank hne]

/-- The two keywords of two words are read as they were. -/
theorem read_groupOrOrder (s : σ) (t : Text) :
    r.read s (groupOrOrder.replace (fun m => upper (m.group 1) ++ " BY") t) = r.read s t := by
  refine read_replace r (isSolid_spec rfl) s (fun v m hm => ?_)
  obtain ⟨c₁, caps₁, ⟨-, rfl, rfl⟩, c₂, caps₂, ⟨caps₃, hword, rfl⟩, c₃, caps₄,
    ⟨w, hblank, hne, hspace, rfl⟩, c₄, caps₅,
    ⟨c₅, caps₆, ⟨a, ha, hread, rfl⟩, c₆, caps₇, ⟨b, hb, hread', rfl⟩, rfl, rfl⟩, -,
      hstop, hgroups⟩ :=
    hm.takes
  obtain ⟨u, hu, rfl, hforms⟩ := takes_anyCaseOf (by decide) hword
  have htext : m.text = u ++ (w ++ [a, b]) :=
    Match.text_of_reads (hstop ▸ hu.trans (hspace.trans (hread.trans hread')))
  have hgroup : m.group 1 = u := Match.group_of_lookup (by rw [hgroups]; rfl) hu
  rw [htext, hgroup, r.read_append, r.read_append, r.read_upper _ hforms]
  exact read_by r _ hblank (List.ne_nil_of_length_pos hne) ha hb

/-- All keywords in capitals are read as they were. -/
theorem read_capitalizeKeywords (s : σ) (t : Text) :
    r.read s (capitalizeKeywords t) = r.read s t := by
  rw [capitalizeKeywords, read_groupOrOrder, read_aggregate, read_keyword]

/-! ### Clauses and joins on new lines -/

/-- Between a boundary and a word character there is no word character. -/
theorem follows_of_boundary {c c' : Cursor} {a : Char} {w : Text} (h : c.atWordBoundary = true)
    (hw : c.Reads (a :: w) c') (ha : isWord a = true) : c.follows isWord = false := by
  rw [Cursor.atWordBoundary, hw.precedes, ha] at h
  cases hf : c.follows isWord with
  | false => rfl
  | true => rw [hf] at h; cases h

/-- In front of a word of the text white space does not count, unless the text itself goes on from
a word. -/
theorem isFree_before_word {s : σ} {t v w : Text} {c c' : Cursor} {a : Char}
    (hs : r.IsFree s ∨ t.beginsNoWord = true) (hv : (Cursor.start t).Reads v c)
    (hbound : c.atWordBoundary = true) (hw : c.Reads (a :: w) c') (ha : isWord a = true) :
    r.IsFree (r.read s v) := by
  have hfollows := follows_of_boundary hbound hw ha
  rcases List.eq_nil_or_concat v with rfl | ⟨v, b, rfl⟩
  · rcases hs with hs | hs
    · exact hs
    · have ht : t = a :: (w ++ c'.after) := by
        have hafter := hv.after_eq
        rwa [List.nil_append, hw.after_eq] at hafter
      rw [ht, beginsNoWord_cons, ha] at hs
      cases hs
  · rw [List.concat_eq_append] at hv ⊢
    rw [hv.follows] at hfollows
    rw [r.read_append]
    exact r.isFree_step _ hfollows

/-- A word behind white space is read as behind any other, or none. -/
theorem read_before_word {s : σ} {t v u w : Text} {c c₁ c' : Cursor} {a : Char}
    (hs : r.IsFree s ∨ t.beginsNoWord = true) (hv : (Cursor.start t).Reads v c)
    (hu : c.Reads u c₁) (hblank : u.all isBlank = true) (hbound : c₁.atWordBoundary = true)
    (hw : c₁.Reads (a :: w) c') (ha : isWord a = true) :
    r.read (r.read s v) (u ++ (a :: w)) = r.read (r.close (r.read s v)) (a :: w) := by
  cases u with
  | cons b u => rw [r.read_append, r.read_blanks _ hblank (List.cons_ne_nil b u)]
  | nil =>
    obtain rfl : c₁ = c := hu.unique (.refl c)
    have hfree := isFree_before_word r hs hv hbound hw ha
    rw [List.nil_append, r.read_cons, r.read_cons, hfree a ha]

/-- A clause begins with a word. -/
theorem takes_clause {c c' : Cursor} {caps' : Captures} (h : Takes clause c [] c' caps') :
    ∃ u a w c₁, u.all isBlank = true ∧ c.Reads u c₁ ∧ c₁.atWordBoundary = true ∧
      isWord a = true ∧ c₁.Reads (a :: w) c' ∧ caps' = [(1, ⟨c₁, c'⟩)] := by
  obtain ⟨c₁, caps₁, ⟨u, hblank, -, hspace, rfl⟩, c₂, caps₂, ⟨hbound, rfl, rfl⟩, c₃, caps₃,
    ⟨caps₄, hword, rfl⟩, -, rfl, rfl⟩ := h
  -- Each of the words begins with a letter, and the last one may have a second word behind it.
  have hreads : ∃ a w, isWord a = true ∧ c₂.Reads (a :: w) c' ∧ caps₄ = [] := by
    obtain ⟨p, hp, htakes⟩ := takes_oneOf hword
    simp only [List.mem_cons, List.not_mem_nil, or_false] at hp
    rcases hp with rfl | rfl | rfl | rfl | rfl | rfl | rfl | rfl
    · exact ⟨'S', "ELECT".toList, by decide, takes_text_iff.mp htakes⟩
    · exact ⟨'F', "ROM".toList, by decide, takes_text_iff.mp htakes⟩
    · exact ⟨'W', "HERE".toList, by decide, takes_text_iff.mp htakes⟩
    · exact ⟨'G', "ROUP BY".toList, by decide, takes_text_iff.mp htakes⟩
    · exact ⟨'H', "AVING".toList, by decide, takes_text_iff.mp htakes⟩
    · exact ⟨'O', "RDER BY".toList, by decide, takes_text_iff.mp htakes⟩
    · exact ⟨'L', "IMIT".toList, by decide, takes_text_iff.mp htakes⟩
    · obtain ⟨c₄, caps₅, hunion, hall⟩ := htakes
      obtain ⟨hreads, rfl⟩ := takes_text_iff.mp hunion
      rcases takes_opt hall with hall | ⟨rfl, rfl⟩
      · obtain ⟨hreads', hcaps⟩ := takes_text_iff.mp hall
        exact ⟨'U', "NION ALL".toList, by decide, hreads.trans hreads', hcaps⟩
      · exact ⟨'U', "NION".toList, by decide, hreads, rfl⟩
  obtain ⟨a, w, ha, hreads, rfl⟩ := hreads
  exact ⟨u, a, w, c₂, hblank, hspace, hbound, ha, hreads, rfl⟩

/-- Clauses on new lines are read as they were; the new line stands in front of a word, where white
space does not count. -/
theorem read_clause {s : σ} {t : Text} (isFirst : Bool) (hfirst : isFirst = true → r.IsFree s)
    (hs : r.IsFree s ∨ t.beginsNoWord = true) :
    r.read s (clause.replace (onNewLine isFirst) t) = r.read s t := by
  refine read_replace r (isSolid_spec rfl) s (fun v m hm => ?_)
  obtain ⟨u, a, w, c₁, hblank, hspace, hbound, ha, hword, hgroups⟩ := takes_clause hm.takes
  have htext : m.text = u ++ (a :: w) := Match.text_of_reads (hspace.trans hword)
  have hgroup : m.group 1 = a :: w := Match.group_of_lookup (by rw [hgroups]; rfl) hword
  have hbefore := read_before_word r hs hm.1 hspace hblank hbound hword ha
  rw [onNewLine]
  split
  · -- At the very start of the text nothing was read before the white space that goes.
    rename_i hstart
    rw [Bool.and_eq_true, beq_iff_eq] at hstart
    have hv : v = [] := by
      have hpos := hm.1.pos_eq
      rw [hstart.2] at hpos
      exact List.eq_nil_of_length_eq_zero (by simpa [Cursor.start] using hpos.symm)
    subst hv
    rw [htext, hgroup, hbefore, r.read_nil, r.read_cons, r.read_cons,
      hfirst hstart.1 a ha]
  · split
    · rfl
    · rw [htext, hgroup, hbefore, r.read_append,
        r.read_blanks _ (u := "\n".toList) (by decide) (by decide)]

/-- A text that does not begin with a word does not do so with its clauses on new lines. -/
theorem beginsNoWord_clause {t : Text} (h : t.beginsNoWord = true) :
    beginsNoWord (clause.replace (onNewLine false) t) = true := by
  have hcuts := cuts_segments (p := clause) (isSolid_spec rfl) t
  rw [replace_eq]
  generalize clause.segments t = segments at hcuts
  cases hcuts with
  | stop hend => rfl
  | @pass _ c' a g rest hread hnone hrest =>
    have ht : t = [a] ++ c'.after := hread.after_eq
    rw [ht] at h
    exact h
  -- A clause at the start has white space in front, as the text begins with no word.
  | @hit _ m rest hmatch hrest =>
    obtain ⟨hstart, htakes⟩ := takes_of_matchAt? hmatch
    obtain ⟨u, a, w, c₁, hblank, hspace, hbound, ha, hword, hgroups⟩ := takes_clause htakes
    have htext : m.text = u ++ (a :: w) :=
      Match.text_of_reads (hstart ▸ hspace.trans hword)
    have ht : t = u ++ (a :: w) ++ m.stop.after := (hspace.trans hword).after_eq
    cases u with
    | nil =>
      rw [ht, List.nil_append, List.cons_append, beginsNoWord_cons, ha] at h
      cases h
    | cons b u =>
      rw [List.all_cons, Bool.and_eq_true] at hblank
      rw [List.flatMap_cons, List.flatMap_cons, Segment.rewrite, Segment.rewrite, onNewLine,
        Bool.false_and, if_neg Bool.false_ne_true]
      split
      · rw [htext, List.nil_append, List.cons_append, List.cons_append, beginsNoWord_cons,
          isWord_of_isBlank hblank.1]
        rfl
      · rfl

/-- The kind of a join begins with a word. -/
theorem takes_kind {c c' : Cursor} {caps caps' : Captures}
    (h : Takes (oneOf [
      seq [oneOfWords ["LEFT", "RIGHT", "FULL"], opt (seq [space1, "OUTER"])],
      "INNER", "CROSS", "OUTER"]) c caps c' caps') :
    ∃ a x, isWord a = true ∧ c.Reads (a :: x) c' ∧ caps' = caps := by
  obtain ⟨p, hp, htakes⟩ := takes_oneOf h
  simp only [List.mem_cons, List.not_mem_nil, or_false] at hp
  rcases hp with rfl | rfl | rfl | rfl
  · obtain ⟨c₁, caps₁, hside, houter⟩ := htakes
    obtain ⟨w, hw, hreads, rfl⟩ := takes_oneOfWords hside
    -- The word `OUTER` may follow a side.
    have hend : ∃ y, c₁.Reads y c' ∧ caps' = caps₁ := by
      rcases takes_opt houter with ⟨c₂, caps₂, ⟨y, -, -, hspace, rfl⟩, htext⟩ | ⟨rfl, rfl⟩
      · obtain ⟨hreads', hcaps⟩ := takes_text_iff.mp htext
        exact ⟨_, hspace.trans hreads', hcaps⟩
      · exact ⟨[], .refl c', rfl⟩
    obtain ⟨y, hy, rfl⟩ := hend
    simp only [List.mem_cons, List.not_mem_nil, or_false] at hw
    rcases hw with rfl | rfl | rfl
    · exact ⟨'L', _, by decide, hreads.trans hy, rfl⟩
    · exact ⟨'R', _, by decide, hreads.trans hy, rfl⟩
    · exact ⟨'F', _, by decide, hreads.trans hy, rfl⟩
  · exact ⟨'I', "NNER".toList, by decide, takes_text_iff.mp htakes⟩
  · exact ⟨'C', "ROSS".toList, by decide, takes_text_iff.mp htakes⟩
  · exact ⟨'O', "UTER".toList, by decide, takes_text_iff.mp htakes⟩

/-- A join is white space, then what says of which kind it is, and the keyword. -/
theorem takes_join {c c' : Cursor} {caps' : Captures} (h : Takes join c [] c' caps') :
    ∃ u g a w c₁, u.all isBlank = true ∧ c.Reads u c₁ ∧ c₁.atWordBoundary = true ∧
      isWord a = true ∧ g ++ "JOIN".toList = a :: w ∧ c₁.Reads (a :: w) c' ∧
      (g = [] ∧ caps' = [] ∨ ∃ c₂ x y, g = x ++ y ∧ y.all isBlank = true ∧ y ≠ [] ∧
        c₁.Reads g c₂ ∧ caps' = [(1, ⟨c₁, c₂⟩)]) := by
  obtain ⟨c₁, caps₁, ⟨u, hblank, -, hspace, rfl⟩, c₂, caps₂, ⟨hbound, rfl, rfl⟩, c₃, caps₃,
    hkind, c₄, caps₄, hjoin, -, rfl, rfl⟩ := h
  obtain ⟨hjoin', rfl⟩ := takes_text_iff.mp hjoin
  rcases takes_opt hkind with
    ⟨caps₅, ⟨c₆, caps₆, hword, ⟨y, hy, hne, hspace', rfl⟩⟩, rfl⟩ | ⟨rfl, rfl⟩
  · obtain ⟨a, x, ha, hreads, rfl⟩ := takes_kind hword
    have hgroup := hreads.trans hspace'
    exact ⟨u, a :: x ++ y, a, x ++ y ++ "JOIN".toList, c₂, hblank, hspace, hbound, ha, by simp,
      hgroup.trans hjoin',
      .inr ⟨c₃, a :: x, y, rfl, hy, List.ne_nil_of_length_pos hne, hgroup, rfl⟩⟩
  · exact ⟨u, [], 'J', "OIN".toList, c₃, hblank, hspace, hbound, by decide, rfl, hjoin',
      .inl ⟨rfl, rfl⟩⟩

/-- Joins on new lines are read as they were. -/
theorem read_join {s : σ} {t : Text} (hs : r.IsFree s ∨ t.beginsNoWord = true) :
    r.read s (join.replace joinOnNewLine t) = r.read s t := by
  refine read_replace r (isSolid_spec rfl) s (fun v m hm => ?_)
  obtain ⟨u, g, a, w, c₁, hblank, hspace, hbound, ha, hw, hword, hkind⟩ := takes_join hm.takes
  have htext : m.text = u ++ (a :: w) := Match.text_of_reads (hspace.trans hword)
  have hbefore := read_before_word r hs hm.1 hspace hblank hbound hword ha
  -- Behind the kind of the join there is white space, so nothing goes on from it.
  have hgroup : m.group 1 = g ∧ ∀ s, r.close s = s → r.close (r.read s g) = r.read s g := by
    rcases hkind with ⟨rfl, hgroups⟩ | ⟨c₂, x, y, rfl, hy, hne, hreads, hgroups⟩
    · exact ⟨by rw [Match.group, Match.group?, hgroups]; rfl, fun s hs => hs⟩
    · refine ⟨Match.group_of_lookup (by rw [hgroups]; rfl) hreads, fun s hs => ?_⟩
      rw [r.read_append, r.read_blanks _ hy hne, r.close_close]
  have hclosed := r.close_close (r.read s v)
  have hkinds : r.read (r.close (r.read s v)) ((words g).flatMap (fun w => w ++ [' '])) =
      r.read (r.close (r.read s v)) g := by
    rw [r.read_flatMap_space, r.readPieces_words hclosed, hgroup.2 _ hclosed]
  have hnew : joinOnNewLine m =
      "\n  ".toList ++ (words g).flatMap (fun w => w ++ [' ']) ++ "JOIN".toList := by
    rw [joinOnNewLine, hgroup.1]
  rw [hnew, r.read_append, r.read_append,
    r.read_blanks _ (u := "\n  ".toList) (by decide) (by decide), hkinds, htext, hbefore, ← hw,
    r.read_append]

/-- Clauses and joins on new lines are read as they were. -/
theorem read_breakLines {s : σ} {t : Text} (isFirst : Bool)
    (hs : r.IsFree s ∨ isFirst = false ∧ t.beginsNoWord = true) :
    r.read s (breakLines isFirst t) = r.read s t := by
  rcases hs with hs | ⟨rfl, hs⟩
  · rw [breakLines, read_join r (.inl hs), read_clause r isFirst (fun _ => hs) (.inl hs)]
  · rw [breakLines, read_join r (.inr (beginsNoWord_clause hs)),
      read_clause r false (fun h => nomatch h) (.inr hs)]

/-! ### Only outside literals -/

/-- Behind a literal white space in front of a word does not count, or the text goes on with a line
feed or ends. -/
theorem isFree_read_literal {c : Cursor} {m : Match}
    (h : LiteralGrammar.sql.pattern.matchAt? c = some m) (s : σ) :
    r.IsFree (r.read s m.text) ∨ m.stop.after.head?.all (· == '\n') = true := by
  rw [matchAt?_literal] at h
  obtain ⟨u, hu, rfl⟩ := Option.map_eq_some_iff.mp h
  have hliteral := isLiteral_of_literal? hu
  have htext : (⟨c, c.behind u, []⟩ : Match).text = u :=
    Match.text_of_reads (Cursor.reads_behind hliteral.begins)
  rw [htext]
  rcases hliteral.ends with ⟨-, v, a, rfl, ha⟩ | hend
  · left
    rw [r.read_append]
    exact r.isFree_step _ ha
  · exact .inr hend

variable {r}

/-- What a reader does not notice, as long as a text does not go on from a word, it does not notice
either if it is done outside literals. -/
theorem read_mapGaps {f : Bool → Text → Text}
    (hf : ∀ s isFirst t, r.IsFree s ∨ isFirst = false ∧ t.beginsNoWord = true →
      r.read s (f isFirst t) = r.read s t) {c : Cursor} {segments : List Segment}
    (h : Pieces LiteralGrammar.sql.pattern c segments) (s : σ) (isFirst : Bool)
    (hs : r.IsFree s ∨ isFirst = false ∧ c.after.beginsNoWord = true) :
    r.read s (mapGaps f isFirst segments) = r.read s c.after := by
  induction h generalizing s isFirst with
  | @last c c' g hgap hend =>
    rw [hgap.after_eq] at hs
    rw [mapGaps, mapGaps, List.append_nil, hgap.after_eq, hend, List.append_nil]
    exact hf s isFirst g (hs.imp id (And.imp id beginsNoWord_of_append))
  | @more c c' g m rest hgap hmatch hrest ih =>
    obtain ⟨u, hu, htext, -⟩ := exists_reads_of_matchAt? hmatch
    rw [hgap.after_eq] at hs
    rw [mapGaps, mapGaps, r.read_append, r.read_append,
      hf s isFirst g (hs.imp id (And.imp id beginsNoWord_of_append)), hgap.after_eq, hu.after_eq,
      r.read_append, r.read_append, ← htext]
    -- Behind a literal the reader is free, unless it is a comment, and then a line feed comes next.
    refine ih _ false ((isFree_read_literal r hmatch _).imp id (fun hend => ⟨rfl, ?_⟩))
    cases hafter : m.stop.after with
    | nil => rfl
    | cons a r =>
      rw [hafter, List.head?_cons, Option.all_some, beq_iff_eq] at hend
      rw [beginsNoWord_cons, hend]
      decide

/-- A pass that is read as if it did nothing between the literals is read so on the whole text. -/
theorem read_outsideLiterals {f : Bool → Text → Text}
    (hf : ∀ s isFirst t, r.IsFree s ∨ isFirst = false ∧ t.beginsNoWord = true →
      r.read s (f isFirst t) = r.read s t) {s : σ} (hs : r.close s = s) (t : Text) :
    r.read s (outsideLiterals f t) = r.read s t := by
  have hpieces := (cuts_segments (p := LiteralGrammar.sql.pattern) (isSolid_spec rfl) t).pieces
  rw [outsideLiterals, read_mapGaps hf hpieces s true (.inl (r.isFree_of_closed hs))]
  rfl

variable (r)

/-! ### Columns on lines of their own -/

/-- Columns with single spaces inside, on lines of their own. -/
theorem close_read_columns {s : σ} (hs : r.close s = s) (columns : List Text) :
    r.close (r.read s (joinWith ",\n  ".toList
        (columns.map (fun c => joinWith " ".toList (words c))))) =
      r.close (r.read s (joinWith [','] columns)) := by
  have hloose : r.isTight ',' = false := r.isTight_punctuation ',' (by decide)
  induction columns generalizing s with
  | nil => rfl
  | cons c columns ih =>
    cases columns with
    | nil =>
      rw [List.map_cons, List.map_nil, joinWith_singleton, joinWith_singleton]
      exact r.close_read_squeeze hs c
    | cons d columns =>
      have hclosed := r.close_step (r.read s c) ',' hloose
      -- The comma closes what the column leaves open, and the white space behind it is not read.
      have hcomma : r.read (r.read s (joinWith " ".toList (words c))) ",\n  ".toList =
          r.step (r.read s c) ',' := by
        calc r.read (r.read s (joinWith " ".toList (words c))) ",\n  ".toList
            = r.read (r.step (r.read s (joinWith " ".toList (words c))) ',') "\n  ".toList := rfl
          _ = r.read (r.step (r.read s c) ',') "\n  ".toList := by
              rw [← r.step_close _ ',' hloose, r.close_read_squeeze hs, r.step_close _ ',' hloose]
          _ = r.step (r.read s c) ',' := r.read_blanks_of_closed hclosed (by decide)
      rw [List.map_cons, List.map_cons, joinWith_cons_cons, joinWith_cons_cons, r.read_append,
        r.read_append, r.read_append, r.read_append, hcomma]
      exact ih hclosed

/-- A select list begins with one or two words and stops in front of something that is no word. -/
theorem takes_selectList {c c' : Cursor} {groups : Captures}
    (h : Takes selectList c [] c' groups) :
    ∃ d z x a c₁ c₂, c.Reads "SELECT".toList c₁ ∧ c₁.Reads d c₂ ∧ c₂.Reads z c' ∧
      "SELECT".toList ++ d = x ++ [a] ∧ isWord a = true ∧ z.beginsNoWord = true ∧
      (∀ b u c'', c'.Reads (b :: u) c'' → b = '\n' ∨ b = ';') ∧
      groups.lookup 2 = some ⟨c₂, c'⟩ ∧
      (d = [] ∧ groups.lookup 1 = none ∨ groups.lookup 1 = some ⟨c₁, c₂⟩) := by
  obtain ⟨c₁, caps₁, ⟨-, rfl, rfl⟩, c₂, caps₂, hselect, c₃, caps₃, hdistinct, c₄, caps₄,
    ⟨hbound, rfl, rfl⟩, c₅, caps₅, ⟨caps₆, ⟨z, -, -, hz, rfl⟩, rfl⟩, rfl, c₆, hahead⟩ := h
  obtain ⟨hselect', rfl⟩ := takes_text_iff.mp hselect
  -- The last word is `SELECT` or `DISTINCT`, and its last letter is kept apart for the boundary.
  have hlast : ∃ d x a, c₂.Reads d c₄ ∧ "SELECT".toList ++ d = x ++ [a] ∧ isWord a = true ∧
      (d = [] ∧ caps₆.lookup 1 = none ∨ caps₆.lookup 1 = some ⟨c₂, c₄⟩) := by
    rcases takes_opt hdistinct with
      ⟨caps₇, ⟨c₈, caps₈, ⟨y, -, -, hspace, rfl⟩, hword⟩, rfl⟩ | ⟨rfl, rfl⟩
    · obtain ⟨hword', rfl⟩ := takes_text_iff.mp hword
      refine ⟨y ++ "DISTINCT".toList, "SELECT".toList ++ (y ++ "DISTINC".toList), 'T',
        hspace.trans hword', ?_, by decide, .inr rfl⟩
      rw [List.append_assoc, List.append_assoc]
      rfl
    · exact ⟨[], "SELEC".toList, 'T', .refl c₄, rfl, by decide, .inl ⟨rfl, rfl⟩⟩
  obtain ⟨d, x, a, hd, hx, ha, hlookup⟩ := hlast
  have hfollows : c₄.follows isWord = true := by
    rw [Cursor.Reads.follows (hx ▸ hselect'.trans hd), ha]
  have hend : (∀ b u c'', c'.Reads (b :: u) c'' → b = '\n' ∨ b = ';') ∧
      groups = (2, ⟨c₄, c'⟩) :: caps₆ := by
    obtain ⟨c₇, caps₇, htakes, hfirst⟩ := exists_takes_of_run? hahead
    cases hfirst
    obtain ⟨p, hp, htakes⟩ := takes_oneOf htakes
    simp only [List.mem_cons, List.not_mem_nil, or_false] at hp
    rcases hp with rfl | rfl | rfl
    · obtain ⟨c₈, caps₈, hfrom, -, -, rfl⟩ := htakes
      obtain ⟨hfrom', rfl⟩ := takes_text_iff.mp hfrom
      refine ⟨fun b u c'' hb => .inl ?_, rfl⟩
      have hsame := hb.after_eq.symm.trans hfrom'.after_eq
      exact (List.cons.inj hsame).1
    · obtain ⟨hsemicolon, rfl⟩ := takes_text_iff.mp htakes
      refine ⟨fun b u c'' hb => .inr ?_, rfl⟩
      have hsame := hb.after_eq.symm.trans hsemicolon.after_eq
      exact (List.cons.inj hsame).1
    · obtain ⟨hatEnd, -, rfl⟩ := htakes
      rw [Cursor.atEnd, List.isEmpty_iff] at hatEnd
      refine ⟨fun b u c'' hb => ?_, rfl⟩
      rw [hb.after_eq] at hatEnd
      cases hatEnd
  refine ⟨d, z, x, a, c₂, c₄, hselect', hd, hz, hx, ha, ?_, hend.1, by rw [hend.2]; rfl, ?_⟩
  · cases z with
    | nil => rfl
    | cons b z =>
      rw [Cursor.atWordBoundary, hfollows, hz.precedes] at hbound
      simpa [beginsNoWord_cons] using hbound
  · rw [hend.2]
    exact hlookup

/-- The columns on lines of their own are read as the list was: each comma ends a column, and white
space next to it does not count. -/
theorem agrees_columnsOnLines {v : Text} {m : Match} {t : Text} {s s' : σ}
    (hm : MatchesBehind selectList t v m) (hs : Agrees r m.start s s') :
    Agrees r m.stop (r.read s (columnsOnLines m)) (r.read s' m.text) := by
  obtain ⟨d, z, x, a, c₁, c₂, hselect, hd, hz, hx, ha, hhead, hstop, hcolumns, hdistinct⟩ :=
    takes_selectList hm.takes
  have htext : m.text = "SELECT".toList ++ (d ++ z) :=
    Match.text_of_reads (hselect.trans (hd.trans hz))
  have hgroup : m.group 2 = z := Match.group_of_lookup hcolumns hz
  have hgroup' : m.group 1 = d := by
    rcases hdistinct with ⟨rfl, hnone⟩ | hsome
    · rw [Match.group, Match.group?, hnone]
      rfl
    · exact Match.group_of_lookup hsome hd
  -- From the first letter on both states are the same.
  have hsame : ∀ u, r.read s ("SELECT".toList ++ u) = r.read s' ("SELECT".toList ++ u) := by
    intro u
    show r.read (r.step s 'S') ("ELECT".toList ++ u) = r.read (r.step s' 'S') ("ELECT".toList ++ u)
    rw [hs.step (a := 'S') (u := "ELECT".toList) hselect]
  rw [columnsOnLines, hgroup, hgroup']
  split
  · rw [htext, hsame]
    exact .refl r _ _
  · refine ⟨?_, fun htight => ?_⟩
    · have hcut : joinWith [','] (splitColumns z) = z := Nesting.joinWith_cutFrom _ _ z
      have hlast : r.read (r.read s' "SELECT".toList) d = r.step (r.read s' x) a := by
        rw [← r.read_append, hx, r.read_append]
        rfl
      rw [htext, List.append_assoc, List.append_assoc, hsame, r.read_append, r.read_append,
        r.read_append, r.read_append s', r.read_append _ d,
        r.read_blanks _ (u := " ".toList) (by decide) (by decide),
        close_read_columns r (r.close_close _), hcut, hlast, r.close_read_close _ ha hhead]
    · -- What the list stops in front of is not tight.
      cases hafter : m.stop.after with
      | nil =>
        rw [Cursor.precedes, hafter] at htight
        cases htight
      | cons b u =>
        have hreads : m.stop.Reads (b :: u) (m.stop.behind (b :: u)) :=
          Cursor.reads_behind (hafter ▸ List.prefix_rfl)
        rw [hreads.precedes] at htight
        have hloose : r.isTight b = false := by
          rcases hstop b u _ hreads with rfl | rfl
          · exact r.isTight_punctuation '\n' (by decide)
          · exact r.isTight_punctuation ';' (by decide)
        rw [hloose] at htight
        cases htight

/-! ### Subqueries -/

/-- A subquery on lines of its own is read as it was, since it stands between parentheses. -/
theorem read_indentSubquery (s : σ) (t : Text) :
    r.read s (subquery.replace indentSubquery t) = r.read s t := by
  refine read_replace r (isSolid_spec rfl) s (fun v m hm => ?_)
  obtain ⟨c₁, caps₁, hopen, c₂, caps₂, ⟨x, hx, -, hspace, rfl⟩, c₃, caps₃, ⟨caps₄, hquery, rfl⟩,
    c₄, caps₅, ⟨y, hy, -, hspace', rfl⟩, hclose⟩ := hm.takes
  obtain ⟨hopen', rfl⟩ := takes_text_iff.mp hopen
  obtain ⟨hclose', hgroups⟩ := takes_text_iff.mp hclose
  obtain ⟨w, hw⟩ := hquery.reads
  have htext : m.text = "(".toList ++ (x ++ (w ++ (y ++ ")".toList))) :=
    Match.text_of_reads (hopen'.trans (hspace.trans (hw.trans (hspace'.trans hclose'))))
  have hgroup : m.group 1 = w := Match.group_of_lookup (by rw [hgroups]; rfl) hw
  have hnew : indentSubquery m =
      "(\n".toList ++
        (unlines ((lines w).map (fun l => "  ".toList ++ trim l)) ++ "\n)".toList) := by
    rw [indentSubquery, hgroup, List.append_assoc]
  -- Next to a parenthesis white space changes nothing, on either side of the query.
  have hopened : r.close (r.step (r.read s v) '(') = r.step (r.read s v) '(' :=
    r.close_step _ '(' (r.isTight_punctuation '(' (by decide))
  have hbody : r.close (r.read (r.step (r.read s v) '(')
      (unlines ((lines w).map (fun l => "  ".toList ++ trim l)))) =
        r.close (r.read (r.step (r.read s v) '(') w) := by
    refine r.close_read_unlines hopened (fun s hs l => ?_) w
    rw [r.read_append, r.read_blanks_of_closed hs (by decide), r.close_read_trim hs]
  have hopen_new : r.read (r.read s v) "(\n".toList = r.step (r.read s v) '(' :=
    r.read_blanks_of_closed (u := ['\n']) hopened (by decide)
  have hclose_new : ∀ s, r.read s "\n)".toList = r.step (r.close s) ')' := by
    intro s
    show r.step (r.step s '\n') ')' = r.step (r.close s) ')'
    rw [r.step_blank s '\n' (by decide)]
  have hclose_old : ∀ s, r.read s ")".toList = r.step (r.close s) ')' := fun s =>
    (r.step_close s ')' (r.isTight_punctuation ')' (by decide))).symm
  have hspaces : r.read (r.step (r.read s v) '(') x = r.step (r.read s v) '(' :=
    r.read_blanks_of_closed hopened hx
  calc r.read (r.read s v) (indentSubquery m)
      = r.step (r.close (r.read (r.step (r.read s v) '(') w)) ')' := by
        rw [hnew, r.read_append, r.read_append, hopen_new, hclose_new, hbody]
    _ = r.step (r.close (r.read (r.step (r.read s v) '(') (w ++ y))) ')' := by
        rw [r.close_read_append_blanks _ _ hy]
    _ = r.step (r.close (r.read (r.read (r.step (r.read s v) '(') x) (w ++ y))) ')' := by
        rw [hspaces]
    _ = r.read (r.read s v) m.text := by
        rw [htext, r.read_append _ "(".toList, r.read_append _ x, ← List.append_assoc,
          r.read_append _ (w ++ y), hclose_old]
        rfl

/-! ### The formatted query -/

/-- White space that goes from the lines is not read. -/
theorem close_read_tidyLines {s : σ} (hs : r.close s = s) (before t : Text) :
    r.close (r.read s (tidyLines before t)) = r.close (r.read s t) := by
  have hfeeds : ∀ u : Text, (u.takeWhile (· == '\n')).all isBlank = true := by
    intro u
    rw [List.all_eq_true]
    intro c hc
    have hfeed := List.all_eq_true.mp (List.all_takeWhile (p := (· == '\n')) (l := u)) c hc
    rw [beq_iff_eq] at hfeed
    rw [hfeed]
    decide
  -- The reader starts closed, so line feeds at the start are not read.
  have hdrop : ∀ u : Text, r.close (r.read s (u.dropWhile (· == '\n'))) = r.close (r.read s u) := by
    intro u
    calc r.close (r.read s (u.dropWhile (· == '\n')))
        = r.close (r.read s (u.takeWhile (· == '\n') ++ u.dropWhile (· == '\n'))) := by
          rw [r.read_append, r.read_blanks_of_closed hs (hfeeds u)]
      _ = r.close (r.read s u) := by rw [List.takeWhile_append_dropWhile]
  have hlines : r.close (r.read s ((unlines ((lines t).map trimEnd)).dropWhile (· == '\n'))) =
      r.close (r.read s t) := by
    rw [hdrop, r.close_read_unlines hs (fun s _ w => r.close_read_trimEnd s w)]
  rw [tidyLines]
  split
  · rw [← hlines]
    exact r.close_read_append_blanks _ _ (by decide)
  · exact hlines

/-- As long as no comments are added, no reader notices that a query is formatted. -/
theorem close_read_format {aggressive comments : Bool} (h : (aggressive && comments) = false)
    {s : σ} (hs : r.close s = s) (t : Text) :
    r.close (r.read s (format aggressive comments t)) = r.close (r.read s t) := by
  rw [format, h, if_neg Bool.false_ne_true, close_read_tidyLines r hs]
  have hcolumns : r.close (r.read s (selectList.replace columnsOnLines
      (outsideLiterals breakLines (outsideLiterals (fun _ => capitalizeKeywords) t)))) =
      r.close (r.read s t) := by
    rw [close_read_replace r (isSolid_spec rfl) s (fun v m s' hm hs' => by
        rw [r.read_append]
        exact agrees_columnsOnLines r hm hs'),
      read_outsideLiterals (fun s isFirst t hs => read_breakLines r isFirst hs) hs,
      read_outsideLiterals (fun s isFirst t _ => read_capitalizeKeywords r s t) hs]
  cases aggressive with
  | false => exact hcolumns
  | true =>
    rw [if_pos rfl, read_indentSubquery]
    exact hcolumns

/-- As long as no comments are added, the characters other than white space and the words of the
formatted query, in capitals, are those of the query. -/
theorem format_keeps_content (aggressive comments : Bool) (t : Text)
    (h : ¬(aggressive = true ∧ comments = true)) :
    upper (nonBlank (format aggressive comments t)) = upper (nonBlank t) ∧
      (wordRuns (format aggressive comments t)).map upper = (wordRuns t).map upper := by
  have htally : tally (format aggressive comments t) = tally t :=
    close_read_format tallyReader (by simpa [Bool.and_eq_false_iff] using h) rfl t
  rw [← chars_tally, ← runs_tally, htally, chars_tally, runs_tally]
  exact ⟨rfl, rfl⟩

/-- The theorem for a query with all passes, where the select list and the clauses go on lines of
their own. -/
theorem format_keeps_content_aggressive :
    ¬(true = true ∧ false = true) ∧
      upper (nonBlank (format true false "select a,b from t".toList)) =
        upper (nonBlank "select a,b from t".toList) ∧
      (wordRuns (format true false "select a,b from t".toList)).map upper =
        (wordRuns "select a,b from t".toList).map upper :=
  ⟨by decide, format_keeps_content true false "select a,b from t".toList (by decide)⟩

end CodeTidy.Sql
