import CodeTidy.Proofs.Pattern.Places
import CodeTidy.Proofs.Pattern.Spells
import CodeTidy.Proofs.Text.LineStarts
import CodeTidy.Rule.Basic

/-!
# `CodeTidy.Proofs.Rule.Header`: rules that put lines in front of declarations

A rule that puts a comment or an annotation in front of each declaration leaves those
alone that a mark stands in front of, and what it puts there ends with the mark. For
the rule to change nothing a second time, it has to find the same declarations again:
none that begins in a header or runs over one, and each of the old ones in its place.
`HeaderRule.Lawful` says what has to be known about a rule for that. The theorems:

* `HeaderRule.Lawful.prefix_of_rewritten`: a declaration in front of which nothing has been put is
  one of the text before.
* `HeaderRule.Lawful.exists_cuts`: the declarations in the new text are those of the old one, all
  marked.
* `HeaderRule.Lawful.replace_replace`: the rule changes nothing a second time.
* `HeaderRule.Lawful.interleaves`: the new lines are the old ones and the headers between them.
* `takes_lineStart_iff`, `spells_of_match`: a declaration at the start of a line is found by its
  characters.
* `prefix_or_eq`: a declaration runs over the start of a header only if it holds that.
* `docComment_eq`, `suffix_docComment`, `not_mem_docComment`: what a documentation comment begins
  and ends with, and what it does not hold.
* `ne_of_slash_mem`: a declaration does not begin in a comment.
-/

set_option autoImplicit false

namespace CodeTidy

open Pattern Text

/-! ### Rules for headers -/

/-- A rule that puts a header in front of each declaration that no mark stands in front of. -/
structure HeaderRule where
  name : String
  table : RuleTable
  pattern : Pattern
  rewrite : Match → Text
  isRule : Rule.replacing name pattern rewrite ∈ table
  /-- What the rule puts on lines of its own in front of a declaration. -/
  header : Match → Text
  /-- What stands in front of a declaration that the rule leaves alone. -/
  mark : Text

namespace HeaderRule

/-- What the rule makes of a text. -/
def apply (r : HeaderRule) (t : Text) : Text := r.pattern.replace r.rewrite t

/-- Whether a mark stands in front of a declaration. -/
def isMarked (r : HeaderRule) (m : Match) : Bool := startsWith m.leftContext r.mark.reverse

/-- The lines that the rule puts in front of a declaration. -/
def inserted (r : HeaderRule) (m : Match) : List Text :=
  if r.isMarked m then [] else lines (r.header m)

end HeaderRule

/-- The items of two lists in one, those of each list in their order. -/
inductive Interleaves {α : Type} : List α → List α → List α → Prop where
  | nil : Interleaves [] [] []
  | left {as bs cs : List α} (a : α) (rest : Interleaves as bs cs) :
      Interleaves (a :: as) bs (a :: cs)
  | right {as bs cs : List α} (b : α) (rest : Interleaves as bs cs) :
      Interleaves as (b :: bs) (b :: cs)

/-- More lines may be put in front. -/
theorem Interleaves.right_append {α : Type} {as bs cs : List α} (h : Interleaves as bs cs)
    (front : List α) : Interleaves as (front ++ bs) (front ++ cs) := by
  induction front with
  | nil => exact h
  | cons b front ih => exact .right b ih

/-- The first lines of two texts are the same, and the others of the second text are those of the
first one with some between them. -/
def Begun (t : Text) (inserted : List Text) (t' : Text) : Prop :=
  ∃ l ls ls', lines t = l :: ls ∧ lines t' = l :: ls' ∧ Interleaves ls inserted ls'

/-- The lines of the second text are those of the first one with some between them. -/
theorem Begun.interleaves {t t' : Text} {inserted : List Text} (h : Begun t inserted t') :
    Interleaves (lines t) inserted (lines t') := by
  obtain ⟨l, ls, ls', ht, ht', hrest⟩ := h
  rw [ht, ht']
  exact .left l hrest

/-- On a new line all of the lines may be others. -/
theorem begun_feed {t t' : Text} {inserted : List Text}
    (h : Interleaves (lines t) inserted (lines t')) : Begun ('\n' :: t) inserted ('\n' :: t') :=
  ⟨[], lines t, lines t', lines_append_feed [] t, lines_append_feed [] t', h⟩

/-- The same text may stand in front of both. -/
theorem Begun.append {t t' : Text} {inserted : List Text} (h : Begun t inserted t') (u : Text) :
    Begun (u ++ t) inserted (u ++ t') := by
  induction u using lines_induction with
  | one u hu =>
    obtain ⟨l, ls, ls', ht, ht', hrest⟩ := h
    exact ⟨u ++ l, ls, ls', lines_append_of_not_mem hu ht, lines_append_of_not_mem hu ht', hrest⟩
  | more u w hu ih =>
    rw [List.append_assoc, List.append_assoc]
    exact ⟨u, _, _, lines_append hu _, lines_append hu _, ih.interleaves⟩

/-- The text is empty or ends a line. -/
def EndsFresh (g : Text) : Prop := g = [] ∨ g.getLast? = some '\n'

/-- What is to be known about a rule for headers. The declarations are given by their shape, as far
as they do not depend on what stands around them, and all end with the same character. -/
structure HeaderRule.Lawful (r : HeaderRule) (shape : Text → Prop) (last : Char) : Prop where
  solid : IsSolid r.pattern
  takes_iff : ∀ {c c' u}, c.Reads u c' →
    ((∃ caps, Takes r.pattern c [] c' caps) ↔ c.atLineStart = true ∧ shape u)
  unique : ∀ {u u' s s' : Text}, shape u → shape u' → u ++ s = u' ++ s' → u = u'
  ends : ∀ {u : Text}, shape u → u.getLast? = some last
  isBlank_last : isBlank last = false
  last_not_mem : last ∉ r.mark
  isBlank_mark : r.mark.getLast?.any isBlank = false
  rewrite_eq : ∀ {c m}, r.pattern.matchAt? c = some m →
    r.rewrite m = if r.isMarked m then m.text else r.header m ++ '\n' :: m.text
  header_ends : ∀ {c m}, r.pattern.matchAt? c = some m → r.mark <:+ r.header m
  /-- No declaration in front of a header runs over it. -/
  passes : ∀ {c m u g s z}, r.pattern.matchAt? c = some m → shape u → EndsFresh g →
    u ++ s = g ++ (r.header m ++ '\n' :: (m.text ++ z)) → u <+: g
  /-- No declaration begins in a header. -/
  inside : ∀ {c m u v w s z}, r.pattern.matchAt? c = some m → shape u →
    r.header m ++ ['\n'] = v ++ w → v.getLast? = some '\n' → w ≠ [] →
    u ++ s ≠ w ++ (m.text ++ z)

/-! ### The same declarations again -/

namespace Pattern

/-- A stretch without matches goes to the gap in front of what comes next. -/
theorem cuts_of_gap {p : Pattern} {c c' : Cursor} {g u : Text} {rest : List Segment}
    (h : Cuts p c' (.gap g :: rest)) (hreads : c.Reads u c')
    (hnone : ∀ v w d, u = v ++ w → w ≠ [] → c.Reads v d → p.matchAt? d = none) :
    Cuts p c (.gap (u ++ g) :: rest) := by
  induction u generalizing c with
  | nil =>
    obtain rfl := hreads.unique (.refl c)
    exact h
  | cons a u ih =>
    obtain ⟨c₁, hread, hrest⟩ := Cursor.Reads.split (u := [a]) hreads
    refine .pass hread (hnone [] (a :: u) c rfl (List.cons_ne_nil a u) (.refl c)) ?_
    exact ih hrest fun v w d huv hw hd => hnone (a :: v) w d (by rw [huv]; rfl) hw (hread.cons hd)

/-- The text behind a cursor is cut in one way. -/
theorem Cuts.eq {p : Pattern} (hp : IsSolid p) {c : Cursor} {segments segments' : List Segment}
    (h : Cuts p c segments) (h' : Cuts p c segments') : segments = segments' := by
  induction h generalizing segments' with
  | stop hend => exact (h'.of_end hp hend).symm
  | @pass c c₁ a g rest hread hnone _ ih =>
    cases h' with
    | stop hend => exact absurd (hread.of_after hend).1 (List.cons_ne_nil _ _)
    | pass hread' _ hrest' =>
      obtain ⟨rfl, rfl⟩ := hread.one_unique hread'
      cases ih hrest'
      rfl
    | hit hmatch =>
      rw [hnone] at hmatch
      cases hmatch
  | hit hmatch _ ih =>
    obtain ⟨rest', rfl, hrest'⟩ := h'.of_match hp hmatch
    rw [ih hrest']

end Pattern

section

variable {r : HeaderRule} {shape : Text → Prop} {last : Char} {c c' d d' : Cursor} {m : Match}
  {segments : List Segment} {u y s z : Text}

/-- What stands in front of two places is the same up to the end of a declaration. -/
def Alike (last : Char) (c d : Cursor) : Prop :=
  ∃ w x y, c.before = w ++ x ∧ d.before = w ++ y ∧
    (x = y ∨ x.head? = some last ∧ y.head? = some last)

/-- Places stay alike when the same text is read behind them. -/
theorem Alike.trans_reads (h : Alike last c d) (hc : c.Reads u c') (hd : d.Reads u d') :
    Alike last c' d' := by
  obtain ⟨w, x, y, hx, hy, hsame⟩ := h
  refine ⟨u.reverse ++ w, x, y, ?_, ?_, hsame⟩
  · rw [hc.before_eq, hx, List.append_assoc]
  · rw [hd.before_eq, hy, List.append_assoc]

/-- Behind a declaration it does not matter what stands in front of that. -/
theorem alike_of_ends (hu : u.getLast? = some last) (hc : c.Reads u c') (hd : d.Reads u d') :
    Alike last c' d' := by
  rw [← List.head?_reverse] at hu
  obtain ⟨w, hw⟩ := List.head?_eq_some_iff.mp hu
  refine ⟨[], _, _, hc.before_eq, hd.before_eq, .inr ?_⟩
  simp [hw]

/-- Of two places that are alike, both start a line or none. -/
theorem Alike.atLineStart_eq (h : Alike last c d) : c.atLineStart = d.atLineStart := by
  obtain ⟨w, x, y, hx, hy, hsame⟩ := h
  rw [Cursor.atLineStart, Cursor.atLineStart, hx, hy]
  rcases hsame with rfl | ⟨hx, hy⟩
  · rfl
  · rw [List.head?_append, List.head?_append, hx, hy]

/-- A mark that does not hold the last character of a declaration does not reach over one. -/
theorem isPrefixOf_append_eq {mark w x y : Text} (hlast : last ∉ mark) (hx : x.head? = some last)
    (hy : y.head? = some last) : mark.isPrefixOf (w ++ x) = mark.isPrefixOf (w ++ y) := by
  induction w generalizing mark with
  | nil =>
    obtain ⟨x, rfl⟩ := List.head?_eq_some_iff.mp hx
    obtain ⟨y, rfl⟩ := List.head?_eq_some_iff.mp hy
    cases mark with
    | nil => rfl
    | cons b mark =>
      have hne : (b == last) = false := beq_false_of_ne fun heq => hlast (heq ▸ .head _)
      rw [List.nil_append, List.nil_append, List.isPrefixOf, List.isPrefixOf, hne]
      rfl
  | cons a w ih =>
    cases mark with
    | nil => rfl
    | cons b mark =>
      rw [List.cons_append, List.cons_append, List.isPrefixOf, List.isPrefixOf,
        ih fun hmem => hlast (.tail _ hmem)]

/-- Whether a mark stands in front of a place can be told behind the last declaration. -/
theorem Alike.isMarked_eq {m' : Match} (h : Alike last m.start m'.start)
    (hblank : isBlank last = false) (hlast : last ∉ r.mark) : r.isMarked m = r.isMarked m' := by
  obtain ⟨w, x, y, hx, hy, hsame⟩ := h
  rw [HeaderRule.isMarked, HeaderRule.isMarked, Match.leftContext, Match.leftContext, hx, hy]
  rcases hsame with rfl | ⟨hx, hy⟩
  · rfl
  · -- The declaration ends visibly, so no more than its last character is looked at.
    have hmark : last ∉ r.mark.reverse := fun hmem => hlast (List.mem_reverse.mp hmem)
    clear * - hx hy hmark hblank
    induction w with
    | nil =>
      have hdrop {x : Text} (hx : x.head? = some last) : ([] ++ x).dropWhile isBlank = [] ++ x := by
        obtain ⟨x, rfl⟩ := List.head?_eq_some_iff.mp hx
        simp [hblank]
      rw [hdrop hx, hdrop hy]
      exact isPrefixOf_append_eq hmark hx hy
    | cons a w ih =>
      rw [List.cons_append, List.cons_append, List.dropWhile_cons, List.dropWhile_cons]
      split
      · exact ih
      · exact isPrefixOf_append_eq (w := a :: w) hmark hx hy

namespace HeaderRule.Lawful

variable (h : r.Lawful shape last)

include h

/-- What is found is a declaration at the start of a line. -/
theorem shape_of_match (hm : r.pattern.matchAt? c = some m) :
    c.atLineStart = true ∧ shape m.text ∧ m.start = c ∧ c.Reads m.text m.stop := by
  obtain ⟨x, hx, rfl, -⟩ := exists_reads_of_matchAt? hm
  obtain ⟨hstart, htakes⟩ := takes_of_matchAt? hm
  have hshape := (h.takes_iff hx).mp ⟨_, htakes⟩
  exact ⟨hshape.1, hshape.2, hstart, hx⟩

/-- A declaration is found at the start of a line that begins with it. -/
theorem exists_match (hline : c.atLineStart = true) (hu : shape u) (hafter : c.after = u ++ s) :
    ∃ m, r.pattern.matchAt? c = some m ∧ m.start = c ∧ m.text = u ∧ c.Reads u m.stop := by
  obtain ⟨c', hreads, -⟩ := Cursor.exists_reads hafter
  obtain ⟨caps, htakes⟩ := (h.takes_iff hreads).mpr ⟨hline, hu⟩
  obtain ⟨m, hm⟩ : ∃ m, r.pattern.matchAt? c = some m := by
    rw [← Option.isSome_iff_exists]
    exact isSome_run?_of_takes htakes rfl
  obtain ⟨-, hshape, hstart, htext⟩ := h.shape_of_match hm
  obtain rfl := h.unique hshape hu (htext.after_eq.symm.trans hafter)
  exact ⟨m, hm, hstart, rfl, htext⟩

/-- A declaration that begins where nothing has been put in is one of the text before. -/
theorem prefix_of_rewritten (hcuts : Cuts r.pattern d segments) (hy : c.Reads y d) (hu : shape u)
    (heq : u ++ s = y ++ segments.flatMap (Segment.rewrite r.rewrite)) : u <+: c.after := by
  induction hcuts generalizing y with
  | stop hend =>
    rw [hy.after_eq, hend]
    exact ⟨s, heq⟩
  | @pass d d' a g rest hread _ _ ih =>
    exact ih (hy.trans hread) (by simpa [Segment.rewrite] using heq)
  | @hit d m rest hm _ ih =>
    obtain ⟨hline, -, -, hreads⟩ := h.shape_of_match hm
    rw [List.flatMap_cons, List.flatMap_cons, Segment.rewrite, Segment.rewrite, h.rewrite_eq hm]
      at heq
    split at heq
    · exact ih (hy.trans hreads) (by simpa using heq)
    · -- A line begins behind what has been passed.
      have hfresh : EndsFresh y := by
        rw [Cursor.atLineStart, hy.before_eq, List.head?_append, List.head?_reverse] at hline
        cases hlast : y.getLast? with
        | none => exact .inl (List.getLast?_eq_none_iff.mp hlast)
        | some a =>
          rw [hlast] at hline
          exact .inr (hlast.trans (congrArg some (beq_iff_eq.mp hline)))
      have hprefix := h.passes hm hu hfresh (by simpa using heq)
      exact hprefix.trans ⟨d.after, hy.after_eq.symm⟩

/-- A place where no declaration was found has none in the new text. -/
theorem matchAt?_eq_none (hcuts : Cuts r.pattern c segments) (halike : Alike last c d)
    (hafter : d.after = segments.flatMap (Segment.rewrite r.rewrite))
    (hnone : r.pattern.matchAt? c = none) : r.pattern.matchAt? d = none := by
  cases hmatch : r.pattern.matchAt? d with
  | none => rfl
  | some m =>
    obtain ⟨hline, hshape, -, hreads⟩ := h.shape_of_match hmatch
    obtain ⟨s, hs⟩ := h.prefix_of_rewritten hcuts (.refl c) hshape
      (hreads.after_eq.symm.trans hafter)
    obtain ⟨m', hm', -⟩ := h.exists_match (halike.atLineStart_eq.trans hline) hshape hs.symm
    rw [hnone] at hm'
    cases hm'

/-- No declaration is found in a header. -/
theorem matchAt?_header (hm : r.pattern.matchAt? c = some m) {v w : Text}
    (hheader : r.header m ++ ['\n'] = v ++ w) (hw : w ≠ []) (hd : d.Reads v d')
    (hafter : d'.after = w ++ (m.text ++ z)) : r.pattern.matchAt? d' = none := by
  cases hmatch : r.pattern.matchAt? d' with
  | none => rfl
  | some m' =>
    obtain ⟨hline, hshape, -, hreads⟩ := h.shape_of_match hmatch
    have heq := hreads.after_eq.symm.trans hafter
    rw [Cursor.atLineStart, hd.before_eq, List.head?_append, List.head?_reverse] at hline
    cases hlast : v.getLast? with
    | none =>
      -- The header itself begins there.
      obtain rfl := List.getLast?_eq_none_iff.mp hlast
      have hfront : m'.text ++ m'.stop.after = [] ++ (r.header m ++ '\n' :: (m.text ++ z)) := by
        rw [heq, ← List.nil_append w, ← hheader]
        simp
      have hprefix := h.passes hm hshape (.inl rfl) hfront
      have hends := h.ends hshape
      rw [List.prefix_nil.mp hprefix] at hends
      cases hends
    | some a =>
      rw [hlast] at hline
      have hfeed : v.getLast? = some '\n' := hlast.trans (congrArg some (beq_iff_eq.mp hline))
      exact absurd heq (h.inside hm hshape hheader hfeed hw)

omit h in
/-- A mark stands behind a text that ends with it, and the end of a line. -/
theorem isMarked_of_reads {u : Text} (hmark : r.mark <:+ u)
    (hblank : r.mark.getLast?.any isBlank = false) (hd : d.Reads (u ++ ['\n']) m.start) :
    r.isMarked m = true := by
  obtain ⟨w, rfl⟩ := hmark
  have hfeed : isBlank '\n' = true := by decide
  rw [HeaderRule.isMarked, Match.leftContext, hd.before_eq, startsWith]
  rw [← List.head?_reverse] at hblank
  cases hreverse : r.mark.reverse with
  | nil => rfl
  | cons b mark =>
    rw [hreverse] at hblank
    have hb : isBlank b = false := hblank
    simp [hreverse, hfeed, hb]

/-- The declarations in the new text are the old ones, and a mark stands in front of each. -/
theorem exists_cuts (hcuts : Cuts r.pattern c segments) (halike : Alike last c d)
    (hafter : d.after = segments.flatMap (Segment.rewrite r.rewrite)) :
    ∃ segments', Cuts r.pattern d segments' ∧ ∀ m ∈ hitsOf segments', r.isMarked m = true := by
  induction hcuts generalizing d with
  | stop => exact ⟨_, .stop hafter, nofun⟩
  | @pass c c' a g rest hread hnone hcuts ih =>
    obtain ⟨d', hread', hafter'⟩ := Cursor.exists_reads (u := [a]) hafter
    have hnone' := h.matchAt?_eq_none (.pass hread hnone hcuts) halike hafter hnone
    obtain ⟨segments', hcuts', hmarked⟩ := ih (halike.trans_reads hread hread') hafter'
    obtain ⟨g', rest', rfl⟩ := hcuts'.exists_gap
    exact ⟨_, .pass hread' hnone' hcuts', hmarked⟩
  | @hit c m rest hm hcuts ih =>
    obtain ⟨hline, hshape, hstart, hreads⟩ := h.shape_of_match hm
    have hends := h.ends hshape
    rw [List.flatMap_cons, List.flatMap_cons, Segment.rewrite, Segment.rewrite, List.nil_append,
      h.rewrite_eq hm] at hafter
    -- Where the declaration stands now, it is found again.
    have hagain {d : Cursor} (hline : d.atLineStart = true)
        (hafter : d.after = m.text ++ rest.flatMap (Segment.rewrite r.rewrite))
        (hmark : ∀ m', m'.start = d → r.isMarked m' = true) :
        ∃ g segments', Cuts r.pattern d (.gap g :: segments') ∧
          ∀ m ∈ hitsOf (.gap g :: segments'), r.isMarked m = true := by
      obtain ⟨m', hm', hstart', htext, hreads'⟩ := h.exists_match hline hshape hafter
      obtain ⟨segments', hcuts', hmarked⟩ := ih (alike_of_ends hends hreads hreads')
        (List.append_cancel_left (hreads'.after_eq.symm.trans hafter))
      refine ⟨[], .hit m' :: segments', .hit hm' hcuts', ?_⟩
      exact List.forall_mem_cons.mpr ⟨hmark m' hstart', hmarked⟩
    split at hafter
    · next hmark =>
      obtain ⟨g, segments', hcuts', hmarked⟩ :=
        hagain (halike.atLineStart_eq.symm.trans hline) hafter fun m' hstart' => by
          rw [← hmark]
          exact (Alike.isMarked_eq (by rwa [hstart, hstart']) h.isBlank_last h.last_not_mem).symm
      exact ⟨_, hcuts', hmarked⟩
    · have hafter : d.after = (r.header m ++ ['\n']) ++
          (m.text ++ rest.flatMap (Segment.rewrite r.rewrite)) := by simpa using hafter
      obtain ⟨d', hread', hafter'⟩ := Cursor.exists_reads hafter
      have hfresh : d'.atLineStart = true := by simp [Cursor.atLineStart, hread'.before_eq]
      obtain ⟨g, segments', hcuts', hmarked⟩ := hagain hfresh hafter' fun m' hstart' =>
        isMarked_of_reads (h.header_ends hm) h.isBlank_mark (hstart' ▸ hread')
      refine ⟨_, cuts_of_gap hcuts' hread' fun v w d₁ hheader hw hd₁ => ?_, hmarked⟩
      have hafter₁ := hd₁.after_of_split hread' hheader
      rw [hafter'] at hafter₁
      exact h.matchAt?_header hm hheader hw hd₁ hafter₁

/-- The rule changes nothing a second time. -/
theorem apply_apply (t : Text) : r.apply (r.apply t) = r.apply t := by
  have hcuts := cuts_segments h.solid t
  obtain ⟨segments', hcuts', hmarked⟩ := h.exists_cuts (d := Cursor.start (r.apply t)) hcuts
    ⟨[], [], [], rfl, rfl, .inl rfl⟩ rfl
  have hsame : r.pattern.segments (r.apply t) = segments' :=
    (cuts_segments h.solid _).eq h.solid hcuts'
  have hkept : ∀ s ∈ segments', s.rewrite r.rewrite = s.text := by
    intro s hs
    cases s with
    | gap g => rfl
    | hit m =>
      obtain ⟨v, -, hm⟩ := exists_matchesBehind h.solid (hsame ▸ hs)
      rw [Segment.rewrite, h.rewrite_eq hm, if_pos]
      · rfl
      · exact hmarked m (List.mem_filterMap.mpr ⟨.hit m, hs, rfl⟩)
  calc r.apply (r.apply t) = segments'.flatMap (Segment.rewrite r.rewrite) := by rw [← hsame]; rfl
    _ = segments'.flatMap Segment.text := by
        rw [List.flatMap_def, List.flatMap_def, List.map_congr_left hkept]
    _ = r.apply t := hcuts'.flatten

/-- The lines of the new text behind a place are those of the text there and the headers in front of
declarations. On a line that has begun already nothing is put in. -/
theorem exists_interleaves (hcuts : Cuts r.pattern c segments) :
    Interleaves (lines c.after) ((hitsOf segments).flatMap r.inserted)
        (lines (segments.flatMap (Segment.rewrite r.rewrite))) ∧
      (c.atLineStart = false → Begun c.after ((hitsOf segments).flatMap r.inserted)
        (segments.flatMap (Segment.rewrite r.rewrite))) := by
  induction hcuts with
  | stop hend =>
    have hbegun : Begun [] [] [] := ⟨[], [], [], rfl, rfl, .nil⟩
    rw [hend]
    exact ⟨hbegun.interleaves, fun _ => hbegun⟩
  | @pass c c' a g rest hread _ _ ih =>
    -- A line feed starts a line, where anything may be put in. Any other character goes on with
    -- one.
    have hbegun : Begun c.after ((hitsOf (.gap g :: rest)).flatMap r.inserted)
        (a :: (Segment.gap g :: rest).flatMap (Segment.rewrite r.rewrite)) := by
      rw [hread.after_eq]
      by_cases ha : a = '\n'
      · rw [ha]
        exact begun_feed ih.1
      · refine (ih.2 ?_).append [a]
        simp [Cursor.atLineStart, hread.before_eq, ha]
    exact ⟨hbegun.interleaves, fun _ => hbegun⟩
  | @hit c m rest hm hcuts ih =>
    obtain ⟨hline, hshape, -, hreads⟩ := h.shape_of_match hm
    -- A declaration does not end a line.
    have hstop : m.stop.atLineStart = false := by
      have hne : last ≠ '\n' := by
        rintro rfl
        exact absurd h.isBlank_last (by decide)
      simp [Cursor.atLineStart, hreads.before_eq, h.ends hshape, hne]
    have hbegun := (ih.2 hstop).append m.text
    rw [← hreads.after_eq] at hbegun
    refine ⟨?_, fun hbegan => ?_⟩
    · rw [List.flatMap_cons, List.flatMap_cons, Segment.rewrite, Segment.rewrite, List.nil_append,
        h.rewrite_eq hm]
      show Interleaves _ (r.inserted m ++ (hitsOf rest).flatMap r.inserted) _
      rw [HeaderRule.inserted]
      split
      · exact hbegun.interleaves
      · rw [List.append_assoc, List.cons_append, lines_append_feed]
        exact hbegun.interleaves.right_append _
    · rw [hline] at hbegan
      cases hbegan

/-- The lines of the new text are those of the old one and the headers. -/
theorem interleaves (t : Text) :
    Interleaves (lines t) ((r.pattern.hits t).flatMap r.inserted) (lines (r.apply t)) := by
  rw [← hitsOf_segments]
  exact (h.exists_interleaves (cuts_segments h.solid t)).1

end HeaderRule.Lawful

end

/-! ### What patterns spell -/

namespace Pattern

/-- A sequence that is put together spells what the one and then the other does. -/
theorem spells_seq_append {ps qs : List Pattern} {e e' : Groups} {u : Text} :
    Spells (seq (ps ++ qs)) e u e' ↔
      ∃ v e₁ w, Spells (seq ps) e v e₁ ∧ Spells (seq qs) e₁ w e' ∧ u = v ++ w := by
  -- A sequence of one pattern is that pattern, so its case is the only one to tell apart.
  have hcons : ∀ (p : Pattern) (ps : List Pattern) {e e' : Groups} {u : Text},
      Spells (seq (p :: ps)) e u e' ↔
        ∃ v e₁ w, Spells p e v e₁ ∧ Spells (seq ps) e₁ w e' ∧ u = v ++ w := by
    intro p ps e e' u
    cases ps with
    | nil => simp [seq, Spells]
    | cons q ps =>
      rw [spells_seq]
      constructor
      · rintro ⟨v, e₁, hp, w, rfl, hq⟩
        exact ⟨v, e₁, w, hp, hq, rfl⟩
      · rintro ⟨v, e₁, w, hp, hq, rfl⟩
        exact ⟨v, e₁, hp, w, rfl, hq⟩
  induction ps generalizing e u with
  | nil => simp [seq, Spells]
  | cons p ps ih =>
    rw [List.cons_append, hcons]
    simp only [hcons, ih]
    constructor
    · rintro ⟨v, e₁, _, hp, ⟨v', e₂, w, hps, hqs, rfl⟩, rfl⟩
      exact ⟨v ++ v', e₂, w, ⟨v, e₁, v', hp, hps, rfl⟩, hqs, (List.append_assoc ..).symm⟩
    · rintro ⟨_, e₂, w, ⟨v, e₁, v', hp, hps, rfl⟩, hqs, rfl⟩
      exact ⟨v, e₁, v' ++ w, hp, ⟨v', e₂, w, hps, hqs, rfl⟩, List.append_assoc ..⟩

/-- A pattern does not spell any of the characters that it avoids. -/
theorem Spells.all_except {p : Pattern} {e e' : Groups} {u : Text} (h : Spells p e u e')
    {members : Text} (hmembers : members.all p.avoids = true) :
    u.all (CharSet.except members) = true :=
  all_except_iff.mpr fun _ ha => h.not_mem (List.all_eq_true.mp hmembers _ ha)

/-- Characters that avoid more of them avoid fewer. -/
theorem all_except_mono {members members' t : Text} (h : t.all (CharSet.except members) = true)
    (hmembers : members' ⊆ members) : t.all (CharSet.except members') = true :=
  all_except_iff.mpr fun _ ha => all_except_iff.mp h _ (hmembers ha)

end Pattern

/-! ### Declarations at the start of a line -/

section

variable {p : Pattern} {c c' : Cursor} {u g i s w z : Text} {a last : Char}

/-- A pattern without conditions but for the start of a line. -/
theorem takes_lineStart_iff (hp : p.isUnconditional = true) (hreads : c.Reads u c') :
    (∃ caps, Takes (.both lineStart p) c [] c' caps) ↔
      c.atLineStart = true ∧ ∃ e, Spells p [] u e := by
  constructor
  · rintro ⟨caps, c₁, caps₁, ⟨hline, rfl, rfl⟩, htakes⟩
    obtain ⟨x, hx, hspells⟩ := htakes.spells
    have hsplit : x ++ c'.after = u ++ c'.after := hx.after_eq.symm.trans hreads.after_eq
    obtain rfl := List.append_cancel_right hsplit
    exact ⟨hline, _, hspells⟩
  · rintro ⟨hline, e, hspells⟩
    obtain ⟨caps, htakes, -⟩ := exists_takes_of_spells hp hreads
      (show Spells p (textsOf []) u e from hspells)
    exact ⟨caps, c, [], ⟨hline, rfl, rfl⟩, htakes⟩

/-- What a match at the start of a line is made of. -/
theorem spells_of_match {m : Match} (h : (Pattern.both lineStart p).matchAt? c = some m) :
    Spells p [] m.text (textsOf m.groups) := by
  obtain ⟨x, hx, rfl, -⟩ := exists_reads_of_matchAt? h
  obtain ⟨-, htakes⟩ := takes_of_matchAt? h
  obtain ⟨y, hy, v, e, ⟨rfl, rfl⟩, w, rfl, hspells⟩ := htakes.spells
  obtain rfl : w = m.text := List.append_cancel_right (hy.after_eq.symm.trans hx.after_eq)
  exact hspells

/-- A part of a header in front of the rest of it. -/
theorem prefix_of_append_feed {header v : Text} (h : header ++ ['\n'] = v ++ w) (hw : w ≠ []) :
    v <+: header := by
  cases w using List.reverseRecOn with
  | nil => exact absurd rfl hw
  | append_singleton w b =>
    rw [← List.append_assoc] at h
    exact ⟨w, (List.append_inj_left' h rfl).symm⟩

/-- A declaration that runs over the start of a header holds the indentation of that, and the
character behind it. -/
theorem prefix_or_eq (hu : u.getLast? = some last) (hlast : isIndent last = false)
    (hi : i.all isIndent = true) (h : u ++ s = g ++ (i ++ a :: z)) :
    u <+: g ∨ ∃ w, u = g ++ (i ++ a :: w) ∧ w ++ s = z := by
  rcases List.append_eq_append_iff.mp h with ⟨w, rfl, -⟩ | ⟨w, rfl, hw⟩
  · exact .inl ⟨w, rfl⟩
  · -- The end of the declaration is no indentation.
    have hwithin {x : Text} (hx : i = w ++ x) : g ++ w <+: g := by
      cases w using List.reverseRecOn with
      | nil => simp
      | append_singleton w b =>
        have hb : b = last := by simpa using hu
        rw [hx, List.all_append, List.all_append, hb] at hi
        simp [hlast] at hi
    rcases List.append_eq_append_iff.mp hw.symm with ⟨x, hx, -⟩ | ⟨x, rfl, hx⟩
    · exact .inl (hwithin hx)
    · cases x with
      | nil => exact .inl (hwithin (x := []) (by simp))
      | cons b x =>
        obtain ⟨rfl, rfl⟩ := List.cons.inj hx
        exact .inr ⟨x, rfl, rfl⟩

end

/-! ### Documentation comments -/

/-- A documentation comment at a margin. -/
def docComment (margin : Text) (ls : List Text) : Text :=
  unlines ((margin ++ "/**") :: (ls ++ [margin ++ " */"]))

/-- A documentation comment begins with a slash and two stars, and ends with its last line. -/
theorem docComment_eq (margin : Text) (ls : List Text) :
    docComment margin ls =
      margin ++ '/' :: ("**".toList ++ '\n' :: unlines (ls ++ [margin ++ " */"])) := by
  rw [docComment, unlines_cons _ (by simp), List.append_assoc]
  rfl

/-- A comment ends with the mark for one. -/
theorem suffix_docComment (margin : Text) (ls : List Text) :
    "*/".toList <:+ docComment margin ls := by
  have hlast (ls : List Text) : "*/".toList <:+ unlines (ls ++ [margin ++ " */"]) := by
    induction ls with
    | nil =>
      rw [List.nil_append, unlines_singleton]
      exact ⟨margin ++ " ".toList, by simp⟩
    | cons l ls ih =>
      rw [List.cons_append, unlines_cons _ (by simp)]
      exact ih.trans (List.suffix_append_of_suffix (List.suffix_cons _ _))
  exact hlast ((margin ++ "/**") :: ls)

/-- A documentation comment holds no characters but those of its frame, its margin and its lines. -/
theorem not_mem_docComment {margin : Text} {ls : List Text} {a : Char} (ha : a ∉ "/* \n".toList)
    (hmargin : a ∉ margin) (hls : ∀ l ∈ ls, a ∉ l) : a ∉ docComment margin ls := by
  have hfeed : a ∉ ['\n'] := fun h => ha (by rw [List.mem_singleton.mp h]; decide)
  have hmarks : a ∉ "/**".toList ∧ a ∉ " */".toList := by
    refine ⟨fun h => ha ?_, fun h => ha ?_⟩
    · exact (by decide : "/**".toList ⊆ "/* \n".toList) h
    · exact (by decide : " */".toList ⊆ "/* \n".toList) h
  refine not_mem_joinWith hfeed ?_
  intro l hl
  simp only [List.mem_cons, List.mem_append, List.not_mem_nil, or_false] at hl
  rcases hl with rfl | hl | rfl
  · exact List.not_mem_append hmargin hmarks.1
  · exact hls l hl
  · exact List.not_mem_append hmargin hmarks.2

section

variable {header v w g u s y z : Text} {b : Char}

/-- The rest of a comment from a line of it on holds a slash. -/
theorem slash_mem_rest (hheader : header ++ ['\n'] = v ++ w) (hmark : "*/".toList <:+ header)
    (hv : v.getLast? = some '\n') (hw : w ≠ []) : '/' ∈ w := by
  obtain ⟨w', rfl⟩ := prefix_of_append_feed hheader hw
  rw [List.append_assoc] at hheader
  obtain rfl := List.append_cancel_left hheader
  have hlast : (v ++ w').getLast? = some '/' := by
    obtain ⟨x, hx⟩ := hmark
    rw [← hx, List.getLast?_append]
    rfl
  rw [List.getLast?_append, hv] at hlast
  cases hrest : w'.getLast? with
  | none =>
    rw [hrest] at hlast
    cases hlast
  | some a =>
    rw [hrest] at hlast
    cases hlast
    exact List.mem_append_left _ (List.mem_of_getLast? hrest)

/-- A declaration whose front holds no slash does not begin in a comment: the first character of
some kind would stand behind the end of the comment in both. -/
theorem ne_of_slash_mem {k : Char} {front back front' back' : Text}
    (hheader : header ++ ['\n'] = v ++ w) (hk : k ∉ header ++ ['\n']) (hslash : '/' ∈ w)
    (hfront : k ∉ front) (hfront' : front'.all (CharSet.except ['/', k]) = true) :
    front' ++ k :: back' ++ s ≠ w ++ (front ++ k :: back ++ z) := by
  intro heq
  have hall : (w ++ front).all (CharSet.except [k]) = true := by
    rw [hheader, List.mem_append, not_or] at hk
    exact all_except_iff.mpr (List.forall_mem_singleton.mpr (List.not_mem_append hk.2 hfront))
  have hfirst : front' ++ k :: (back' ++ s) = (w ++ front) ++ k :: (back ++ z) := by simpa using heq
  have hself : CharSet.except [k] k = false := by simp [CharSet.except]
  have hfront'' : front'.all (CharSet.except [k]) = true := all_except_mono hfront' (by simp)
  obtain ⟨rfl, -, -⟩ := eq_of_first hfront'' hall hself hself hfirst
  exact all_except_iff.mp hfront' '/' (.head _) (List.mem_append_left _ hslash)

/-- A character that the front of a text does not hold stands in the rest of it. -/
theorem exists_rest_of_not_mem (hb : b ∉ g) (h : g ++ u = y ++ b :: z) :
    ∃ y', y = g ++ y' ∧ u = y' ++ b :: z := by
  rcases List.append_eq_append_iff.mp h with ⟨y', rfl, hu⟩ | ⟨x, rfl, hx⟩
  · exact ⟨y', rfl, hu⟩
  · cases x with
    | nil => exact ⟨[], by simp, by simpa using hx.symm⟩
    | cons a x =>
      obtain ⟨rfl, -⟩ := List.cons.inj hx
      simp at hb

end

end CodeTidy
