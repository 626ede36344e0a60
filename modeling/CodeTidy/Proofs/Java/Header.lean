import CodeTidy.Java.Table
import CodeTidy.Proofs.JavaScript.Header

/-!
# `CodeTidy.Proofs.Java.Header`: annotations and comments in front of methods

A method that overrides another one is marked by a line of its own, and a public method
gets a comment. Annotations may stand in front of `public` already, and they may hold
parentheses, but each of them begins a line. The theorems:

* `lawful_overrideRule`: the rule for `@Override` finds its declarations again.
* `takes_publicMethod_iff`: a public method is found by its characters, though the pattern
  looks ahead.
* `isAnnotated_of_repeats`, `IsAnnotated.unique`: what annotations are made of, and where they end.
* `IsMethod.behind_slash`: what follows a slash at the start of a line in a declaration.
* `lawful_docRule`: the rule for comments finds its declarations again.
* `headers_inserted_once`: the rules for headers in both languages change nothing a second time,
  and do nothing but put lines in.
-/

set_option autoImplicit false

namespace CodeTidy

open Pattern Text

/-! ### Annotations of methods that override others -/

namespace Java

/-- The rule for `@Override`. -/
def overrideRule : HeaderRule where
  name := "override_annotation"
  table := rules
  pattern := overridingMethod
  rewrite := withOverride
  isRule := by simp [rules]
  header m := m.group 1 ++ "@Override"
  mark := "@Override"

/-- What stands in front of the parenthesis of the declaration. -/
def overridingFront : List Pattern :=
  ["public", space1, opt (seq ["final", space1]), oneOfWords ["boolean", "int", "String"], space1,
    oneOfWords ["equals", "hashCode", "toString", "compareTo"], space]

/-- The declaration without the condition on its place: `overridingMethod` is this at the start of a
line. -/
def overridingHead : Pattern :=
  seq [.group 1 indent, .group 2 (seq (overridingFront ++ [text "("]))]

/-- A declaration ends with the only parenthesis in it. -/
theorem exists_of_overridingHead {u : Text} {e : Groups} (h : Spells overridingHead [] u e) :
    ∃ front, u = front ++ ['('] ∧ front.all (CharSet.except "(@") = true ∧
      ∃ i w, e = [(2, w), (1, i)] ∧ u = i ++ w ∧ i.all isIndent = true := by
  simp only [overridingHead, spells_group_then, spells_seq_one, spells_group, indent, many,
    spells_run] at h
  obtain ⟨i, _, ⟨hi, -, rfl⟩, w, rfl, e₁, hbody, rfl⟩ := h
  obtain rfl := hbody.groups_eq (by decide)
  obtain ⟨v, _, _, hfront, hlast, rfl⟩ := spells_seq_append.mp hbody
  obtain ⟨rfl, -⟩ := spells_text.mp hlast
  refine ⟨i ++ v, (List.append_assoc ..).symm, ?_, i, _, rfl, rfl, hi⟩
  rw [List.all_append, all_except_of_all hi (by decide), hfront.all_except (by decide)]
  rfl

/-- The rule for `@Override` finds its declarations again. -/
theorem lawful_overrideRule :
    overrideRule.Lawful (fun u => ∃ e, Spells overridingHead [] u e) '(' where
  solid := isSolid_spec (by decide)
  takes_iff := takes_lineStart_iff (by decide)
  unique := by
    rintro u u' s s' ⟨e, h⟩ ⟨e', h'⟩ heq
    obtain ⟨front, rfl, hfront, -⟩ := exists_of_overridingHead h
    obtain ⟨front', rfl, hfront', -⟩ := exists_of_overridingHead h'
    rw [List.append_assoc, List.append_assoc] at heq
    obtain ⟨rfl, -, -⟩ := eq_of_first hfront hfront' (by decide) (by decide) heq
    rfl
  ends := by
    rintro u ⟨e, h⟩
    obtain ⟨front, rfl, -⟩ := exists_of_overridingHead h
    simp
  isBlank_last := by decide
  last_not_mem := by decide
  isBlank_mark := by decide
  rewrite_eq := by
    intro c m hm
    obtain ⟨-, -, -, i, w, hgroups, htext, -⟩ := exists_of_overridingHead (spells_of_match hm)
    have hsplit : m.text = m.group 1 ++ m.group 2 := by
      rw [htext, group_eq, group_eq, hgroups]
      rfl
    show withOverride m = if _ then m.text else m.group 1 ++ "@Override".toList ++ '\n' :: m.text
    rw [withOverride, hsplit]
    refine if_congr Iff.rfl rfl ?_
    show m.group 1 ++ ("@Override".toList ++ ['\n']) ++ m.group 1 ++ m.group 2 = _
    simp only [List.append_assoc, List.cons_append, List.nil_append]
  header_ends := fun _ => List.suffix_append _ _
  passes := by
    rintro c m u g s z hm ⟨e, h⟩ - heq
    obtain ⟨-, -, -, i, w, hgroups, -, hi⟩ := exists_of_overridingHead (spells_of_match hm)
    have hheader : overrideRule.header m = i ++ '@' :: "Override".toList := by
      show m.group 1 ++ _ = _
      rw [group_eq, hgroups]
      rfl
    obtain ⟨front, rfl, hfront, -⟩ := exists_of_overridingHead h
    rw [hheader, List.append_assoc i] at heq
    -- A declaration that runs over the header holds the at sign, and in front of its parenthesis
    -- there is none.
    have hparen : isIndent '(' = false := by decide
    rcases prefix_or_eq (List.getLast?_concat ..) hparen hi heq with hprefix | ⟨w, hw, -⟩
    · exact hprefix
    · have hmem : '@' ∈ front ++ ['('] := by rw [hw]; simp
      rw [List.mem_append] at hmem
      rcases hmem with hmem | hmem
      · exact absurd hmem (all_except_iff.mp hfront _ (by decide))
      · exact absurd hmem (by decide)
  inside := by
    rintro c m u v w s z hm - hheader hv hw -
    obtain ⟨-, -, -, i, w', hgroups, -, hi⟩ := exists_of_overridingHead (spells_of_match hm)
    -- The header is one line, so nothing of it comes behind a line feed.
    have hfeed : '\n' ∉ overrideRule.header m := by
      show '\n' ∉ m.group 1 ++ _
      rw [group_eq, hgroups]
      exact List.not_mem_append (not_mem_of_all hi (by decide)) (by decide)
    have hmem := List.mem_of_getLast? hv
    exact absurd ((prefix_of_append_feed hheader hw).subset hmem) hfeed

end Java

/-! ### Public methods -/

namespace Java

/-- The lines of the comment on a method. -/
def docLines (m : Match) : List Text :=
  let returns := trim (m.group 3) != "void".toList
  let names := (splitParams (m.group 5)).filterMap paramName?
  let separator : List Text := if !names.isEmpty || returns then [m.group 1 ++ " *"] else []
  let result : List Text := if returns then [m.group 1 ++ " * @return the result"] else []
  let params := names.map
    (fun n => m.group 1 ++ " * @param " ++ n ++ " the " ++ lower (humanize n))
  (m.group 1 ++ " * " ++ humanize (m.group 4) ++ ".") :: (separator ++ params ++ result)

/-- The rule for comments on public methods. -/
def docRule : HeaderRule where
  name := "javadoc_header"
  table := rules
  pattern := publicMethod
  rewrite := withDoc
  isRule := by simp [rules]
  header m := docComment (m.group 1) (docLines m)
  mark := "*/"

/-- What `public` may stand in front of that is no method. -/
def kinds : List String := ["class", "interface", "enum", "record"]

/-- An annotation on a line of its own. -/
def annotationLine : Pattern :=
  seq ["@", word, opt (seq ["(", many (CharSet.except ")\n"), ")"]), indent, "\n", indent]

/-- The declaration up to where a kind may stand. -/
def methodFront : List Pattern :=
  [.group 1 indent, .group 2 annotationLines, "public", space1,
    .star .most (seq [oneOfWords ["static", "final", "abstract", "synchronized"], space1])]

/-- The rest of the declaration. -/
def methodBack : List Pattern :=
  [.group 3 (few1 (CharSet.or isWord (CharSet.of "<>[], ?"))), space1, .group 4 word, space, "(",
    .group 5 (many (CharSet.except "()")), ")"]

/-- The pattern for public methods, with its parts named. -/
theorem publicMethod_eq : publicMethod = .both lineStart
    (seq (methodFront ++ .notAhead (seq [oneOfWords kinds, boundary]) :: methodBack)) := rfl

/-- The shape of a declaration. -/
def IsPublicMethod (u : Text) : Prop :=
  ∃ a e₁ b e, u = a ++ b ∧ Spells (seq methodFront) [] a e₁ ∧ Spells (seq methodBack) e₁ b e ∧
    b.takeWhile isWord ∉ kinds.map String.toList

/-- A word of a list stands at a place if it is the word that the text goes on with. -/
theorem takes_keyword_iff {ws : List String} {c : Cursor} {caps : Captures}
    (hws : ∀ w ∈ ws, w.toList ≠ [] ∧ w.toList.all isWord = true) :
    (∃ c' caps', Takes (seq [oneOfWords ws, boundary]) c caps c' caps') ↔
      c.after.takeWhile isWord ∈ ws.map String.toList := by
  -- Behind a word there is a boundary where no word character follows.
  have hboundary {w : String} {d : Cursor} (hw : w ∈ ws) (hd : c.Reads w.toList d) :
      d.atWordBoundary = d.after.head?.all (fun a => !isWord a) := by
    obtain ⟨hne, hall⟩ := hws w hw
    obtain ⟨v, b, hv⟩ := (List.eq_nil_or_concat' w.toList).resolve_left hne
    have hb : isWord b = true := by
      rw [hv, List.all_append, Bool.and_eq_true] at hall
      simpa using hall.2
    rw [Cursor.atWordBoundary, Cursor.follows, Cursor.precedes, hd.before_eq, hv]
    cases d.after.head? <;> simp [hb]
  constructor
  · rintro ⟨c', caps', c₁, caps₁, hword, hplace, rfl, rfl⟩
    obtain ⟨w, hw, hreads, rfl⟩ := takes_oneOfWords hword
    rw [hboundary hw hreads] at hplace
    rw [hreads.after_eq, (takeWhile_append_of_head (List.all_eq_true.mp (hws w hw).2) hplace).1]
    exact List.mem_map_of_mem hw
  · intro hmem
    obtain ⟨w, hw, heq⟩ := List.mem_map.mp hmem
    have hafter : c.after = w.toList ++ c.after.dropWhile isWord := by
      rw [heq, List.takeWhile_append_dropWhile]
    obtain ⟨d, hd, hrest⟩ := Cursor.exists_reads hafter
    refine ⟨d, caps, d, caps, takes_oneOfWords_of_mem hw hd, ?_, rfl, rfl⟩
    rw [hboundary hw hd, hrest]
    cases hhead : (c.after.dropWhile isWord).head? with
    | none => rfl
    | some a =>
      have hnot := List.head?_dropWhile_not isWord c.after
      rw [hhead] at hnot
      simpa using hnot

/-- The name of a method, its parameters, and what stands in front of it and between the two. -/
theorem exists_of_methodBack {e e' : Groups} {b : Text} (h : Spells (seq methodBack) e b e') :
    ∃ mid name params, b = mid ++ '(' :: (params ++ [')']) ∧
      mid.all (CharSet.except "/()") = true ∧ name.all isWord = true ∧
      params.all (CharSet.except "()") = true ∧
      ∃ type, e' = (5, params) :: (4, name) :: (3, type) :: e := by
  simp only [methodBack, few1, many1, many, space1, space, word, spells_group_then, spells_run_then,
    spells_text_then, spells_run, spells_seq_one, spells_text] at h
  obtain ⟨type, _, ⟨htype, -, rfl⟩, _, rfl, s₁, hs₁, -, _, rfl, name, _, ⟨hname, -, rfl⟩,
    _, rfl, s₂, hs₂, -, _, rfl, _, rfl, params, _, ⟨hparams, -, rfl⟩, _, rfl, rfl, rfl⟩ := h
  refine ⟨type ++ (s₁ ++ (name ++ s₂)), name, params, by simp, ?_, hname, hparams, type, rfl⟩
  rw [List.all_append, List.all_append, List.all_append, all_except_of_all htype (by decide),
    all_except_of_all hs₁ (by decide), all_except_of_all hname (by decide),
    all_except_of_all hs₂ (by decide)]
  rfl

/-- The rest of a declaration tells whether a kind stands there, whatever follows. -/
theorem takeWhile_methodBack {e e' : Groups} {b : Text} (h : Spells (seq methodBack) e b e')
    (r : Text) : (b ++ r).takeWhile isWord = b.takeWhile isWord := by
  obtain ⟨mid, -, params, rfl, -⟩ := exists_of_methodBack h
  rw [List.takeWhile_append, if_neg]
  intro hlength
  have hwhole := List.takeWhile_eq_self_iff.mp ((List.takeWhile_prefix _).eq_of_length hlength)
  exact absurd (hwhole '(' (by simp)) (by decide)

/-- The pattern takes what has the shape of a declaration, at the start of a line. -/
theorem takes_publicMethod_iff {c c' : Cursor} {u : Text} (hreads : c.Reads u c') :
    (∃ caps, Takes publicMethod c [] c' caps) ↔ c.atLineStart = true ∧ IsPublicMethod u := by
  rw [publicMethod_eq]
  constructor
  · -- The front of the pattern and its back are spelled, and between them it looks at the word that
    -- follows.
    rintro ⟨caps, c₁, caps₁, ⟨hline, rfl, rfl⟩, htakes⟩
    obtain ⟨c₂, caps₂, hfront, hrest⟩ := takes_seq_append.mp htakes
    obtain ⟨c₃, caps₃, ⟨rfl, rfl, hkind⟩, hback⟩ := hrest
    obtain ⟨a, ha, hspells⟩ := hfront.spells
    obtain ⟨b, hb, hspells'⟩ := hback.spells
    obtain rfl : a ++ b = u :=
      List.append_cancel_right ((ha.trans hb).after_eq.symm.trans hreads.after_eq)
    refine ⟨hline, a, _, b, _, rfl, hspells, hspells', fun hmem => ?_⟩
    rw [← takeWhile_methodBack hspells' c'.after, ← hb.after_eq] at hmem
    obtain ⟨d, caps', htakes'⟩ := (takes_keyword_iff (by decide)).mpr hmem
    exact run?_first_eq_none_iff.mp hkind d caps' htakes'
  · rintro ⟨hline, a, e₁, b, e, rfl, hfront, hback, hkind⟩
    obtain ⟨c₁, ha, hb⟩ := hreads.split
    obtain ⟨caps₁, htakes, rfl⟩ := exists_takes_of_spells (by decide) ha
      (show Spells (seq methodFront) (textsOf []) a e₁ from hfront)
    obtain ⟨caps, htakes', -⟩ := exists_takes_of_spells (by decide) hb hback
    refine ⟨caps, c, [], ⟨hline, rfl, rfl⟩, takes_seq_append.mpr ⟨c₁, caps₁, htakes, ?_⟩⟩
    refine ⟨c₁, caps₁, ⟨rfl, rfl, run?_first_eq_none_iff.mpr fun d caps' hword => ?_⟩, htakes'⟩
    have hmem := (takes_keyword_iff (by decide)).mp ⟨d, caps', hword⟩
    rw [hb.after_eq, takeWhile_methodBack hback] at hmem
    exact hkind hmem

/-- Each line of a text that begins in it with something else than indentation begins with a
character of the set. -/
def LinesBegin (set : CharSet) (t : Text) : Prop :=
  ∀ g i a z, t = g ++ (i ++ a :: z) → EndsFresh g → i.all isIndent = true → isIndent a = false →
    a ≠ '\n' → set a = true

/-- What stands in front of `public`: lines that begin with an annotation, and the indentation of
the next one. -/
structure IsAnnotated (t : Text) : Prop where
  begins : LinesBegin (CharSet.of "@") t
  ends : ∃ g i, t = g ++ i ∧ EndsFresh g ∧ i.all isIndent = true
  opens : t.all (CharSet.except "/()") = true ∨
    ∃ front rest, t = front ++ '(' :: rest ∧ front.all (CharSet.except "/()") = true

/-- Indentation alone may stand in front of `public`. -/
theorem isAnnotated_indent {i : Text} (hi : i.all isIndent = true) : IsAnnotated i where
  begins := by
    rintro g j a z rfl - - ha -
    simp [ha] at hi
  ends := ⟨[], i, rfl, .inl rfl, hi⟩
  opens := .inl (all_except_of_all hi (by decide))

/-- One more line with an annotation. -/
theorem IsAnnotated.cons {t i l : Text} (h : IsAnnotated t) (hi : i.all isIndent = true)
    (hl : '\n' ∉ l) (hopens : l.all (CharSet.except "/()") = true ∨
      ∃ front rest, l = front ++ '(' :: rest ∧ front.all (CharSet.except "/()") = true) :
    IsAnnotated (i ++ '@' :: (l ++ '\n' :: t)) where
  begins := by
    rintro g j a z heq hg hj ha hfeed
    rcases hg with rfl | hg
    · obtain ⟨-, rfl, -⟩ := eq_of_first hi hj (by decide) ha heq
      decide
    · -- The line that begins there is a later one.
      obtain ⟨g, rfl⟩ := List.getLast?_eq_some_iff.mp hg
      have hline : '\n' ∉ i ++ '@' :: l :=
        List.not_mem_append (not_mem_of_all hi (by decide)) (by simp [hl])
      have hsplit : i ++ '@' :: l ++ '\n' :: t = g ++ '\n' :: (j ++ a :: z) := by
        simpa using heq
      obtain ⟨y, -, hrest⟩ := exists_rest_of_not_mem hline hsplit
      cases y with
      | nil => exact h.begins [] j a z (List.cons.inj hrest).2 (.inl rfl) hj ha hfeed
      | cons b y =>
        refine h.begins (y ++ ['\n']) j a z ?_ (.inr (by simp)) hj ha hfeed
        rw [(List.cons.inj hrest).2]
        simp
  ends := by
    obtain ⟨g, j, rfl, hg, hj⟩ := h.ends
    refine ⟨i ++ '@' :: (l ++ '\n' :: g), j, by simp, .inr ?_, hj⟩
    rcases hg with rfl | hg
    · simp [List.getLast?_cons]
    · simp [List.getLast?_cons, hg]
  opens := by
    have hfront : (i ++ ['@']).all (CharSet.except "/()") = true := by
      rw [List.all_append, all_except_of_all hi (by decide)]
      rfl
    rcases hopens with hplain | ⟨front, rest, rfl, hplain⟩
    · rcases h.opens with ht | ⟨front, rest, rfl, ht⟩
      · left
        rw [List.append_cons, List.all_append, hfront, List.all_append, hplain, List.all_cons, ht]
        rfl
      · refine .inr ⟨i ++ ['@'] ++ (l ++ '\n' :: front), rest, by simp, ?_⟩
        rw [List.all_append, hfront, List.all_append, hplain, List.all_cons, ht]
        rfl
    · refine .inr ⟨i ++ ['@'] ++ front, rest ++ '\n' :: t, by simp, ?_⟩
      rw [List.all_append, hfront, hplain]
      rfl

/-- Lines that begin with an annotation may stand in front of `public`. -/
theorem isAnnotated_of_repeats {e e' : Groups} {i u : Text} (hi : i.all isIndent = true)
    (h : Repeats (Spells annotationLine) e u e') : IsAnnotated (i ++ u) := by
  induction h generalizing i with
  | none =>
    rw [List.append_nil]
    exact isAnnotated_indent hi
  | more round _ ih =>
    obtain ⟨x, rfl, hx⟩ := spells_text_then.mp round
    obtain ⟨name, hname, -, y, rfl, hy⟩ := spells_run_then.mp hx
    obtain ⟨args, _, hargs, z, rfl, hz⟩ := spells_seq.mp hy
    simp only [indent, many, spells_run_then, spells_text_then, spells_seq_one, spells_run] at hz
    obtain ⟨s, hs, -, _, rfl, j, rfl, hj, -, rfl⟩ := hz
    have hfeed : '\n' ∉ name ++ (args ++ s) := List.not_mem_append
      (not_mem_of_all hname (by decide))
      (List.not_mem_append (hargs.not_mem (by decide)) (not_mem_of_all hs (by decide)))
    have hname' : name.all (CharSet.except "/()") = true := all_except_of_all hname (by decide)
    have hs' : s.all (CharSet.except "/()") = true := all_except_of_all hs (by decide)
    -- The arguments of an annotation, if it has any, bring the first parenthesis of its line.
    have hopens : (name ++ (args ++ s)).all (CharSet.except "/()") = true ∨ ∃ front rest,
        name ++ (args ++ s) = front ++ '(' :: rest ∧ front.all (CharSet.except "/()") = true := by
      rcases hargs with hargs | ⟨rfl, -⟩
      · obtain ⟨x, rfl, -⟩ := spells_text_then.mp hargs
        exact .inr ⟨name, x ++ s, rfl, hname'⟩
      · left
        rw [List.all_append, hname', List.nil_append, hs']
        rfl
    have hline := (ih hj).cons hi hfeed hopens
    simpa using hline

/-- What a declaration is made of. -/
structure IsMethod (u i name params : Text) : Prop where
  exists_parts : ∃ front mid, u = front ++ 'p' :: (mid ++ '(' :: (params ++ [')'])) ∧
    IsAnnotated front ∧ mid.all (CharSet.except "/()") = true
  indent : i.all isIndent = true
  name : name.all isWord = true
  params : params.all (CharSet.except "()") = true

/-- The two halves of the pattern spell a declaration, and remember its parts. -/
theorem exists_of_method {e₁ e : Groups} {a b : Text} (ha : Spells (seq methodFront) [] a e₁)
    (hb : Spells (seq methodBack) e₁ b e) :
    ∃ i name params, IsMethod (a ++ b) i name params ∧
      ∃ type w, e = [(5, params), (4, name), (3, type), (2, w), (1, i)] := by
  obtain ⟨mid, name, params, rfl, hmid, hname, hparams, type, rfl⟩ := exists_of_methodBack hb
  simp only [methodFront, spells_group_then, spells_text_then, space1, many1, indent, many,
    spells_run_then, spells_seq_one, spells_run] at ha
  obtain ⟨i, _, ⟨hi, -, rfl⟩, _, rfl, w, _, hlines, _, rfl, _, rfl, s, hs, -, v, rfl,
    hmodifiers⟩ := ha
  obtain rfl := hlines.groups_eq (by decide)
  obtain rfl := hmodifiers.groups_eq (by decide)
  refine ⟨i, name, params, ⟨⟨i ++ w, "ublic" ++ (s ++ (v ++ mid)), by simp, ?_, ?_⟩, hi, hname,
    hparams⟩, type, w, rfl⟩
  · exact isAnnotated_of_repeats hi hlines
  · rw [List.all_append, List.all_append, List.all_append, all_except_of_all hs (by decide),
      hmodifiers.all_except (by decide), hmid]
    rfl

/-- The front of a declaration in which no parenthesis stands. -/
theorem IsMethod.exists_front {u i name params : Text} (h : IsMethod u i name params) :
    ∃ front rest, u = front ++ '(' :: rest ∧ front.all (CharSet.except "/()") = true := by
  obtain ⟨front, mid, rfl, hannotated, hmid⟩ := h.exists_parts
  rcases hannotated.opens with hfront | ⟨front, rest, rfl, hfront⟩
  · refine ⟨front ++ 'p' :: mid, params ++ [')'], by simp, ?_⟩
    rw [List.all_append, hfront, List.all_cons, hmid]
    rfl
  · exact ⟨front, rest ++ 'p' :: (mid ++ '(' :: (params ++ [')'])), by simp, hfront⟩

/-- A declaration ends with the parenthesis behind its parameters. -/
theorem IsMethod.getLast?_eq {u i name params : Text} (h : IsMethod u i name params) :
    u.getLast? = some ')' := by
  obtain ⟨front, mid, rfl, -⟩ := h.exists_parts
  simp [List.getLast?_cons]

/-- What stands in front of `public` can be told from the text. -/
theorem IsAnnotated.unique {t t' x x' : Text} (h : IsAnnotated t) (h' : IsAnnotated t')
    (heq : t ++ 'p' :: x = t' ++ 'p' :: x') : t = t' ∧ x = x' := by
  have hnone {t y x x' : Text} (h : IsAnnotated t) (h' : IsAnnotated (t ++ y))
      (hy : 'p' :: x = y ++ x') : y = [] := by
    cases y with
    | nil => rfl
    | cons a y =>
      obtain ⟨rfl, -⟩ := List.cons.inj hy
      obtain ⟨g, i, rfl, hg, hi⟩ := h.ends
      rw [List.append_assoc] at h'
      have hat := h'.begins g i 'p' y rfl hg hi (by decide) (by decide)
      exact absurd hat (by decide)
  rcases List.append_eq_append_iff.mp heq with ⟨y, rfl, hy⟩ | ⟨y, rfl, hy⟩
  · obtain rfl := hnone h h' hy
    exact ⟨(List.append_nil t).symm, (List.cons.inj hy).2⟩
  · obtain rfl := hnone h' h hy
    exact ⟨List.append_nil t', (List.cons.inj hy).2.symm⟩

/-- Behind a slash at the start of a line in a declaration a parenthesis closes. -/
theorem IsMethod.behind_slash {u i name params g j w : Text} (h : IsMethod u i name params)
    (hg : EndsFresh g) (hj : j.all isIndent = true) (hu : u = g ++ (j ++ '/' :: w)) :
    ∃ b, w = b ++ [')'] ∧ b.all (CharSet.except "()") = true := by
  obtain ⟨front, mid, hparts, hannotated, hmid⟩ := h.exists_parts
  rw [hparts, ← List.append_assoc] at hu
  rcases List.append_eq_append_iff.mp hu with ⟨y, -, hy⟩ | ⟨y, rfl, hy⟩
  · have hslash : '/' ∉ 'p' :: (mid ++ ['(']) := by
      have hmid' := all_except_iff.mp hmid '/' (by decide)
      simp [hmid']
    have hsplit : 'p' :: (mid ++ ['(']) ++ (params ++ [')']) = y ++ '/' :: w := by
      rw [← hy]
      simp
    obtain ⟨y', -, hrest⟩ := exists_rest_of_not_mem hslash hsplit
    rcases List.append_eq_append_iff.mp hrest with ⟨x, -, hx⟩ | ⟨x, hparams, hx⟩
    · have hmem : '/' ∈ [')'] := by
        rw [hx]
        exact List.mem_append_right _ (.head _)
      exact absurd hmem (by decide)
    · cases x with
      | nil => cases hx
      | cons a x =>
        obtain ⟨-, rfl⟩ := List.cons.inj hx
        refine ⟨x, rfl, ?_⟩
        have hall := h.params
        rw [hparams, List.all_append, List.all_cons, Bool.and_eq_true, Bool.and_eq_true] at hall
        exact hall.2.2
  · -- A line in front of `public` begins with an annotation.
    cases y with
    | nil => cases hy
    | cons a y =>
      obtain ⟨rfl, -⟩ := List.cons.inj hy
      have hat := hannotated.begins g j '/' y (by simp) hg hj (by decide) (by decide)
      exact absurd hat (by decide)

/-- The name of a parameter is a word. -/
theorem isWord_paramName? {p n : Text} (h : paramName? p = some n) : n.all isWord = true := by
  obtain ⟨m, hm, rfl⟩ := Option.map_eq_some_iff.mp h
  have hsolid : IsSolid word := isSolid_spec (by decide)
  obtain ⟨v, hmatch⟩ := exists_matchesBehind_of_mem_hits hsolid (List.mem_of_getLast? hm)
  exact (spells_run.mp hmatch.spells).1

/-- A comment begins at the margin and holds no parentheses. -/
theorem exists_of_header {c : Cursor} {m : Match} (hm : docRule.pattern.matchAt? c = some m) :
    ∃ i name params, IsMethod m.text i name params ∧
      (∃ rest, docRule.header m = i ++ '/' :: rest) ∧
        (docRule.header m).all (CharSet.except "()") = true := by
  have hmatch : publicMethod.matchAt? c = some m := hm
  rw [publicMethod_eq] at hmatch
  obtain ⟨a, e₁, w, ha, hrest, htext⟩ := spells_seq_append.mp (spells_of_match hmatch)
  obtain ⟨_, _, ⟨rfl, rfl⟩, b, hb, hback⟩ := hrest
  obtain ⟨i, n, params, hmethod, type, lines, hgroups⟩ := exists_of_method ha hback
  have hindent : m.group 1 = i := by rw [group_eq, hgroups]; rfl
  have hname : m.group 4 = n := by rw [group_eq, hgroups]; rfl
  have hparams : m.group 5 = params := by rw [group_eq, hgroups]; rfl
  have hheader : docRule.header m = docComment i (docLines m) := by rw [← hindent]; rfl
  rw [htext, ← hb, List.nil_append]
  refine ⟨i, n, params, hmethod, ⟨_, hheader.trans (docComment_eq i _)⟩, all_except_iff.mpr ?_⟩
  intro a ha
  -- A parenthesis is no part of a name, and the words of the comment have none.
  have hmark : ∀ a ∈ "()".toList, isAsciiMark a = true ∧ isIndent a = false ∧ isWord a = false ∧
      a ∉ "/* \n".toList ∧ a ∉ " * ".toList ∧ a ∉ ".".toList ∧ a ∉ " * @param ".toList ∧
      a ∉ " the ".toList ∧ a ∉ " *".toList ∧ a ∉ " * @return the result".toList := by decide
  obtain ⟨hascii, hblank, hletter, hsigns, hstar, hdot, htag, hthe, hline, hresult⟩ := hmark a ha
  have hmargin : a ∉ i := not_mem_of_all hmethod.indent hblank
  have hspace : a ≠ ' ' := fun h => hstar (h ▸ .head _)
  have hwords {n : Text} (hn : n.all isWord = true) : a ∉ humanize n := fun hmem =>
    not_mem_of_all hn hletter (mem_of_mem_humanize hascii hspace hmem)
  rw [hheader]
  refine not_mem_docComment hsigns hmargin ?_
  simp only [docLines, hindent, hname, hparams, List.forall_mem_cons, List.forall_mem_append]
  refine ⟨?_, ⟨?_, ?_⟩, ?_⟩
  · exact List.not_mem_append (List.not_mem_append (List.not_mem_append hmargin hstar)
      (hwords hmethod.name)) hdot
  · intro l hl
    obtain ⟨-, hl⟩ := List.mem_ite_nil_right.mp hl
    obtain rfl := List.mem_singleton.mp hl
    exact List.not_mem_append hmargin hline
  · intro l hl
    obtain ⟨n, hn, rfl⟩ := List.mem_map.mp hl
    obtain ⟨p, -, hp⟩ := List.mem_filterMap.mp hn
    have hword := isWord_paramName? hp
    have hlower : a ∉ lower (humanize n) := fun hmem => hwords hword (mem_of_mem_lower hascii hmem)
    have hname : a ∉ n := not_mem_of_all hword hletter
    exact List.not_mem_append (List.not_mem_append (List.not_mem_append (List.not_mem_append
      hmargin htag) hname) hthe) hlower
  · intro l hl
    obtain ⟨-, hl⟩ := List.mem_ite_nil_right.mp hl
    obtain rfl := List.mem_singleton.mp hl
    exact List.not_mem_append hmargin hresult

/-- The rule for comments on public methods finds its declarations again. -/
theorem lawful_docRule : docRule.Lawful IsPublicMethod ')' where
  solid := isSolid_spec (by decide)
  takes_iff := takes_publicMethod_iff
  unique := by
    rintro u u' s s' ⟨a, e₁, b, e, rfl, ha, hb, -⟩ ⟨a', e₁', b', e', rfl, ha', hb', -⟩ heq
    obtain ⟨_, _, params, ⟨⟨front, mid, hu, hfront, hmid⟩, -, -, hparams⟩, -⟩ :=
      exists_of_method ha hb
    obtain ⟨_, _, params', ⟨⟨front', mid', hu', hfront', hmid'⟩, -, -, hparams'⟩, -⟩ :=
      exists_of_method ha' hb'
    rw [hu, hu'] at heq ⊢
    simp only [List.append_assoc, List.cons_append] at heq
    obtain ⟨rfl, hback⟩ := hfront.unique hfront' heq
    obtain ⟨rfl, -, hlist⟩ := eq_of_first hmid hmid' (by decide) (by decide) hback
    obtain ⟨rfl, -, -⟩ := eq_of_first hparams hparams' (by decide) (by decide) hlist
    rfl
  ends := by
    rintro u ⟨a, e₁, b, e, rfl, ha, hb, -⟩
    obtain ⟨_, _, _, hmethod, -⟩ := exists_of_method ha hb
    exact hmethod.getLast?_eq
  isBlank_last := by decide
  last_not_mem := by decide
  isBlank_mark := by decide
  rewrite_eq := by
    intro c m hm
    show withDoc m = if _ then m.text else docComment (m.group 1) (docLines m) ++ '\n' :: m.text
    rw [withDoc]
    refine if_congr Iff.rfl rfl ?_
    show docComment (m.group 1) (docLines m) ++ ['\n'] ++ m.text = _
    rw [List.append_assoc]
    rfl
  header_ends := fun _ => suffix_docComment _ _
  passes := by
    rintro c m u g s z hm ⟨a, e₁, b, e, rfl, ha, hb, -⟩ hg heq
    obtain ⟨_, _, _, hmethod', -⟩ := exists_of_method ha hb
    obtain ⟨i, _, _, hmethod, ⟨rest, hheader⟩, hplain⟩ := exists_of_header hm
    obtain ⟨front, back, htext, hfront⟩ := hmethod.exists_front
    rw [hheader, List.all_append, List.all_cons, Bool.and_eq_true, Bool.and_eq_true] at hplain
    rw [hheader, List.append_assoc i] at heq
    rcases prefix_or_eq hmethod'.getLast?_eq (by decide) hmethod.indent heq with
      hprefix | ⟨w, hw, hrest⟩
    · exact hprefix
    · obtain ⟨b', rfl, hb'⟩ := hmethod'.behind_slash hg hmethod.indent hw
      -- The next parenthesis is one that opens.
      have hall : (rest ++ '\n' :: front).all (CharSet.except "()") = true := by
        rw [List.all_append, List.all_cons, hplain.2.2, all_except_mono hfront (by decide)]
        rfl
      have hnext : b' ++ ')' :: s = (rest ++ '\n' :: front) ++ '(' :: (back ++ z) := by
        simpa [htext] using hrest
      have hparen := (eq_of_first hb' hall (by decide) (by decide) hnext).2.1
      exact absurd hparen (by decide)
  inside := by
    rintro c m u v w s z hm ⟨a, e₁, b, e, rfl, ha, hb, -⟩ hheader hv hw heq
    obtain ⟨_, _, _, hmethod', -⟩ := exists_of_method ha hb
    obtain ⟨i, _, _, hmethod, -, hplain⟩ := exists_of_header hm
    obtain ⟨front, back, htext, hfront⟩ := hmethod.exists_front
    obtain ⟨front', back', htext', hfront'⟩ := hmethod'.exists_front
    have hslash := slash_mem_rest hheader (suffix_docComment _ _) hv hw
    have hplain' : '(' ∉ docRule.header m ++ ['\n'] :=
      List.not_mem_append (all_except_iff.mp hplain '(' (by decide)) (by decide)
    rw [htext, htext'] at heq
    exact ne_of_slash_mem hheader hplain' hslash (all_except_iff.mp hfront '(' (by decide))
      (all_except_mono hfront' (by decide)) heq

end Java

/-! ### All rules for headers -/

/-- The rules that put headers in front of declarations. -/
def headerRules : List HeaderRule := [JavaScript.docRule, Java.overrideRule, Java.docRule]

/-- A rule for headers changes nothing a second time, and the lines that it leaves are the old ones
with the lines of the headers between them. -/
theorem headers_inserted_once : ∀ r ∈ headerRules, ∀ t, r.apply (r.apply t) = r.apply t ∧
    Interleaves (lines t) ((r.pattern.hits t).flatMap r.inserted) (lines (r.apply t)) := by
  intro r hr t
  simp only [headerRules, List.mem_cons, List.not_mem_nil, or_false] at hr
  rcases hr with rfl | rfl | rfl
  · exact ⟨JavaScript.lawful_docRule.apply_apply t, JavaScript.lawful_docRule.interleaves t⟩
  · exact ⟨Java.lawful_overrideRule.apply_apply t, Java.lawful_overrideRule.interleaves t⟩
  · exact ⟨Java.lawful_docRule.apply_apply t, Java.lawful_docRule.interleaves t⟩

/-- A method with an annotation. -/
def pureMethod : Text := "  @Pure\n  public int size() \x7b\x7d"

/-- The method with a comment. -/
def commentedMethod : Text :=
  "  /**\n   * Size.\n   *\n   * @return the result\n   */\n  @Pure\n  public int size() \x7b\x7d"

/-- The comment goes in front of the annotation, and a second run leaves the method alone. -/
theorem headers_inserted_once_method :
    Java.docRule.apply pureMethod = commentedMethod ∧
      Java.docRule.apply commentedMethod = commentedMethod ∧
      Interleaves (lines pureMethod)
        ["  /**".toList, "   * Size.".toList, "   *".toList, "   * @return the result".toList,
          "   */".toList] (lines commentedMethod) := by
  have hfirst : Java.docRule.apply pureMethod = commentedMethod := by decide +kernel
  have hinserted : (Java.docRule.pattern.hits pureMethod).flatMap Java.docRule.inserted =
      ["  /**".toList, "   * Size.".toList, "   *".toList, "   * @return the result".toList,
        "   */".toList] := by decide +kernel
  obtain ⟨hagain, hlines⟩ := headers_inserted_once Java.docRule (by simp [headerRules]) pureMethod
  rw [hfirst] at hagain hlines
  rw [hinserted] at hlines
  exact ⟨hfirst, hagain, hlines⟩

end CodeTidy
