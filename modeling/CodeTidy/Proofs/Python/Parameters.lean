import CodeTidy.Proofs.Pattern.Places
import CodeTidy.Proofs.Pattern.Spells
import CodeTidy.Proofs.Rule.Nesting
import CodeTidy.Python.Signature

/-!
# `CodeTidy.Proofs.Python.Parameters`: the parameters of a function, and how they are read

A line that begins a function is taken apart at its first parenthesis and at the one that closes
it; what stands between them is cut into parameters, and each of these is read as a name, an
annotation and a default. The theorems:

* `spells_flatBody_iff`: the pattern for parameters takes the texts whose parentheses are closed and
  nest one level at most.
* `IsHeader.unique`, `exists_of_defLine`: there is one way to take a line apart, and the groups of
  the pattern are its parts.
* `IsFlat.map_splitParams`: parameters that keep their parentheses fit in the line again.
* `ofText_closed`, `ofText_open`: the default of a parameter with an annotation is read if the
  annotation closes its brackets and quotes.
-/

set_option autoImplicit false

namespace CodeTidy.Python

open Pattern Text

/-! ### Parentheses that nest one level -/

/-- Whether a text that begins inside a parenthesis, or outside of one, ends inside of one; absent
if its parentheses do not fit, or nest. -/
def insideAfter? : Bool → Text → Option Bool
  | inside, [] => some inside
  | inside, c :: r =>
    if c == '(' then (if inside then none else insideAfter? true r)
    else if c == ')' then (if inside then insideAfter? false r else none)
    else insideAfter? inside r

/-- The parentheses of the text are closed, and nest one level at most. -/
def IsFlat (t : Text) : Prop := insideAfter? false t = some false

/-- The parentheses of two texts in a row. -/
theorem insideAfter?_append (inside : Bool) (u r : Text) :
    insideAfter? inside (u ++ r) = (insideAfter? inside u).bind (insideAfter? · r) := by
  induction u generalizing inside with
  | nil => rfl
  | cons c u ih =>
    rw [List.cons_append, insideAfter?, insideAfter?]
    cases inside <;> split <;> (try split) <;> first | rfl | exact ih _

/-- Only the parentheses of a text matter. -/
theorem insideAfter?_filter (inside : Bool) (t : Text) :
    insideAfter? inside (t.filter "()".toList.contains) = insideAfter? inside t := by
  induction t generalizing inside with
  | nil => rfl
  | cons c t ih =>
    by_cases hopen : c = '('
    · subst hopen
      cases inside
      · exact ih true
      · rfl
    · by_cases hclose : c = ')'
      · subst hclose
        cases inside
        · rfl
        · exact ih false
      · have hother : "()".toList.contains c = false := by simp [hopen, hclose]
        rw [List.filter_cons_of_neg (by simp [hopen, hclose]), insideAfter?,
          if_neg (by simpa using hopen), if_neg (by simpa using hclose), ih]

/-- A text without parentheses neither opens nor closes one. -/
theorem insideAfter?_eq_self {t : Text} (h : t.all (CharSet.except "()") = true) (inside : Bool) :
    insideAfter? inside t = some inside := by
  have hnone : t.filter "()".toList.contains = [] := by
    rw [List.filter_eq_nil_iff]
    intro c hc
    simpa [CharSet.except] using List.all_eq_true.mp h c hc
  rw [← insideAfter?_filter, hnone]
  rfl

/-- A text without parentheses in front changes nothing. -/
theorem insideAfter?_append_left {u : Text} (hu : u.all (CharSet.except "()") = true)
    (inside : Bool) (r : Text) : insideAfter? inside (u ++ r) = insideAfter? inside r := by
  rw [insideAfter?_append, insideAfter?_eq_self hu]
  rfl

/-- Characters other than parentheses. -/
def flatRun : Pattern := many (CharSet.except "()")

/-- A pair of parentheses, and what comes behind it. -/
def flatRound : Pattern := seq ["(", flatRun, ")", flatRun]

/-- The parameters of a function, as `defLine` has them. -/
def flatBody : Pattern := seq [flatRun, .star .most flatRound]

/-- A round of the pattern is flat. -/
theorem insideAfter?_of_spells_round {e e' : Groups} {u : Text} (h : Spells flatRound e u e') :
    IsFlat u := by
  obtain ⟨w, rfl, hrest⟩ := spells_text_then.mp h
  obtain ⟨a, ha, -, w, rfl, hrest₁⟩ := spells_run_then.mp hrest
  obtain ⟨b, rfl, hb, -, -⟩ := spells_text_then.mp hrest₁
  show insideAfter? true (a ++ ')' :: b) = some false
  rw [insideAfter?_append_left ha]
  exact insideAfter?_eq_self hb false

/-- A flat text is a run and some rounds; inside a parenthesis the parenthesis has to be closed
first. -/
theorem exists_rounds (u : Text) :
    (insideAfter? false u = some false → ∃ v w, u = v ++ w ∧ v.all (CharSet.except "()") = true ∧
      ∀ e, Repeats (Spells flatRound) e w e) ∧
    (insideAfter? true u = some false → ∃ a v w, u = a ++ ')' :: (v ++ w) ∧
      a.all (CharSet.except "()") = true ∧ v.all (CharSet.except "()") = true ∧
      ∀ e, Repeats (Spells flatRound) e w e) := by
  -- Both statements are proved at once: a parenthesis leads from the one to the other.
  induction u with
  | nil => exact ⟨fun _ => ⟨[], [], rfl, rfl, .none⟩, nofun⟩
  | cons c u ih =>
    by_cases hopen : c = '('
    · subst hopen
      refine ⟨fun h => ?_, nofun⟩
      obtain ⟨a, v, w, rfl, ha, hv, hw⟩ := ih.2 h
      refine ⟨[], '(' :: (a ++ ')' :: (v ++ w)), rfl, rfl, fun e => ?_⟩
      have hround : Spells flatRound e ('(' :: (a ++ ')' :: v)) e := by
        refine spells_text_then.mpr ⟨a ++ ')' :: v, rfl, spells_run_then.mpr ?_⟩
        refine ⟨a, ha, Nat.zero_le _, ')' :: v, rfl, spells_text_then.mpr ⟨v, rfl, ?_⟩⟩
        exact ⟨hv, Nat.zero_le _, rfl⟩
      have happend : '(' :: (a ++ ')' :: (v ++ w)) = '(' :: (a ++ ')' :: v) ++ w := by simp
      rw [happend]
      exact .more hround (hw e)
    · by_cases hclose : c = ')'
      · subst hclose
        refine ⟨nofun, fun h => ?_⟩
        obtain ⟨v, w, rfl, hv, hw⟩ := ih.1 h
        exact ⟨[], v, w, rfl, rfl, hv, hw⟩
      · have hother : CharSet.except "()" c = true := by simp [CharSet.except, hopen, hclose]
        have hstep (inside : Bool) : insideAfter? inside (c :: u) = insideAfter? inside u := by
          rw [insideAfter?, if_neg (by simpa using hopen), if_neg (by simpa using hclose)]
        rw [hstep, hstep]
        constructor
        · intro h
          obtain ⟨v, w, rfl, hv, hw⟩ := ih.1 h
          exact ⟨c :: v, w, rfl, by rw [List.all_cons, hother, hv]; rfl, hw⟩
        · intro h
          obtain ⟨a, v, w, rfl, ha, hv, hw⟩ := ih.2 h
          exact ⟨c :: a, v, w, rfl, by rw [List.all_cons, hother, ha]; rfl, hv, hw⟩

/-- The rounds of the pattern are flat. -/
theorem isFlat_of_repeats {e e' : Groups} {u : Text} (h : Repeats (Spells flatRound) e u e') :
    IsFlat u := by
  induction h with
  | none => rfl
  | more round _ ih =>
    rw [IsFlat, insideAfter?_append, insideAfter?_of_spells_round round]
    exact ih

/-- The pattern for the parameters spells the flat texts. -/
theorem spells_flatBody_iff {e e' : Groups} {u : Text} :
    Spells flatBody e u e' ↔ IsFlat u ∧ e' = e := by
  constructor
  · intro h
    refine ⟨?_, h.groups_eq rfl⟩
    obtain ⟨v, hv, -, w, rfl, hw⟩ := spells_run_then.mp h
    rw [IsFlat, insideAfter?_append_left hv]
    exact isFlat_of_repeats hw
  · rintro ⟨hflat, rfl⟩
    obtain ⟨v, w, rfl, hv, hw⟩ := (exists_rounds u).1 hflat
    exact spells_run_then.mpr ⟨v, hv, Nat.zero_le _, w, rfl, hw e'⟩

/-! ### The line that begins a function -/

/-- What a definition line has in front of its parameters. -/
def headFront : List Pattern :=
  [.group 1 indent, opt (seq ["async", space1]), "def", space1, .group 2 word, space]

/-- What it has behind them: perhaps a return annotation, the colon and perhaps a comment. -/
def headBack : List Pattern :=
  [opt (.group 4 (seq [space, "->", space, many1 (CharSet.except ":")])), space, ":", space,
    opt (seq ["#", restOfLine])]

/-- The pattern for headers, with its parts named. -/
theorem defLine_eq : defLine =
    seq (headFront ++ ([text "(", .group 3 flatBody, text ")"] ++
      (headBack ++ [.place Cursor.atLastEnd]))) :=
  rfl

/-- The return annotation `ret`, which may be missing, and the end of a definition line. -/
structure Concludes (ret after : Text) : Prop where
  returns : ret = [] ∨ ∃ s s' w, ret = s ++ ("->".toList ++ (s' ++ w)) ∧ s.all isBlank = true ∧
    s'.all isBlank = true ∧ w ≠ [] ∧ ':' ∉ w
  ends : ∃ s s' comment, after = ret ++ (s ++ ':' :: (s' ++ comment)) ∧ s.all isBlank = true ∧
    s'.all isBlank = true ∧ (comment = [] ∨ ∃ r, comment = '#' :: r ∧ '\n' ∉ r)

/-- The line begins a function: its parameters stand between the first parenthesis and the one that
closes it. -/
structure IsHeader (line before params after : Text) : Prop where
  eq : line = before ++ '(' :: (params ++ ')' :: after)
  front : ∃ e, Spells (seq headFront) [] before e
  flat : IsFlat params
  back : ∃ ret, Concludes ret after

/-- What comes behind the parameters is spelled by a part of the pattern. -/
theorem Concludes.exists_spells {ret after : Text} (h : Concludes ret after) (e : Groups) :
    ∃ e', Spells (seq headBack) e after e' := by
  obtain ⟨hret, s, s', comment, rfl, hs, hs', hcomment⟩ := h
  -- The colon and the comment are spelled alike with an annotation and without.
  have hrest (e : Groups) : Spells (seq [space, ":", space, opt (seq ["#", restOfLine])]) e
      (s ++ ':' :: (s' ++ comment)) e := by
    refine spells_run_then.mpr ⟨s, hs, Nat.zero_le _, _, rfl, spells_text_then.mpr ⟨_, rfl, ?_⟩⟩
    refine spells_run_then.mpr ⟨s', hs', Nat.zero_le _, comment, rfl, spells_opt.mpr ?_⟩
    rcases hcomment with rfl | ⟨r, rfl, hr⟩
    · exact .inr ⟨rfl, rfl⟩
    · refine .inl (spells_text_then.mpr ⟨r, rfl, all_except_iff.mpr ?_, Nat.zero_le _, rfl⟩)
      exact List.forall_mem_singleton.mpr hr
  rcases hret with rfl | ⟨t, t', w, rfl, ht, ht', hne, hw⟩
  · exact ⟨e, spells_seq.mpr ⟨[], e, .inr ⟨rfl, rfl⟩, _, rfl, hrest e⟩⟩
  · have hgroup : Spells (seq [space, "->", space, many1 (CharSet.except ":")]) e
        (t ++ ("->".toList ++ (t' ++ w))) e := by
      refine spells_run_then.mpr ⟨t, ht, Nat.zero_le _, _, rfl, spells_text_then.mpr ⟨_, rfl, ?_⟩⟩
      refine spells_run_then.mpr ⟨t', ht', Nat.zero_le _, w, rfl, all_except_iff.mpr ?_, ?_, rfl⟩
      · exact List.forall_mem_singleton.mpr hw
      · exact List.length_pos_of_ne_nil hne
    exact ⟨_, spells_seq.mpr ⟨_, _, .inl ⟨e, hgroup, rfl⟩, _, rfl, hrest _⟩⟩

/-- What the end of the pattern spells concludes a header, with the annotation that it remembers. -/
theorem exists_concludes {e e' : Groups} {after : Text} (h : Spells (seq headBack) e after e')
    (hfree : e.lookup 4 = none) :
    Concludes ((e'.lookup 4).getD []) after := by
  obtain ⟨ret, e₁, hret, w, rfl, hrest⟩ := spells_seq.mp h
  obtain ⟨s, hs, -, w, rfl, hrest₁⟩ := spells_run_then.mp hrest
  obtain ⟨w, rfl, hrest₂⟩ := spells_text_then.mp hrest₁
  obtain ⟨s', hs', -, comment, rfl, hrest₃⟩ := spells_run_then.mp hrest₂
  obtain rfl : e' = e₁ := hrest₃.groups_eq rfl
  have hcomment : comment = [] ∨ ∃ r, comment = '#' :: r ∧ '\n' ∉ r := by
    rcases spells_opt.mp hrest₃ with hcomment | ⟨rfl, -⟩
    · obtain ⟨r, rfl, hr, -⟩ := spells_text_then.mp hcomment
      exact .inr ⟨r, rfl, not_mem_of_all hr rfl⟩
    · exact .inl rfl
  -- The annotation is the only thing that is remembered here.
  have hlookup : (e'.lookup 4).getD [] = ret := by
    rcases spells_opt.mp hret with ⟨e₁, -, rfl⟩ | ⟨rfl, rfl⟩
    · rfl
    · rw [hfree]
      rfl
  rw [hlookup]
  refine ⟨?_, s, s', comment, rfl, hs, hs', hcomment⟩
  rcases spells_opt.mp hret with ⟨e₁, hbody, -⟩ | ⟨rfl, -⟩
  · obtain ⟨t, ht, -, w, rfl, hbody₁⟩ := spells_run_then.mp hbody
    obtain ⟨w, rfl, hbody₂⟩ := spells_text_then.mp hbody₁
    obtain ⟨t', ht', -, w, rfl, hw, hne, -⟩ := spells_run_then.mp hbody₂
    exact .inr ⟨t, t', w, rfl, ht, ht', List.ne_nil_of_length_pos hne, not_mem_of_all hw rfl⟩
  · exact .inl rfl

section

variable {line before params after : Text}

/-- There is one way to take a line apart: nothing in front of the parameters opens a parenthesis,
and nothing in them closes one that they do not open. -/
theorem IsHeader.unique {before' params' after' : Text} (h : IsHeader line before params after)
    (h' : IsHeader line before' params' after') :
    before = before' ∧ params = params' ∧ after = after' := by
  have hfront {before params after : Text} (h : IsHeader line before params after) :
      before.all (· != '(') = true := by
    obtain ⟨e, hspells⟩ := h.front
    rw [List.all_eq_true]
    rintro c hc
    rw [bne_iff_ne]
    rintro rfl
    exact hspells.not_mem (a := '(') (by decide) hc
  -- Flat parameters do not close what they have not opened, so neither list goes on behind the
  -- parenthesis of the other.
  have hlonger {params a after after' : Text} (hflat : IsFlat params)
      (hflat' : IsFlat (params ++ a)) (heq : ')' :: after = a ++ ')' :: after') : a = [] := by
    cases a with
    | nil => rfl
    | cons c a =>
      obtain rfl : ')' = c := (List.cons.inj heq).1
      rw [IsFlat, insideAfter?_append, hflat] at hflat'
      cases hflat'
  have heq : before ++ '(' :: (params ++ ')' :: after) =
      before' ++ '(' :: (params' ++ ')' :: after') := h.eq.symm.trans h'.eq
  obtain ⟨rfl, hrest⟩ := append_inj_of_all (hfront h) (hfront h') rfl rfl heq
  have hparams : params ++ ')' :: after = params' ++ ')' :: after' := (List.cons.inj hrest).2
  rcases List.append_eq_append_iff.mp hparams with ⟨a, rfl, ha⟩ | ⟨a, rfl, ha⟩
  · obtain rfl := hlonger h.flat h'.flat ha
    exact ⟨rfl, (List.append_nil _).symm, (List.cons.inj ha).2⟩
  · obtain rfl := hlonger h'.flat h.flat ha
    exact ⟨rfl, List.append_nil _, (List.cons.inj ha).2.symm⟩

/-- The pattern finds every header. -/
theorem IsHeader.exists_match (h : IsHeader line before params after) :
    ∃ m, defLine.matchStart? line = some m := by
  obtain ⟨heq, ⟨e, hfront⟩, hflat, ret, hback⟩ := h
  obtain ⟨c, hreads, hstop⟩ := Cursor.exists_reads (c := Cursor.start line)
    (u := before ++ ('(' :: (params ++ [')']) ++ after)) (r := []) (by simp [Cursor.start, heq])
  obtain ⟨c₁, hreads₁, hrest⟩ := hreads.split
  obtain ⟨c₂, hreads₂, hreads₃⟩ := hrest.split
  have hfront' : Spells (seq headFront) (textsOf []) before e := hfront
  obtain ⟨caps₁, htakes₁, -⟩ := exists_takes_of_spells rfl hreads₁ hfront'
  -- The three parts of the pattern are spelled one after the other, each behind the groups of the
  -- one before.
  have hmiddle : Spells (seq [text "(", .group 3 flatBody, text ")"]) (textsOf caps₁)
      ('(' :: (params ++ [')'])) ((3, params) :: textsOf caps₁) := by
    refine spells_text_then.mpr ⟨_, rfl, spells_group_then.mpr ?_⟩
    refine ⟨params, textsOf caps₁, ?_, [')'], rfl, ?_⟩
    · exact spells_flatBody_iff.mpr ⟨hflat, rfl⟩
    · exact spells_text.mpr ⟨rfl, rfl⟩
  obtain ⟨caps₂, htakes₂, -⟩ := exists_takes_of_spells rfl hreads₂ hmiddle
  obtain ⟨e', hspells⟩ := hback.exists_spells (textsOf caps₂)
  obtain ⟨caps₃, htakes₃, -⟩ := exists_takes_of_spells rfl hreads₃ hspells
  have hplace : Takes (seq [.place Cursor.atLastEnd]) c caps₃ c caps₃ := by
    refine ⟨?_, rfl, rfl⟩
    rw [Cursor.atLastEnd, hstop]
    rfl
  have htakes : Takes defLine (Cursor.start line) [] c caps₃ := by
    rw [defLine_eq]
    exact takes_seq_append.mpr ⟨c₁, caps₁, htakes₁, takes_seq_append.mpr ⟨c₂, caps₂, htakes₂,
      takes_seq_append.mpr ⟨c, caps₃, htakes₃, hplace⟩⟩⟩
  exact Option.isSome_iff_exists.mp (isSome_run?_of_takes htakes rfl)

/-- The groups of a definition line are its parts. -/
theorem exists_of_defLine {m : Match} (hline : '\n' ∉ line)
    (hm : defLine.matchStart? line = some m) :
    ∃ before after, IsHeader line before (m.group 3) after ∧ m.groupStart 3 = before.length + 1 ∧
      m.groupStop 3 = before.length + 1 + (m.group 3).length ∧ (m.group 1).all isIndent = true ∧
      Concludes (m.group 4) after := by
  obtain ⟨-, htakes⟩ := takes_of_matchAt? hm
  rw [defLine_eq] at htakes
  obtain ⟨c₁, caps₁, hfront, hrest⟩ := takes_seq_append.mp htakes
  obtain ⟨c₂, caps₂, ⟨d, caps, hopen, d', caps', hbody, hclose⟩, hrest'⟩ :=
    takes_seq_append.mp hrest
  obtain ⟨c₃, caps₃, hback, hlast, hstop, hgroups⟩ := takes_seq_append.mp hrest'
  -- The stretches that the parts pass over make up the line.
  obtain ⟨before, hbefore, hfront'⟩ := hfront.spells
  obtain ⟨hopen', rfl⟩ := takes_text_iff.mp hopen
  obtain ⟨caps₁', hflat, rfl⟩ := hbody
  obtain ⟨params, hparams, hflat'⟩ := hflat.spells
  obtain ⟨hclose', rfl⟩ := takes_text_iff.mp hclose
  obtain ⟨after, hafter, hback'⟩ := hback.spells
  have hreads := hbefore.trans (hopen'.trans (hparams.trans (hclose'.trans hafter)))
  have hline' : line = before ++ ("(".toList ++ (params ++ (")".toList ++ after))) ++ c₃.after :=
    hreads.after_eq
  have hend : c₃.after = [] := by
    cases hc : c₃.after with
    | nil => rfl
    | cons a r =>
      obtain ⟨rfl, rfl⟩ : a = '\n' ∧ r = [] := by simpa [Cursor.atLastEnd, hc] using hlast
      rw [hline', hc] at hline
      simp at hline
  rw [hend, List.append_nil] at hline'
  -- Each group is looked up behind the parts that do not have it.
  have hlookup {k : Nat} (hk : (seq headBack).lacks k = true) :
      m.groups.lookup k = ((3, (⟨d, d'⟩ : Capture)) :: caps₁').lookup k := by
    rw [hgroups, hback.lookup_eq hk]
  have hthird : m.groups.lookup 3 = some ⟨d, d'⟩ := hlookup rfl
  have hgroup : m.group 3 = params := Match.group_of_lookup hthird hparams
  have hfree : (textsOf ((3, (⟨d, d'⟩ : Capture)) :: caps₁')).lookup 4 = none := by
    rw [lookup_textsOf, List.lookup_cons, hflat.lookup_eq rfl, hfront.lookup_eq rfl]
    rfl
  have hconcludes : Concludes (m.group 4) after := by
    rw [group_eq, hgroups]
    exact exists_concludes hback' hfree
  have hmargin : (m.group 1).all isIndent = true := by
    obtain ⟨f, caps, ⟨caps₀, ⟨u, hu, -, hreads₁, rfl⟩, rfl⟩, hrest₁⟩ := hfront
    have hfirst : m.groups.lookup 1 = some ⟨Cursor.start line, f⟩ := by
      rw [hlookup rfl, List.lookup_cons, hflat.lookup_eq rfl, Takes.lookup_eq hrest₁ rfl]
      rfl
    rw [Match.group_of_lookup hfirst hreads₁]
    exact hu
  refine ⟨before, after, ⟨?_, ⟨_, hfront'⟩, ?_, _, hconcludes⟩, ?_, ?_, hmargin, hconcludes⟩
  · rw [hgroup]
    simpa using hline'
  · rw [hgroup]
    exact (spells_flatBody_iff.mp hflat').1
  · rw [Match.groupStart, hthird]
    exact (hbefore.trans hopen').pos_eq.trans (by simp [Cursor.start])
  · rw [Match.groupStop, hthird, hgroup]
    exact ((hbefore.trans hopen').trans hparams).pos_eq.trans (by simp [Cursor.start]; omega)

/-- The line around its parameters. -/
theorem IsHeader.around (h : IsHeader line before params after) :
    line.take (before.length + 1) = before ++ ['('] ∧
      line.drop (before.length + 1 + params.length) = ')' :: after := by
  have hfront : line = (before ++ ['(']) ++ (params ++ ')' :: after) := by simp [h.eq]
  have hback : line = (before ++ '(' :: params) ++ ')' :: after := by simp [h.eq]
  constructor
  · rw [hfront]
    exact List.take_left' (by simp)
  · rw [hback]
    exact List.drop_left' (by simp; omega)

/-- The same function with other parameters. -/
theorem IsHeader.withParams {params' : Text} (h : IsHeader line before params after)
    (hflat : IsFlat params') :
    IsHeader (before ++ '(' :: (params' ++ ')' :: after)) before params' after :=
  ⟨rfl, h.front, hflat, h.back⟩

/-- The line has a line feed only if its parameters have one. -/
theorem IsHeader.not_mem_withParams {params' : Text} (h : IsHeader line before params after)
    (hline : '\n' ∉ line) (hparams : '\n' ∉ params') :
    '\n' ∉ params ∧ '\n' ∉ before ++ '(' :: (params' ++ ')' :: after) := by
  rw [h.eq] at hline
  simp only [List.mem_append, List.mem_cons, not_or] at hline
  simp [hline, hparams]

/-- Pieces that are changed without their parentheses changing leave the whole as it is. -/
theorem insideAfter?_flatten_map {f : Text → Text} {ps : List Text}
    (hf : ∀ p ∈ ps, ∀ inside inside', insideAfter? inside p = some inside' →
      insideAfter? inside (f p) = some inside')
    {inside inside' : Bool} (hps : insideAfter? inside ps.flatten = some inside') :
    insideAfter? inside (ps.map f).flatten = some inside' := by
  induction ps generalizing inside with
  | nil => exact hps
  | cons p ps ih =>
    rw [List.forall_mem_cons] at hf
    rw [List.flatten_cons, insideAfter?_append] at hps
    obtain ⟨inside₁, hp, hrest⟩ := Option.bind_eq_some_iff.mp hps
    rw [List.map_cons, List.flatten_cons, insideAfter?_append, hf.1 _ _ hp]
    exact ih hf.2 hrest

/-- Parameters that keep the parentheses of those in their places are flat again. -/
theorem IsFlat.map_splitParams (h : IsFlat params) {f : Text → Text}
    (hf : ∀ p ∈ splitParams params, ∀ inside inside', insideAfter? inside p = some inside' →
      insideAfter? inside (f p) = some inside') :
    IsFlat (joinWith ", " ((splitParams params).map f)) := by
  have hflatten : insideAfter? false (splitParams params).flatten = some false := by
    have hblank : ∀ c, isBlank c = true → "()".toList.contains c = false := by
      intro c hc
      cases hparen : "()".toList.contains c with
      | false => rfl
      | true =>
        have hvisible : ∀ d ∈ "()".toList, isBlank d = false := by decide
        rw [hvisible c (List.contains_iff_mem.mp hparen)] at hc
        cases hc
    rw [← insideAfter?_filter, filter_flatten_splitParams (by decide) hblank, insideAfter?_filter]
    exact h
  rw [IsFlat, ← insideAfter?_filter, filter_joinWith (by decide), insideAfter?_filter]
  exact insideAfter?_flatten_map hf hflatten

/-- The texts of the parameters of the function that a line begins. -/
def paramTexts? (line : Text) : Option (List Text) :=
  (defLine.matchStart? line).map fun m => splitParams (m.group 3)

/-- The parameters of a header are read off it. -/
theorem IsHeader.paramTexts?_eq (h : IsHeader line before params after) (hline : '\n' ∉ line) :
    paramTexts? line = some (splitParams params) := by
  obtain ⟨m, hm⟩ := h.exists_match
  obtain ⟨before', after', hheader, -⟩ := exists_of_defLine hline hm
  rw [paramTexts?, hm, Option.map_some, (h.unique hheader).2.1]

end

/-! ### The reading of a parameter -/

/-- The brackets and quotes of an annotation. -/
def brackets : Nesting := ⟨"\"'", "([\x7b", ")]\x7d"⟩

/-- The text in front of the first equals sign outside brackets and quotes, and the one behind
it. -/
def cutDefault : Nesting.State → Text → Text × Option Text
  | _, [] => ([], none)
  | s, c :: r =>
    if s == .start && c == '=' then ([], some r)
    else
      let (hint, default?) := cutDefault (brackets.step s c) r
      (c :: hint, default?)

/-- A parameter: its name, with the stars in front of it, its annotation, which may be missing, and
its default. -/
structure Param where
  name : Text
  hint : Text
  default? : Option Text
  deriving DecidableEq

namespace Param

/-- The parameter that a text declares. -/
def ofText (p : Text) : Param :=
  let name := trim (p.takeWhile (CharSet.except ":="))
  match p.dropWhile (CharSet.except ":=") with
  | [] => ⟨name, [], none⟩
  | c :: r =>
    if c == '=' then ⟨name, [], some (trim r)⟩
    else
      let (hint, default?) := cutDefault .start r
      ⟨name, trim hint, default?.map trim⟩

/-- The name and the default. -/
def pair (p : Param) : Text × Option Text := (p.name, p.default?)

end Param

/-- The names and defaults of the parameters of the function that a line begins. -/
def signature? (line : Text) : Option (List (Text × Option Text)) :=
  (paramTexts? line).map fun ps => ps.map fun p => (Param.ofText p).pair

section

variable {u a r : Text}

/-- What stands in front of the first equals sign belongs to the name. -/
theorem cutDefault_append (hu : '=' ∉ u) (s : Nesting.State) (r : Text) :
    cutDefault s (u ++ r) =
      (u ++ (cutDefault (brackets.run s u) r).1, (cutDefault (brackets.run s u) r).2) := by
  induction u generalizing s with
  | nil => rfl
  | cons c u ih =>
    rw [List.mem_cons, not_or] at hu
    have hc : (c == '=') = false := beq_false_of_ne (Ne.symm hu.1)
    rw [List.cons_append, cutDefault, hc, Bool.and_false, if_neg Bool.false_ne_true, ih hu.2]
    rfl

/-- Without an equals sign there is no default. -/
theorem cutDefault_of_not_mem (hu : '=' ∉ u) (s : Nesting.State) :
    cutDefault s u = (u, none) := by
  have happend := cutDefault_append hu s []
  rwa [List.append_nil, cutDefault, List.append_nil] at happend

/-- The name of a parameter goes up to the first colon or equals sign. -/
theorem ofText_append (hu : u.all (CharSet.except ":=") = true)
    (hr : r.head?.all (fun c => !CharSet.except ":=" c) = true) :
    (u ++ r).takeWhile (CharSet.except ":=") = u ∧ (u ++ r).dropWhile (CharSet.except ":=") = r :=
  takeWhile_append_of_head (List.all_eq_true.mp hu) hr

/-- A parameter that is only a name. -/
theorem ofText_name (hu : u.all (CharSet.except ":=") = true) :
    Param.ofText u = ⟨trim u, [], none⟩ := by
  obtain ⟨hname, hrest⟩ := ofText_append (r := []) hu rfl
  rw [List.append_nil] at hname hrest
  rw [Param.ofText, hname, hrest]

/-- A parameter without annotation. -/
theorem ofText_equals (hu : u.all (CharSet.except ":=") = true) (d : Text) :
    Param.ofText (u ++ '=' :: d) = ⟨trim u, [], some (trim d)⟩ := by
  obtain ⟨hname, hrest⟩ := ofText_append (r := '=' :: d) hu rfl
  rw [Param.ofText, hname, hrest]
  rfl

/-- A parameter with an annotation. -/
theorem ofText_colon (hu : u.all (CharSet.except ":=") = true) (r : Text) :
    Param.ofText (u ++ ':' :: r) =
      ⟨trim u, trim (cutDefault .start r).1, (cutDefault .start r).2.map trim⟩ := by
  obtain ⟨hname, hrest⟩ := ofText_append (r := ':' :: r) hu rfl
  rw [Param.ofText, hname, hrest]
  rfl

/-- Its default is found if the annotation closes its brackets and quotes. -/
theorem ofText_closed (hu : u.all (CharSet.except ":=") = true) (ha : '=' ∉ a)
    (hclosed : brackets.run .start a = .start) (d : Text) :
    Param.ofText (u ++ ':' :: (a ++ '=' :: d)) = ⟨trim u, trim a, some (trim d)⟩ := by
  have hmark : cutDefault .start ('=' :: d) = ([], some d) := rfl
  rw [ofText_colon hu, cutDefault_append ha, hclosed, hmark, List.append_nil]
  rfl

/-- Otherwise it is taken for a part of the annotation. -/
theorem ofText_open (hu : u.all (CharSet.except ":=") = true) (ha : '=' ∉ a)
    (hopen : brackets.run .start a ≠ .start) {d : Text} (hd : '=' ∉ d) :
    (Param.ofText (u ++ ':' :: (a ++ '=' :: d))).pair = (trim u, none) := by
  have hmark : (brackets.run .start a == .start) = false := beq_false_of_ne hopen
  rw [ofText_colon hu, cutDefault_append ha, cutDefault, hmark, cutDefault_of_not_mem hd]
  rfl

end

end CodeTidy.Python
