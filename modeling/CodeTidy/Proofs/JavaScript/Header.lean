import CodeTidy.JavaScript.Table
import CodeTidy.Proofs.Rule.Header
import CodeTidy.Proofs.Rule.Phrase
import CodeTidy.Proofs.Text.Pieces

/-!
# `CodeTidy.Proofs.JavaScript.Header`: comments on arrow functions

The comment on an arrow function is made from the texts of its parameters, and these
may hold anything but parentheses. What keeps a declaration from being found in a
comment, or from running over one, is that a declaration has an equals sign behind its
name, and a comment holds none. The theorems:

* `exists_of_arrowHead`: what a declaration is made of.
* `exists_of_header`: what a comment begins with, and what it does not hold.
* `IsArrow.behind_slash`: what follows a slash in a declaration, and with that what would
  have to follow a comment in it.
* `lawful_docRule`: the rule finds its declarations again.
-/

set_option autoImplicit false

namespace CodeTidy

open Pattern Text

namespace JavaScript

/-- The lines of the comment on a function. -/
def docLines (m : Match) : List Text :=
  (m.group 1 ++ " * " ++ humanize (m.group 3) ++ ".") ::
    (splitParams (m.group 4)).map
      (fun p => m.group 1 ++ " * @param \x7b*\x7d " ++ documentedParam p)

/-- The rule for comments on arrow functions. -/
def docRule : HeaderRule where
  name := "jsdoc_header"
  table := rules
  pattern := arrowDeclaration
  rewrite := withDoc
  isRule := by simp [rules]
  header m := docComment (m.group 1) (docLines m)
  mark := "*/"

/-- The parts of a declaration: up to the name, up to the parameters, the parameters, and up to the
arrow. -/
def arrowName : List Pattern :=
  [opt (seq ["export", space1]), "const", space1, .group 3 name, space]

/-- The equals sign, and perhaps the keyword of an asynchronous function. -/
def arrowKeyword : List Pattern := ["=", space, opt (seq ["async", space1])]

/-- The parameters in their parentheses. -/
def arrowParams : List Pattern := ["(", .group 4 (many (CharSet.except "()")), ")"]

/-- The type of the result, if one is written. -/
def arrowType : List Pattern :=
  [opt (seq [space, ":", space, few1 (CharSet.except "=;\x7b\x7d()")]), space]

/-- The arrow. -/
def arrowEnd : List Pattern := ["=>"]

/-- The declaration without the condition on its place: `arrowDeclaration` is this at the start of a
line. -/
def arrowHead : Pattern :=
  seq [.group 1 indent,
    .group 2 (seq (arrowName ++ (arrowKeyword ++ (arrowParams ++ (arrowType ++ arrowEnd)))))]

/-- What a declaration is made of. -/
structure IsArrow (u i name params : Text) : Prop where
  exists_parts : ∃ head mid type,
    u = head ++ '=' :: (mid ++ '(' :: (params ++ ')' :: (type ++ "=>".toList))) ∧
      head.all (CharSet.except "/=()") = true ∧ mid.all (CharSet.except "/=()>") = true ∧
      type.all (CharSet.except "=") = true
  indent : i.all isIndent = true
  name : name.all (CharSet.except "=()") = true
  params : params.all (CharSet.except "()") = true

/-- What the pattern spells is a declaration, and it remembers its parts. -/
theorem exists_of_arrowHead {u : Text} {e : Groups} (h : Spells arrowHead [] u e) :
    ∃ i n params w, e = [(2, w), (4, params), (3, n), (1, i)] ∧ IsArrow u i n params := by
  simp only [arrowHead, spells_group_then, spells_seq_one, spells_group, indent, many,
    spells_run, spells_seq_append] at h
  obtain ⟨i, _, ⟨hi, -, rfl⟩, w, rfl, _, ⟨a, _, _, hname, ⟨b, _, _, hkeyword, ⟨c, _, _, hparams,
    ⟨d, _, _, htype, harrow, rfl⟩, rfl⟩, rfl⟩, rfl⟩, rfl⟩ := h
  obtain ⟨rfl, rfl⟩ := spells_text.mp harrow
  obtain rfl := htype.groups_eq (by decide)
  -- The parts hold no slash and no equals sign but where they are written.
  have hfront : a.all (CharSet.except "/=()") = true := hname.all_except (by decide)
  obtain ⟨v, _, hexport, y, -, hrest⟩ := spells_seq.mp hname
  obtain rfl := hexport.groups_eq (by decide)
  simp only [spells_text_then, space1, many1, spells_run_then, spells_group_then, spells_seq_one,
    space, many, spells_run] at hrest
  obtain ⟨_, rfl, s, -, -, _, rfl, n, _, hn, _, rfl, -, -, rfl⟩ := hrest
  obtain rfl := hn.groups_eq (by decide)
  obtain ⟨mid, rfl, hmid⟩ := spells_text_then.mp hkeyword
  obtain rfl := hmid.groups_eq (by decide)
  simp only [arrowParams, spells_text_then, spells_group_then, many, spells_run, spells_seq_one,
    spells_text] at hparams
  obtain ⟨_, rfl, params, _, ⟨hparams, -, rfl⟩, _, rfl, rfl, rfl⟩ := hparams
  refine ⟨i, n, params, _, rfl, ⟨⟨i ++ a, mid, d, ?_, ?_, hmid.all_except (by decide),
    htype.all_except (by decide)⟩, hi, hn.all_except (by decide), hparams⟩⟩
  · simp
  · rw [List.all_append, hfront, all_except_of_all hi (by decide)]
    rfl

/-- What is documented of a parameter is a part of it in front of the equals sign, or a word. -/
theorem not_mem_documentedParam {p : Text} {a : Char} (ha : a ∉ "options".toList)
    (h : a = '=' ∨ a ∉ p) : a ∉ documentedParam p := by
  have hfront : a ∉ p.takeWhile (fun c => c != '=' && c != ':') := by
    intro hmem
    rcases h with rfl | hp
    · simpa using List.mem_takeWhile_imp hmem
    · exact hp ((List.takeWhile_prefix _).subset hmem)
  simp only [documentedParam]
  split
  · exact ha
  · intro hmem
    exact hfront (trim_subset _ ((List.dropWhile_suffix _).subset hmem))

/-- A comment begins at the margin and holds neither equals signs nor parentheses. -/
theorem exists_of_header {c : Cursor} {m : Match} (hm : docRule.pattern.matchAt? c = some m) :
    ∃ i name params, IsArrow m.text i name params ∧
      (∃ rest, docRule.header m = i ++ '/' :: rest) ∧
        (docRule.header m).all (CharSet.except "=()") = true := by
  obtain ⟨i, n, params, w, hgroups, harrow⟩ := exists_of_arrowHead (spells_of_match hm)
  have hindent : m.group 1 = i := by rw [group_eq, hgroups]; rfl
  have hname : m.group 3 = n := by rw [group_eq, hgroups]; rfl
  have hparams : m.group 4 = params := by rw [group_eq, hgroups]; rfl
  have hheader : docRule.header m = docComment i (docLines m) := by rw [← hindent]; rfl
  refine ⟨i, n, params, harrow, ⟨_, hheader.trans (docComment_eq i _)⟩, all_except_iff.mpr ?_⟩
  intro a ha
  -- None of the three is a part of a name, or of the words of the comment. A default may stand in a
  -- parameter, and it is cut off.
  have hmark : ∀ a ∈ "=()".toList, isAsciiMark a = true ∧ isIndent a = false ∧
      a ∉ "/* \n".toList ∧ a ∉ "options".toList ∧ a ∉ " * ".toList ∧ a ∉ ".".toList ∧
      a ∉ " * @param \x7b*\x7d ".toList := by decide
  obtain ⟨hascii, hindent', hsigns, hoptions, hstar, hdot, htag⟩ := hmark a ha
  have hmargin : a ∉ i := not_mem_of_all harrow.indent hindent'
  have hspace : a ≠ ' ' := fun h => hstar (h ▸ .head _)
  have hwords : a ∉ humanize n := fun hmem =>
    all_except_iff.mp harrow.name a ha (mem_of_mem_humanize hascii hspace hmem)
  rw [hheader]
  refine not_mem_docComment hsigns hmargin (List.forall_mem_cons.mpr ⟨?_, ?_⟩)
  · rw [hindent, hname]
    exact List.not_mem_append (List.not_mem_append (List.not_mem_append hmargin hstar) hwords) hdot
  · intro l hl
    obtain ⟨p, hp, rfl⟩ := List.mem_map.mp hl
    rw [hparams] at hp
    have hparam : a = '=' ∨ a ∉ p := by
      rcases List.mem_cons.mp ha with rfl | ha
      · exact .inl rfl
      · exact .inr fun hmem =>
          all_except_iff.mp harrow.params a ha (subset_of_mem_splitParams hp hmem)
    rw [hindent]
    exact List.not_mem_append (List.not_mem_append hmargin htag)
      (not_mem_documentedParam hoptions hparam)

/-- A declaration ends with the head of its arrow. -/
theorem IsArrow.getLast?_eq {u i name params : Text} (h : IsArrow u i name params) :
    u.getLast? = some '>' := by
  obtain ⟨head, mid, type, rfl, -⟩ := h.exists_parts
  simp [List.getLast?_cons]

/-- Behind a slash in a declaration, which is one in the parameters or in the type, a parenthesis
closes or the arrow follows. -/
theorem IsArrow.behind_slash {u i name params y w : Text} (h : IsArrow u i name params)
    (hu : u = y ++ '/' :: w) :
    (∃ b r, w = b ++ ')' :: r ∧ b.all (CharSet.except "()") = true) ∨
      ∃ b, w = b ++ "=>".toList ∧ b.all (CharSet.except "=") = true := by
  obtain ⟨head, mid, type, hparts, hhead, hmid, htype⟩ := h.exists_parts
  -- In front of the parameters there is no slash.
  have hfront : '/' ∉ head ++ '=' :: (mid ++ ['(']) := by
    have hhead' := all_except_iff.mp hhead '/' (by decide)
    have hmid' := all_except_iff.mp hmid '/' (by decide)
    simp [hhead', hmid']
  have hsplit : head ++ '=' :: (mid ++ ['(']) ++ (params ++ ')' :: (type ++ "=>".toList)) =
      y ++ '/' :: w := by
    rw [← hu, hparts]
    simp
  obtain ⟨y', -, hrest⟩ := exists_rest_of_not_mem hfront hsplit
  rcases List.append_eq_append_iff.mp hrest with ⟨x, -, hx⟩ | ⟨x, hparams, hx⟩
  · -- The slash is in the type, or else in the arrow.
    right
    cases x with
    | nil => cases hx
    | cons a x =>
      obtain ⟨-, hx⟩ := List.cons.inj hx
      rcases List.append_eq_append_iff.mp hx with ⟨x', -, hx'⟩ | ⟨x', htype', hx'⟩
      · have hmem : '/' ∈ "=>".toList := by
          rw [hx']
          exact List.mem_append_right _ (.head _)
        exact absurd hmem (by decide)
      · cases x' with
        | nil => cases hx'
        | cons a x' =>
          obtain ⟨-, rfl⟩ := List.cons.inj hx'
          refine ⟨x', rfl, ?_⟩
          rw [htype', List.all_append, List.all_cons, Bool.and_eq_true, Bool.and_eq_true] at htype
          exact htype.2.2
  · left
    cases x with
    | nil => cases hx
    | cons a x =>
      obtain ⟨-, rfl⟩ := List.cons.inj hx
      refine ⟨x, _, rfl, ?_⟩
      have hall := h.params
      rw [hparams, List.all_append, List.all_cons, Bool.and_eq_true, Bool.and_eq_true] at hall
      exact hall.2.2

/-- A text begins with one declaration at most. -/
theorem eq_of_arrowHead {u u' s s' : Text} {e e' : Groups} (h : Spells arrowHead [] u e)
    (h' : Spells arrowHead [] u' e') (heq : u ++ s = u' ++ s') : u = u' := by
  obtain ⟨-, -, params, -, -, ⟨head, mid, type, rfl, hhead, hmid, htype⟩, -, -, hparams⟩ :=
    exists_of_arrowHead h
  obtain ⟨-, -, params', -, -, ⟨head', mid', type', rfl, hhead', hmid', htype'⟩, -, -, hparams'⟩ :=
    exists_of_arrowHead h'
  -- Each part ends at the first sign of its kind.
  simp only [List.append_assoc, List.cons_append] at heq
  obtain ⟨rfl, -, heq⟩ := eq_of_first hhead hhead' (by decide) (by decide) heq
  obtain ⟨rfl, -, heq⟩ := eq_of_first hmid hmid' (by decide) (by decide) heq
  obtain ⟨rfl, -, heq⟩ := eq_of_first hparams hparams' (by decide) (by decide) heq
  obtain ⟨rfl, -, -⟩ := eq_of_first htype htype' (by decide) (by decide) heq
  rfl

/-- No declaration runs from a slash over the rest of a comment into the next declaration. -/
theorem IsArrow.not_runs_over {t u i i' name name' params params' y w rest s z : Text}
    (h : IsArrow u i name params) (h' : IsArrow t i' name' params') (hu : u = y ++ '/' :: w)
    (hplain : rest.all (CharSet.except "=()") = true)
    (heq : w ++ s = rest ++ '\n' :: (t ++ z)) : False := by
  obtain ⟨head, mid, type, htext, hhead, hmid, -⟩ := h'.exists_parts
  rcases h.behind_slash hu with ⟨b, r, rfl, hb⟩ | ⟨b, rfl, hb⟩
  · -- The next parenthesis is the one in front of the parameters.
    have hall : (rest ++ '\n' :: (head ++ '=' :: mid)).all (CharSet.except "()") = true := by
      rw [List.all_append, List.all_cons, List.all_append, List.all_cons,
        all_except_mono hplain (by decide), all_except_mono hhead (by decide),
        all_except_mono hmid (by decide)]
      rfl
    have hnext : b ++ ')' :: (r ++ s) = (rest ++ '\n' :: (head ++ '=' :: mid)) ++
        '(' :: (params' ++ ')' :: (type ++ "=>".toList) ++ z) := by
      simpa [htext] using heq
    have hparen := (eq_of_first hb hall (by decide) (by decide) hnext).2.1
    exact absurd hparen (by decide)
  · -- The next equals sign is the one behind the name.
    have hall : (rest ++ '\n' :: head).all (CharSet.except "=") = true := by
      rw [List.all_append, List.all_cons, all_except_mono hplain (by decide),
        all_except_mono hhead (by decide)]
      rfl
    have hnext : b ++ '=' :: ('>' :: s) = (rest ++ '\n' :: head) ++
        '=' :: (mid ++ '(' :: (params' ++ ')' :: (type ++ "=>".toList) ++ z)) := by
      simpa [htext] using heq
    have harrow := (eq_of_first hb hall (by decide) (by decide) hnext).2.2
    cases mid with
    | nil => exact absurd (List.cons.inj harrow).1 (by decide)
    | cons a mid =>
      obtain ⟨rfl, -⟩ := List.cons.inj harrow
      exact absurd (.head _) (all_except_iff.mp hmid '>' (by decide))

/-- The rule for comments on arrow functions finds its declarations again. -/
theorem lawful_docRule : docRule.Lawful (fun u => ∃ e, Spells arrowHead [] u e) '>' where
  solid := isSolid_spec (by decide)
  takes_iff := takes_lineStart_iff (by decide)
  unique := by
    rintro u u' s s' ⟨e, h⟩ ⟨e', h'⟩ heq
    exact eq_of_arrowHead h h' heq
  ends := by
    rintro u ⟨e, h⟩
    obtain ⟨_, _, _, _, -, harrow⟩ := exists_of_arrowHead h
    exact harrow.getLast?_eq
  isBlank_last := by decide
  last_not_mem := by decide
  isBlank_mark := by decide
  rewrite_eq := by
    intro c m hm
    show withDoc m = if _ then m.text else docComment (m.group 1) (docLines m) ++ '\n' :: m.text
    rw [withDoc]
    refine if_congr Iff.rfl rfl ?_
    show docComment (m.group 1) (docLines m) ++ ['\n'] ++ m.text = _
    rw [List.append_assoc]
    rfl
  header_ends := fun _ => suffix_docComment _ _
  passes := by
    rintro c m u g s z hm ⟨e, h⟩ - heq
    obtain ⟨i, n, params, harrow, ⟨rest, hheader⟩, hplain⟩ := exists_of_header hm
    obtain ⟨_, _, _, _, -, harrow'⟩ := exists_of_arrowHead h
    rw [hheader, List.all_append, List.all_cons, Bool.and_eq_true, Bool.and_eq_true] at hplain
    rw [hheader, List.append_assoc] at heq
    rcases prefix_or_eq harrow'.getLast?_eq (by decide) harrow.indent heq with
      hprefix | ⟨w, hw, hrest⟩
    · exact hprefix
    · rw [← List.append_assoc] at hw
      exact (harrow'.not_runs_over harrow hw hplain.2.2 (by simpa using hrest)).elim
  inside := by
    rintro c m u v w s z hm ⟨e, h⟩ hheader hv hw heq
    obtain ⟨i, n, params, harrow, -, hplain⟩ := exists_of_header hm
    obtain ⟨head, mid, type, htext, hhead, -⟩ := harrow.exists_parts
    obtain ⟨_, _, _, _, -, ⟨head', mid', type', rfl, hhead', -⟩, -⟩ := exists_of_arrowHead h
    have hslash := slash_mem_rest hheader (suffix_docComment _ _) hv hw
    have hplain' : '=' ∉ docRule.header m ++ ['\n'] :=
      List.not_mem_append (all_except_iff.mp hplain '=' (by decide)) (by decide)
    rw [htext] at heq
    exact ne_of_slash_mem hheader hplain' hslash (all_except_iff.mp hhead '=' (by decide))
      (all_except_mono hhead' (by decide)) heq

end JavaScript

end CodeTidy
