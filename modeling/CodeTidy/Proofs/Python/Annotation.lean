import CodeTidy.Proofs.Python.Hints
import CodeTidy.Proofs.Rule.Phrase
import CodeTidy.Python.Docstring

/-!
# `CodeTidy.Proofs.Python.Annotation`: annotating twice is annotating once

A pass that adds what is missing has to see, when it runs again, that it is there. The line of a
function with annotations is read as such a line again, with its parameters and its annotation. A
docstring is recognised by its first line. What its lines hold comes from any names, but none of
them reads as the line of a definition: those that do not begin with a quote or the word `Args`
have one colon, and behind it a capital comes where the line begins with a small letter. The
theorems:

* `isHead_of_header`, `not_isHead_paramLine`: what the lines of definitions have in common, and no
  line of a docstring has.
* `missingDocstring_documented`: a definition that has got its docstring needs none.
* `documentLines_documentLines`, `sublist_documentLines`: docstrings are added once, and nothing but
  lines is put in.
* `annotateLine_annotateLine`: annotations are added once.
* `annotating_idempotent`: both passes, on any text.
-/

set_option autoImplicit false

namespace CodeTidy.Python

open Pattern Text

/-! ### Lines that begin a definition -/

/-- The line could begin a definition: a small letter comes behind its indentation, and it ends in a
colon, behind which there may be a comment. -/
def IsHead (l : Text) : Prop :=
  ∃ s c x s' comment, l = s ++ c :: (x ++ ':' :: (s' ++ comment)) ∧ s.all isIndent = true ∧
    c ∈ "acd".toList ∧ s'.all isBlank = true ∧ (comment = [] ∨ comment.head? = some '#')

/-- What a definition line ends in. -/
theorem exists_of_headEnd {c c' : Cursor} {caps caps' : Captures}
    (h : Takes headEnd c caps c' caps') :
    ∃ s s' comment, c.after = s ++ ':' :: (s' ++ comment) ∧ s'.all isBlank = true ∧
      (comment = [] ∨ comment.head? = some '#') := by
  have hparts : headEnd =
      seq ([space, text ":", space, opt (seq ["#", restOfLine])] ++ [.place Cursor.atLastEnd]) :=
    rfl
  rw [hparts] at h
  obtain ⟨c₁, caps₁, htakes, hlast, rfl, -⟩ := takes_seq_append.mp h
  obtain ⟨u, hu, hspells⟩ := htakes.spells
  obtain ⟨s, -, -, w, rfl, hspells₁⟩ := spells_run_then.mp hspells
  obtain ⟨w, rfl, hspells₂⟩ := spells_text_then.mp hspells₁
  obtain ⟨s', hs', -, comment, rfl, hspells₃⟩ := spells_run_then.mp hspells₂
  -- A line feed behind the colon counts as white space, and one behind the comment as part of it.
  have hend : c'.after.all isBlank = true := by
    cases hc : c'.after with
    | nil => rfl
    | cons a r =>
      obtain ⟨rfl, rfl⟩ : a = '\n' ∧ r = [] := by simpa [Cursor.atLastEnd, hc] using hlast
      rfl
  have hafter : c.after = s ++ ':' :: (s' ++ comment ++ c'.after) := by
    rw [hu.after_eq]
    simp
  rcases spells_opt.mp hspells₃ with hcomment | ⟨rfl, -⟩
  · obtain ⟨r, rfl, -⟩ := spells_text_then.mp hcomment
    exact ⟨s, s', _, by rw [hafter, List.append_assoc], hs', .inr rfl⟩
  · refine ⟨s, s' ++ c'.after, [], by rw [hafter, List.append_nil, List.append_nil], ?_, .inl rfl⟩
    rw [List.all_append, hs', hend]
    rfl

/-- Any pattern of the form of the patterns for functions and classes. -/
theorem isHead_of_matchStart? (ps : List Pattern) {l : Text} {m : Match}
    (hps : ∀ e u e', Spells (seq ps) e u e' →
      ∃ s c x, u = s ++ c :: x ∧ s.all isIndent = true ∧ c ∈ "acd".toList)
    (h : (seq (ps ++ [headEnd])).matchStart? l = some m) : IsHead l := by
  obtain ⟨-, htakes⟩ := takes_of_matchAt? h
  obtain ⟨c, caps, hfront, hend⟩ := takes_seq_append.mp htakes
  obtain ⟨u, hu, hspells⟩ := hfront.spells
  obtain ⟨s, a, x, rfl, hs, ha⟩ := hps _ _ _ hspells
  obtain ⟨w, s', comment, hafter, hs', hcomment⟩ := exists_of_headEnd hend
  refine ⟨s, a, x ++ w, s', comment, ?_, hs, ha, hs', hcomment⟩
  have hl : l = s ++ a :: x ++ c.after := hu.after_eq
  rw [hl, hafter]
  simp

/-- What begins a function or a class. -/
theorem isHead_of_header {l : Text} {m : Match}
    (h : (defLine.matchStart? l).or (classLine.matchStart? l) = some m) : IsHead l := by
  -- A function is looked for first, and a class then.
  have hmatch : defLine.matchStart? l = some m ∨ classLine.matchStart? l = some m := by
    cases hdef : defLine.matchStart? l with
    | none =>
      rw [hdef] at h
      exact .inr h
    | some m' =>
      rw [hdef] at h
      exact .inl h
  rcases hmatch with hm | hm
  · refine isHead_of_matchStart? (headFront ++ [text "(", .group 3 flatBody, text ")",
      opt (.group 4 (seq [space, "->", space, many1 (CharSet.except ":")]))])
        (fun e u e' hu => ?_) hm
    obtain ⟨s, e₁, ⟨hs, -, -⟩, w, rfl, hrest⟩ := spells_group_then.mp hu
    obtain ⟨v, e₂, hopt, w, rfl, hrest₁⟩ := spells_seq.mp hrest
    rcases spells_opt.mp hopt with hasync | ⟨rfl, -⟩
    · obtain ⟨v, rfl, -⟩ := spells_text_then.mp hasync
      exact ⟨s, 'a', _, rfl, hs, by decide⟩
    · obtain ⟨w, rfl, -⟩ := spells_text_then.mp hrest₁
      exact ⟨s, 'd', _, rfl, hs, by decide⟩
  · refine isHead_of_matchStart? [.group 1 indent, text "class", space1, .group 2 word, space,
      opt (seq ["(", many (CharSet.except "()"), ")"])] (fun e u e' hu => ?_) hm
    obtain ⟨s, e₁, ⟨hs, -, -⟩, w, rfl, hrest⟩ := spells_group_then.mp hu
    obtain ⟨w, rfl, -⟩ := spells_text_then.mp hrest
    exact ⟨s, 'c', _, rfl, hs, by decide⟩

/-- The letters that a header begins with are no indentation, and their capitals neither. -/
theorem headLetters_spec {c : Char} (hc : c ∈ "acd".toList) :
    isIndent c = false ∧ isBlank c = false ∧ c.isLower = true ∧ isBlank c.toUpper = false ∧
      c.toUpper ≠ '#' := by
  revert c
  decide

/-- A line that does not begin with such a letter is no header. -/
theorem not_isHead {margin r : Text} {c : Char} (hmargin : margin.all isIndent = true)
    (hc : isIndent c = false) (hnone : c ∉ "acd".toList) : ¬IsHead (margin ++ c :: r) := by
  rintro ⟨s, a, x, s', comment, heq, hs, ha, -⟩
  have hhead {a : Char} (ha : isIndent a = false) (r : Text) :
      (a :: r).head?.all (fun c => !isIndent c) = true := by
    rw [List.head?_cons, Option.all_some, ha]
    rfl
  obtain ⟨-, hrest⟩ :=
    append_inj_of_all hmargin hs (hhead hc r) (hhead (headLetters_spec ha).1 _) heq
  exact hnone ((List.cons.inj hrest).1 ▸ ha)

/-- A blank line is no definition. -/
theorem not_isHead_of_allBlank {l : Text} (h : allBlank l = true) : ¬IsHead l := by
  rintro ⟨s, c, x, s', comment, rfl, -, hc, -⟩
  have hblank := List.all_eq_true.mp h c (List.mem_append_right s List.mem_cons_self)
  rw [(headLetters_spec hc).2.1] at hblank
  cases hblank

/-! ### The lines of a docstring -/

/-- Only definitions miss a docstring. -/
theorem missingDocstring_of_not_isHead {l : Text} (h : ¬IsHead l) (ls : List Text) :
    missingDocstring l ls = [] := by
  rw [missingDocstring]
  split
  · rfl
  · next m hm => exact absurd (isHead_of_header hm) h

/-- A parameter that is documented has a name, without a colon, which the parameter holds. -/
theorem documentedParam?_spec {p n : Text} (h : documentedParam? p = some n) :
    n ⊆ p ∧ ':' ∉ n ∧ n ≠ [] := by
  rw [documentedParam?] at h
  split at h
  · cases h
  · next hname =>
    obtain rfl := Option.some.inj h
    rw [Bool.or_eq_true, not_or, List.isEmpty_iff] at hname
    have hsub : (trim (p.takeWhile fun c => c != ':' && c != '=')).dropWhile (· == '*') ⊆
        p.takeWhile fun c => c != ':' && c != '=' :=
      List.Subset.trans (List.dropWhile_sublist _).subset (trim_subset _)
    refine ⟨List.Subset.trans hsub (List.takeWhile_sublist _).subset, fun hmem => ?_, hname.1⟩
    have hcolon := List.mem_takeWhile_imp (hsub hmem)
    cases hcolon

/-- The line of a parameter. -/
def paramLine (margin n : Text) : Text := margin ++ "    " ++ n ++ ": " ++ humanize n ++ "."

/-- The line of a parameter has one colon, and what comes behind it begins with a capital where the
name begins with a small letter. -/
theorem not_isHead_paramLine {margin n : Text} (hmargin : margin.all isIndent = true)
    (hn : ':' ∉ n) : ¬IsHead (paramLine margin n) := by
  rintro ⟨s, c, x, s', comment, heq, hs, hc, hs', hcomment⟩
  obtain ⟨hindent, -, hlower, hblank, hmark⟩ := headLetters_spec hc
  have hwide : (margin ++ "    ".toList).all isIndent = true := by
    rw [List.all_append, hmargin]
    rfl
  have hcolon : ':' ∉ humanize n := fun hmem =>
    hn (mem_of_mem_humanize (by decide) (by decide) hmem)
  -- The colon that ends the header is the one behind the name.
  have hline : ((margin ++ "    ".toList) ++ n) ++ ':' :: (' ' :: (humanize n ++ ".".toList)) =
      (s ++ c :: x) ++ ':' :: (s' ++ comment) := by
    have hparts : paramLine margin n =
        ((margin ++ "    ".toList) ++ n) ++ ':' :: (' ' :: (humanize n ++ ".".toList)) := by
      simp [paramLine]
    rw [← hparts, heq]
    simp
  have hfront : ':' ∉ (margin ++ "    ".toList) ++ n := by
    rw [List.mem_append, not_or]
    exact ⟨not_mem_of_all hwide (by decide), hn⟩
  have hback : ':' ∉ ' ' :: (humanize n ++ ".".toList) := by simp [hcolon]
  obtain ⟨b, hb, hb'⟩ := exists_of_append_eq hfront hline
  obtain rfl : b = [] := by
    cases b with
    | nil => rfl
    | cons d b =>
      obtain ⟨-, hrest⟩ := List.cons.inj hb'
      exact absurd (hrest ▸ List.mem_append_right b List.mem_cons_self) hback
  rw [List.append_nil] at hb
  have hbehind : ' ' :: (humanize n ++ ".".toList) = s' ++ comment := (List.cons.inj hb').2
  -- The name begins with the letter of the header.
  obtain ⟨s₂, hs₂, hname⟩ : ∃ s₂, s₂.all isIndent = true ∧ n = s₂ ++ c :: x := by
    rcases List.append_eq_append_iff.mp hb with ⟨a, ha, hna⟩ | ⟨a, rfl, ha⟩
    · cases a with
      | nil => exact ⟨[], rfl, hna.symm⟩
      | cons d a =>
        obtain rfl := (List.cons.inj hna).1
        have hd := List.all_eq_true.mp hwide c (ha ▸ List.mem_append_right s List.mem_cons_self)
        rw [hindent] at hd
        cases hd
    · rw [List.all_append, Bool.and_eq_true] at hs
      exact ⟨a, hs.2, ha⟩
  obtain ⟨r, hr⟩ := humanize_letter (all_isBlank_of_isIndent hs₂) hlower x
  rw [hname, hr] at hbehind
  rcases s' with _ | ⟨d, s'⟩
  · rcases hcomment with rfl | hcomment
    · cases hbehind
    · rw [List.nil_append] at hbehind
      rw [← hbehind] at hcomment
      cases hcomment
  · obtain ⟨-, hrest⟩ := List.cons.inj hbehind
    rcases s' with _ | ⟨d, s'⟩
    · have hcomment' : c.toUpper :: (r ++ ".".toList) = comment := hrest
      rcases hcomment with rfl | hcomment
      · cases hcomment'
      · rw [← hcomment'] at hcomment
        exact hmark (Option.some.inj hcomment)
    · obtain ⟨rfl, -⟩ := List.cons.inj hrest
      rw [List.all_cons, List.all_cons, hblank] at hs'
      simp at hs'

/-- The lines of a docstring: one with quotes, an empty one, the heading of the parameters and a
line for each of them. -/
theorem mem_docstringLines {margin name params d : Text}
    (h : d ∈ docstringLines margin name params) :
    (∃ r, d = margin ++ '"' :: r) ∨ d = [] ∨ d = margin ++ 'A' :: "rgs:".toList ∨
      ∃ n, ':' ∉ n ∧ d = paramLine margin n := by
  rw [docstringLines] at h
  split at h
  · obtain rfl := List.mem_singleton.mp h
    exact .inl ⟨_, (List.append_assoc (margin ++ _) _ _).trans (List.append_assoc _ _ _)⟩
  · simp only [List.mem_append, List.mem_cons, List.mem_map, List.not_mem_nil, or_false] at h
    rcases h with ((rfl | rfl | rfl) | ⟨n, hn, rfl⟩) | rfl
    · exact .inl ⟨_, List.append_assoc _ _ _⟩
    · exact .inr (.inl rfl)
    · exact .inr (.inr (.inl rfl))
    · obtain ⟨p, -, hp⟩ := List.mem_filterMap.mp hn
      exact .inr (.inr (.inr ⟨n, (documentedParam?_spec hp).2.1, rfl⟩))
    · exact .inl ⟨_, rfl⟩

/-- No line of a docstring is a header. -/
theorem not_isHead_of_mem_docstringLines {margin name params d : Text}
    (hmargin : margin.all isIndent = true) (h : d ∈ docstringLines margin name params) :
    ¬IsHead d := by
  rcases mem_docstringLines h with ⟨r, rfl⟩ | rfl | rfl | ⟨n, hn, rfl⟩
  · exact not_isHead hmargin (by decide) (by decide)
  · exact not_isHead_of_allBlank rfl
  · exact not_isHead hmargin (by decide) (by decide)
  · exact not_isHead_paramLine hmargin hn

/-- The first line opens the docstring. -/
theorem exists_docstringLines_cons {margin : Text} (hmargin : margin.all isIndent = true)
    (name params : Text) : ∃ d ds, docstringLines margin name params = d :: ds ∧
      allBlank d = false ∧ docstringStart.isStart d = true := by
  -- Whatever comes behind the quotes, the line opens a docstring.
  have hopens (r : Text) : allBlank (margin ++ ("\"\"\"".toList ++ r)) = false ∧
      docstringStart.isStart (margin ++ ("\"\"\"".toList ++ r)) = true := by
    constructor
    · rw [allBlank, List.all_append]
      exact Bool.and_false _
    · refine (isStart_iff_spells (by rfl)).mpr ⟨margin ++ "\"\"\"".toList, r,
        [(1, "\"\"\"".toList)], by simp, ?_⟩
      refine spells_run_then.mpr ⟨margin, hmargin, Nat.zero_le _, _, rfl, ?_⟩
      refine spells_seq.mpr ⟨[], [], .inr ⟨rfl, rfl⟩, _, rfl, [], ?_, rfl⟩
      exact .inl (spells_text.mpr ⟨rfl, rfl⟩)
  rw [docstringLines]
  split
  · refine ⟨_, _, rfl, ?_⟩
    simp only [List.append_assoc]
    exact hopens _
  · refine ⟨_, _, rfl, ?_⟩
    simp only [List.append_assoc]
    exact hopens _

/-- The lines of a docstring are lines. -/
theorem not_feed_mem_docstringLines {margin name params d : Text}
    (hmargin : margin.all isIndent = true) (hname : '\n' ∉ name) (hparams : '\n' ∉ params)
    (h : d ∈ docstringLines margin name params) : '\n' ∉ d := by
  have hmargin' : '\n' ∉ margin := not_mem_of_all hmargin (by decide)
  -- The words of a name hold no line feed if the name holds none.
  have hwords {n : Text} (hn : '\n' ∉ n) : '\n' ∉ humanize n :=
    fun hmem => hn (mem_of_mem_humanize (by decide) (by decide) hmem)
  obtain ⟨s, s', hsplit, -⟩ := exists_dropAroundWhile (· == '_') name
  have hbare : '\n' ∉ dropAroundWhile (· == '_') name := fun hmem =>
    hname (hsplit ▸ List.mem_append_right s (List.mem_append_left s' hmem))
  have hsummary := hwords hbare
  rw [docstringLines] at h
  split at h
  · obtain rfl := List.mem_singleton.mp h
    simp [hmargin', hsummary]
  · simp only [List.mem_append, List.mem_cons, List.mem_map, List.not_mem_nil, or_false] at h
    rcases h with ((rfl | rfl | rfl) | ⟨n, hn, rfl⟩) | rfl
    · simp [hmargin', hsummary]
    · exact List.not_mem_nil
    · simp [hmargin']
    · obtain ⟨p, hp, hdocumented⟩ := List.mem_filterMap.mp hn
      have hn' : '\n' ∉ n := fun hmem =>
        hparams (subset_of_mem_splitParams hp ((documentedParam?_spec hdocumented).1 hmem))
      simp [hmargin', hn', hwords hn']
    · simp [hmargin']

/-! ### Lines with docstrings -/

/-- The indentation of a line is made of spaces and tabs. -/
theorem indentOf_spec (l : Text) : (indentOf l).all isIndent = true :=
  List.all_takeWhile

/-- The lines that a definition needs: none, or those of a docstring for a header. -/
theorem missingDocstring_cases (l : Text) (ls : List Text) : missingDocstring l ls = [] ∨
    ∃ margin name params, margin.all isIndent = true ∧ name <:+: l ∧ params <:+: l ∧
      missingDocstring l ls = docstringLines margin name params := by
  rw [missingDocstring]
  split
  · exact .inl rfl
  · next m hm =>
    split
    · exact .inl rfl
    · next body hbody =>
      dsimp only
      split
      · exact .inl rfl
      · -- What a match remembers is a part of the line.
        have hgroup (n : Nat) : m.group n <:+: l := by
          cases hdef : defLine.matchStart? l with
          | none =>
            rw [hdef] at hm
            exact group_infix (c := Cursor.start l) hm n
          | some m' =>
            rw [hdef] at hm
            obtain rfl : m' = m := Option.some.inj hm
            exact group_infix (c := Cursor.start l) hdef n
        exact .inr ⟨_, _, _, indentOf_spec body, hgroup 2, hgroup 3, rfl⟩

/-- No line of a docstring is a definition. -/
theorem not_isHead_of_mem_missingDocstring {l d : Text} {ls : List Text}
    (h : d ∈ missingDocstring l ls) : ¬IsHead d := by
  rcases missingDocstring_cases l ls with hnone | ⟨margin, name, params, hmargin, -, -, heq⟩
  · rw [hnone] at h
    cases h
  · exact not_isHead_of_mem_docstringLines hmargin (heq ▸ h)

/-- Where the body begins with a docstring, or the same line as before, nothing is missing that was
not missing before. -/
theorem missingDocstring_congr (l : Text) {ls ls' : List Text}
    (h : ls.find? (fun l => !allBlank l) = ls'.find? (fun l => !allBlank l)) :
    missingDocstring l ls = missingDocstring l ls' := by
  rw [missingDocstring, missingDocstring, h]

/-- A definition with a docstring behind it misses none. -/
theorem missingDocstring_of_isStart {d : Text} (hvisible : allBlank d = false)
    (hstart : docstringStart.isStart d = true) (l : Text) (ls : List Text) :
    missingDocstring l (d :: ls) = [] := by
  have hfirst : (d :: ls).find? (fun l => !allBlank l) = some d :=
    List.find?_cons_of_pos (by rw [hvisible]; rfl)
  rw [missingDocstring]
  split
  · rfl
  · rw [hfirst]
    dsimp only
    rw [hstart, Bool.or_true, if_pos rfl]

/-- The first line of the body stays the first one. -/
theorem find?_documentLines (ls : List Text) :
    (documentLines ls).find? (fun l => !allBlank l) = ls.find? (fun l => !allBlank l) := by
  induction ls with
  | nil => rfl
  | cons l ls ih =>
    rw [documentLines, List.cons_append]
    cases hblank : allBlank l with
    | true =>
      rw [missingDocstring_of_not_isHead (not_isHead_of_allBlank hblank), List.nil_append,
        List.find?_cons_of_neg (by rw [hblank]; decide), ih,
        List.find?_cons_of_neg (by rw [hblank]; decide)]
    | false =>
      rw [List.find?_cons_of_pos (by rw [hblank]; rfl),
        List.find?_cons_of_pos (by rw [hblank]; rfl)]

/-- Lines that are no headers are passed over. -/
theorem documentLines_append {ds : List Text} (h : ∀ d ∈ ds, ¬IsHead d) (ls : List Text) :
    documentLines (ds ++ ls) = ds ++ documentLines ls := by
  induction ds with
  | nil => rfl
  | cons d ds ih =>
    rw [List.forall_mem_cons] at h
    rw [List.cons_append, documentLines, missingDocstring_of_not_isHead h.1, ih h.2]
    rfl

/-- A definition that has got its docstring needs none. -/
theorem missingDocstring_documented (l : Text) (ls : List Text) :
    missingDocstring l (missingDocstring l ls ++ documentLines ls) = [] := by
  rcases missingDocstring_cases l ls with hnone | ⟨margin, name, params, hmargin, -, -, heq⟩
  · rw [hnone, List.nil_append, missingDocstring_congr l (find?_documentLines ls), hnone]
  · obtain ⟨d, ds, hd, hvisible, hstart⟩ := exists_docstringLines_cons hmargin name params
    rw [heq, hd, List.cons_append]
    exact missingDocstring_of_isStart hvisible hstart l _

/-- Once the lines have docstrings no more are put in: what has been put in begins as a docstring,
and is no definition. -/
theorem documentLines_documentLines (ls : List Text) :
    documentLines (documentLines ls) = documentLines ls := by
  induction ls with
  | nil => rfl
  | cons l ls ih =>
    calc documentLines (documentLines (l :: ls))
        = l :: missingDocstring l (missingDocstring l ls ++ documentLines ls) ++
            documentLines (missingDocstring l ls ++ documentLines ls) := by
          rw [documentLines, List.cons_append, documentLines]
      _ = l :: missingDocstring l ls ++ documentLines ls := by
          rw [missingDocstring_documented, List.cons_append, List.nil_append,
            documentLines_append (fun _ => not_isHead_of_mem_missingDocstring), ih]
          rfl
      _ = documentLines (l :: ls) := by rw [documentLines]

/-- All lines stay, in order. -/
theorem sublist_documentLines (ls : List Text) : ls.Sublist (documentLines ls) := by
  induction ls with
  | nil => exact .slnil
  | cons l ls ih =>
    rw [documentLines, List.cons_append]
    exact (List.sublist_append_of_sublist_right ih).cons_cons l

/-- The new lines are lines. -/
theorem not_mem_documentLines {ls : List Text} (h : ∀ l ∈ ls, '\n' ∉ l) :
    ∀ l ∈ documentLines ls, '\n' ∉ l := by
  induction ls with
  | nil => exact fun _ hl => absurd hl List.not_mem_nil
  | cons l ls ih =>
    rw [List.forall_mem_cons] at h
    rw [documentLines, List.cons_append, List.forall_mem_cons]
    refine ⟨h.1, fun d hd => ?_⟩
    rcases List.mem_append.mp hd with hd | hd
    · rcases missingDocstring_cases l ls with
        hnone | ⟨margin, name, params, hmargin, hname, hparams, heq⟩
      · rw [hnone] at hd
        cases hd
      · exact not_feed_mem_docstringLines hmargin (fun hmem => h.1 (hname.subset hmem))
          (fun hmem => h.1 (hparams.subset hmem)) (heq ▸ hd)
    · exact ih h.2 d hd

/-- The lines of the new text. -/
theorem lines_addDocstrings (t : Text) : lines (addDocstrings t) = documentLines (lines t) := by
  refine lines_unlines (fun hnil => ?_)
    (not_mem_documentLines fun _ hl => not_mem_of_mem_lines hl)
  have hsub := sublist_documentLines (lines t)
  rw [hnil, List.sublist_nil] at hsub
  exact lines_ne_nil t hsub

/-- A second time no docstring is added. -/
theorem addDocstrings_addDocstrings (t : Text) :
    addDocstrings (addDocstrings t) = addDocstrings t := by
  rw [addDocstrings, lines_addDocstrings, documentLines_documentLines]
  rfl

/-! ### Annotations -/

section

variable {l before params after : Text}

/-- A line without return annotation has none, however its end is read. -/
theorem Concludes.eq_nil {ret : Text} (h : Concludes [] after) (h' : Concludes ret after) :
    ret = [] := by
  refine h'.returns.resolve_right ?_
  rintro ⟨s, s', w, rfl, hs, -⟩
  obtain ⟨-, t, t', comment, hafter, ht, -⟩ := h
  obtain ⟨-, u, u', comment', hafter', -⟩ := h'
  have heq : t ++ ':' :: (t' ++ comment) =
      s ++ '-' :: ('>' :: (s' ++ w ++ (u ++ ':' :: (u' ++ comment')))) := by
    rw [List.nil_append] at hafter
    rw [← hafter, hafter']
    simp
  obtain ⟨-, hmarks⟩ := append_inj_of_all ht hs rfl rfl heq
  exact absurd (List.cons.inj hmarks).1 (by decide)

/-- A header with an annotation is kept. -/
theorem IsHeader.annotateLine_eq (h : IsHeader l before params after) (hl : '\n' ∉ l)
    (hannotated : ':' ∈ params ∨ ∃ ret, ret ≠ [] ∧ Concludes ret after) : annotateLine l = l := by
  rcases annotateLine_cases hl with
    heq | ⟨before', params', after', res, -, hheader, hnone, hcolon, -⟩
  · exact heq
  · obtain ⟨-, rfl, rfl⟩ := h.unique hheader
    rcases hannotated with hmem | ⟨ret, hne, hconcludes⟩
    · exact absurd hmem hcolon
    · exact absurd (hnone.eq_nil hconcludes) hne

/-- With an annotation put in, a header ends as headers do. -/
theorem Concludes.annotated {res : Text} (h : Concludes [] after) (hres : res ∈ results) :
    Concludes (" -> ".toList ++ res) (" -> ".toList ++ res ++ after) := by
  obtain ⟨-, s, s', comment, rfl, hs, hs', hcomment⟩ := h
  obtain ⟨-, hvisible, hcolon, -⟩ := results_spec hres
  exact ⟨.inr ⟨" ".toList, " ".toList, res, by simp, rfl, rfl, hvisible, hcolon⟩,
    s, s', comment, rfl, hs, hs', hcomment⟩

/-- An annotated line is kept: it is a header again, and has a return annotation or, if that was
put in front of the end of the parameters, a colon in them. -/
theorem annotateLine_annotateLine (hl : '\n' ∉ l) :
    annotateLine (annotateLine l) = annotateLine l := by
  rcases annotateLine_cases hl with heq | ⟨before, params, after, res, hres, hheader, hnone, -, heq⟩
  · rw [heq, heq]
  · have hnew := not_mem_annotateLine hl
    obtain ⟨s, rest, hafter, hs, hconcludes⟩ := exists_annotated hnone
    have hbefore : ')' ∉ before := by
      obtain ⟨e, hspells⟩ := hheader.front
      exact hspells.not_mem (by decide)
    have hflat := isFlat_annotated hheader.flat
    have hback := hnone.annotated hres
    rw [hafter] at heq hback
    rcases replaceFirst_returnAnnotation_cases hbefore hres hs heq.symm with
      hline | ⟨x, z, n, b, hjoined, hz, -, hn, hline⟩
    · have hheader' : IsHeader (annotateLine l) before _ _ :=
        ⟨hline, hheader.front, hflat, _, hconcludes res hres⟩
      exact hheader'.annotateLine_eq hnew (.inr ⟨_, by simp, hconcludes res hres⟩)
    · -- Neither what was there nor what stands there now opens or closes a parenthesis.
      have hplain : z.all (CharSet.except "()") = true :=
        all_except_iff.mpr (List.forall_mem_cons.mpr ⟨hz '(' (by decide),
          List.forall_mem_singleton.mpr (hz ')' (by decide))⟩)
      have hword : (" -> ".toList ++ n).all (CharSet.except "()") = true := by
        rw [List.all_append, all_except_of_all hn (by decide)]
        rfl
      have hflat' : IsFlat (x ++ ')' :: (" -> ".toList ++ n ++ ':' :: b)) := by
        have hsame (inside : Bool) : insideAfter? inside (" -> ".toList ++ n ++ ':' :: b) =
            insideAfter? inside (z ++ ':' :: b) := by
          rw [insideAfter?_append_left hword, insideAfter?_append_left hplain]
        have hclose (inside : Bool) :
            insideAfter? inside (')' :: (" -> ".toList ++ n ++ ':' :: b)) =
            insideAfter? inside (')' :: (z ++ ':' :: b)) := by
          cases inside with
          | false => rfl
          | true => exact hsame false
        rw [hjoined, IsFlat, insideAfter?_append] at hflat
        rw [IsFlat, insideAfter?_append, ← hflat]
        exact Option.bind_congr fun inside _ => hclose inside
      have hheader' : IsHeader (annotateLine l) before
          (x ++ ')' :: (" -> ".toList ++ n ++ ':' :: b))
            (" -> ".toList ++ res ++ (s ++ ':' :: rest)) := by
        refine ⟨?_, hheader.front, hflat', _, hback⟩
        rw [hline]
        simp
      exact hheader'.annotateLine_eq hnew (.inl (by simp))

end

/-- A second time no hint is added. -/
theorem addTypeHints_addTypeHints (t : Text) : addTypeHints (addTypeHints t) = addTypeHints t := by
  rw [addTypeHints, lines_addTypeHints, List.map_map]
  refine congrArg unlines (List.map_congr_left fun l hl => ?_)
  exact annotateLine_annotateLine (not_mem_of_mem_lines hl)

/-- Annotating twice is annotating once, for annotations of parameters and for docstrings, and the
pass for docstrings does nothing but put lines in. -/
theorem annotating_idempotent (t : Text) :
    addTypeHints (addTypeHints t) = addTypeHints t ∧
      addDocstrings (addDocstrings t) = addDocstrings t ∧
      (lines t).Sublist (lines (addDocstrings t)) := by
  refine ⟨addTypeHints_addTypeHints t, addDocstrings_addDocstrings t, ?_⟩
  rw [lines_addDocstrings]
  exact sublist_documentLines (lines t)

end CodeTidy.Python
