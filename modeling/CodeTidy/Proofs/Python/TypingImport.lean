import CodeTidy.Proofs.Constant.Names
import CodeTidy.Proofs.Pattern.Leads
import CodeTidy.Proofs.Pattern.Spells
import CodeTidy.Proofs.Text.Pieces
import CodeTidy.Python.Header

/-!
# `CodeTidy.Proofs.Python.TypingImport`: the names that a file imports from `typing`

The rest of the line of the import is cut at its commas, the needed names are added, and
all of it is sorted. A comment is not told from a name: the last name in front of it and
the comment are one entry, and so are the pieces of a comment that has commas itself.
If nothing is added, the line stays. Otherwise the sorted entries are read up to the first
one with a comment, so a name stays listed if it comes before all entries with a comment,
or is the one in front of the first comment. The theorems:

* `entries_beforeComment`: the names in front of a comment, by the entries.
* `entries_joinWith`: entries that are put together are read again.
* `mem_uncommented_iff`: what is read of entries in alphabetical order.
* `find?_typingImport`: the import that is found is the first one.
* `addImports_keeps_iff`: when all names are still listed, and the needed ones are.
-/

set_option autoImplicit false

namespace CodeTidy.Python

open Pattern Text

/-! ### Names and comments -/

/-- The pieces between the commas, without the white space around them. -/
def entries (names : Text) : List Text := (splitAtEach (· == ',') names).map trim

/-- What stands in front of a comment. -/
def beforeComment (t : Text) : Text := t.takeWhile (· != '#')

/-- The names that are listed in front of a comment. -/
def importedNames (names : Text) : List Text :=
  (entries (beforeComment names)).filter (fun n => !n.isEmpty)

/-- The pieces up to the first comment in them. -/
def uncommented : List Text → List Text
  | [] => []
  | e :: es => if '#' ∈ e then [beforeComment e] else e :: uncommented es

/-- A character other than a hash is in front of the comment. -/
theorem beforeComment_cons {c : Char} (hc : c ≠ '#') (t : Text) :
    beforeComment (c :: t) = c :: beforeComment t :=
  List.takeWhile_cons_of_pos (bne_iff_ne.mpr hc)

/-- A part without a hash is in front of the comment. -/
theorem beforeComment_append {s t : Text} (hs : '#' ∉ s) :
    beforeComment (s ++ t) = s ++ beforeComment t :=
  List.takeWhile_append_of_pos fun _ hc => bne_iff_ne.mpr (ne_of_mem_of_not_mem hc hs)

/-- A text without a hash has no comment. -/
theorem beforeComment_of_not_mem {t : Text} (h : '#' ∉ t) : beforeComment t = t :=
  List.takeWhile_eq_self_iff.mpr fun _ hc => bne_iff_ne.mpr (ne_of_mem_of_not_mem hc h)

/-- What stands behind a comment is not in front of it. -/
theorem beforeComment_append_of_mem {t : Text} (ht : '#' ∈ t) (s : Text) :
    beforeComment (t ++ s) = beforeComment t := by
  induction t with
  | nil => cases ht
  | cons c t ih =>
    by_cases hc : c = '#'
    · subst hc
      rfl
    · have hmem : '#' ∈ t := (List.mem_cons.mp ht).resolve_left (Ne.symm hc)
      rw [List.cons_append, beforeComment_cons hc, beforeComment_cons hc, ih hmem]

/-- White space holds no visible character. -/
theorem not_mem_of_blank {s : Text} {c : Char} (hs : s.all isBlank = true)
    (hc : isBlank c = false) : c ∉ s := fun h => by
  rw [List.all_eq_true.mp hs c h] at hc
  cases hc

/-- White space around a text hides none of its visible characters. -/
theorem mem_trim_iff {c : Char} (hc : isBlank c = false) {t : Text} : c ∈ trim t ↔ c ∈ t := by
  obtain ⟨s, s', ht, hs, hs'⟩ := exists_blanks_around t
  constructor
  · exact fun h => trim_subset t h
  · intro h
    rw [ht, List.mem_append, List.mem_append] at h
    exact (h.resolve_left (not_mem_of_blank hs hc)).resolve_right (not_mem_of_blank hs' hc)

/-- White space around a piece with a comment does not matter to what stands in front of the
comment. -/
theorem trim_beforeComment_trim {t : Text} (h : '#' ∈ t) :
    trim (beforeComment (trim t)) = trim (beforeComment t) := by
  have hhash : isBlank '#' = false := by decide
  obtain ⟨s, s', ht, hs, -⟩ := exists_blanks_around t
  have hbefore : beforeComment t = s ++ beforeComment (trim t) := by
    conv_lhs => rw [ht]
    rw [beforeComment_append (not_mem_of_blank hs hhash),
      beforeComment_append_of_mem ((mem_trim_iff hhash).mpr h)]
  rw [hbefore, trim_blanks_append hs]

/-- Nor does it matter to which pieces are read. -/
theorem map_trim_uncommented (ws : List Text) :
    (uncommented (ws.map trim)).map trim = (uncommented ws).map trim := by
  induction ws with
  | nil => rfl
  | cons w ws ih =>
    have hiff : '#' ∈ trim w ↔ '#' ∈ w := mem_trim_iff (by decide)
    rw [List.map_cons, uncommented, uncommented]
    by_cases hw : '#' ∈ w
    · rw [if_pos hw, if_pos (hiff.mpr hw), List.map_singleton, List.map_singleton,
        trim_beforeComment_trim hw]
    · rw [if_neg hw, if_neg (mt hiff.mp hw), List.map_cons, List.map_cons, trim_trim, ih]

/-- To cut what stands in front of the comment is to cut the text, and to read up to the first piece
with a comment. -/
theorem splitAtEach_beforeComment (t : Text) :
    splitAtEach (· == ',') (beforeComment t) = uncommented (splitAtEach (· == ',') t) := by
  induction t with
  | nil => rfl
  | cons c t ih =>
    obtain ⟨w, ws, hws⟩ := List.exists_cons_of_ne_nil (splitAtEach_ne_nil (· == ',') t)
    by_cases hhash : c = '#'
    · subst hhash
      rw [splitAtEach_cons, hws]
      rfl
    · have hiff : '#' ∈ c :: w ↔ '#' ∈ w := by simp [Ne.symm hhash]
      rw [beforeComment_cons hhash, splitAtEach_cons, splitAtEach_cons, ih]
      split
      · rfl
      · rw [hws, uncommented, uncommented]
        by_cases hw : '#' ∈ w
        · rw [if_pos hw, if_pos (hiff.mpr hw), beforeComment_cons hhash]
        · rw [if_neg hw, if_neg (mt hiff.mp hw)]

/-- The names in front of a comment, by the entries of the whole line. -/
theorem entries_beforeComment (names : Text) :
    entries (beforeComment names) = (uncommented (entries names)).map trim := by
  rw [entries, entries, splitAtEach_beforeComment, map_trim_uncommented]

/-- Entries that are put together are read again. -/
theorem entries_joinWith {es : List Text} (hne : es ≠ []) (htrim : ∀ e ∈ es, trim e = e)
    (hcomma : ∀ e ∈ es, ',' ∉ e) : entries (joinWith ", " es) = es := by
  have hcut {w : Text} (hw : ',' ∉ w) : ∀ c ∈ w, (c == ',') = false := fun _ hc =>
    beq_false_of_ne (ne_of_mem_of_not_mem hc hw)
  induction es with
  | nil => exact absurd rfl hne
  | cons e es ih =>
    rw [List.forall_mem_cons] at htrim hcomma
    cases es with
    | nil =>
      rw [joinWith_singleton, entries, splitAtEach_eq_singleton (hcut hcomma.1),
        List.map_singleton, htrim.1]
    | cons d es =>
      have hrest := ih (List.cons_ne_nil d es) htrim.2 hcomma.2
      -- The space behind a comma is trimmed off the entry that it stands in front of.
      have hspace (u : Text) : entries (' ' :: u) = entries u := by
        obtain ⟨w, ws, hws⟩ := List.exists_cons_of_ne_nil (splitAtEach_ne_nil (· == ',') u)
        rw [entries, splitAtEach_cons, hws, entries, hws]
        exact congrArg (· :: ws.map trim) (trim_blanks_append (s := [' ']) (by decide) w)
      rw [joinWith_cons_cons]
      show entries (e ++ ',' :: (' ' :: joinWith ", " (d :: es))) = _
      rw [entries, splitAtEach_append (hcut hcomma.1) rfl, List.map_cons, htrim.1, ← entries,
        hspace, hrest]

/-! ### Names in alphabetical order -/

/-- Sorting keeps the names that there are. -/
theorem mem_sortedNames {es : List Text} {e : Text} : e ∈ sortedNames es ↔ e ∈ es := by
  rw [sortedNames, List.mem_mergeSort, List.mem_eraseDups]

/-- Each name comes before all names behind it. -/
theorem pairwise_sortedNames (es : List Text) : (sortedNames es).Pairwise (· < ·) := by
  have hsorted : (sortedNames es).Pairwise (fun a b => (!decide (b < a)) = true) := by
    refine List.pairwise_mergeSort (fun a b c hab hbc => ?_) (fun a b => ?_) _
    · rw [Bool.not_eq_true', decide_eq_false_iff_not] at hab hbc ⊢
      exact List.le_trans hab hbc
    · rw [Bool.or_eq_true, Bool.not_eq_true', decide_eq_false_iff_not, Bool.not_eq_true',
        decide_eq_false_iff_not]
      exact List.le_total a b
  have hnodup : (sortedNames es).Nodup :=
    (List.mergeSort_perm _ _).nodup_iff.mpr (Constant.nodup_eraseDups es)
  refine hsorted.imp₂ (fun a b hab hne => ?_) hnodup
  rw [Bool.not_eq_true', decide_eq_false_iff_not] at hab
  by_contra hlt
  exact hne (List.le_antisymm hab hlt)

/-- Of entries in alphabetical order those are read that come before all entries with a comment,
and what the first of these holds in front of its comment. -/
theorem mem_uncommented_iff {es : List Text} (hes : es.Pairwise (· < ·)) {u : Text} :
    u ∈ uncommented es ↔ (u ∈ es ∧ ∀ d ∈ es, '#' ∈ d → u < d) ∨
      ∃ e ∈ es, '#' ∈ e ∧ (∀ d ∈ es, '#' ∈ d → ¬d < e) ∧ beforeComment e = u := by
  induction es with
  | nil => simp [uncommented]
  | cons e es ih =>
    rw [List.pairwise_cons] at hes
    obtain ⟨hfirst, hrest⟩ := hes
    rw [uncommented]
    -- The first entry ends the reading if it has a comment. Otherwise it is read, since it comes
    -- before all others.
    by_cases hhash : '#' ∈ e
    · rw [if_pos hhash, List.mem_singleton]
      constructor
      · rintro rfl
        refine .inr ⟨e, List.mem_cons_self, hhash, fun d hd _ => ?_, rfl⟩
        rcases List.mem_cons.mp hd with rfl | hd
        · exact List.lt_irrefl d
        · exact List.lt_asymm (hfirst d hd)
      · rintro (⟨hu, hlt⟩ | ⟨d, hd, -, hle, rfl⟩)
        · have hue := hlt e List.mem_cons_self hhash
          rcases List.mem_cons.mp hu with rfl | hu
          · exact absurd hue (List.lt_irrefl u)
          · exact absurd hue (List.lt_asymm (hfirst u hu))
        · rcases List.mem_cons.mp hd with rfl | hd
          · rfl
          · exact absurd (hfirst d hd) (hle e List.mem_cons_self hhash)
    · have hforall {P : Text → Prop} :
          (∀ d ∈ e :: es, '#' ∈ d → P d) ↔ ∀ d ∈ es, '#' ∈ d → P d := by
        rw [List.forall_mem_cons]
        exact and_iff_right fun h => absurd h hhash
      rw [if_neg hhash, List.mem_cons, ih hrest]
      simp only [hforall]
      constructor
      · rintro (rfl | ⟨hu, hlt⟩ | ⟨d, hd, hcomment⟩)
        · exact .inl ⟨List.mem_cons_self, fun d hd _ => hfirst d hd⟩
        · exact .inl ⟨List.mem_cons_of_mem e hu, hlt⟩
        · exact .inr ⟨d, List.mem_cons_of_mem e hd, hcomment⟩
      · rintro (⟨hu, hlt⟩ | ⟨d, hd, hmem, hcomment⟩)
        · rcases List.mem_cons.mp hu with rfl | hu
          · exact .inl rfl
          · exact .inr (.inl ⟨hu, hlt⟩)
        · have hbehind : d ∈ es :=
            (List.mem_cons.mp hd).resolve_left (by rintro rfl; exact hhash hmem)
          exact .inr (.inr ⟨d, hbehind, hmem, hcomment⟩)

/-- The name is still listed when the entries have been sorted: it comes before all entries with a
comment, or the first of these holds it in front of its comment. -/
def StaysListed (es : List Text) (n : Text) : Prop :=
  (n ∈ es ∧ ∀ d ∈ es, '#' ∈ d → n < d) ∨
    ∃ e ∈ es, '#' ∈ e ∧ (∀ d ∈ es, '#' ∈ d → ¬d < e) ∧ trim (beforeComment e) = n

instance (es : List Text) (n : Text) : Decidable (StaysListed es n) :=
  inferInstanceAs (Decidable (_ ∨ _))

/-- A name is read of sorted entries exactly if it stays listed among them. -/
theorem mem_importedNames_sortedNames {es : List Text} (hne : es ≠ [])
    (htrim : ∀ e ∈ es, trim e = e) (hcomma : ∀ e ∈ es, ',' ∉ e) {n : Text} (hn : n ≠ []) :
    n ∈ importedNames (joinWith ", " (sortedNames es)) ↔ StaysListed es n := by
  have hsorted : sortedNames es ≠ [] := by
    obtain ⟨e, he⟩ := List.exists_mem_of_ne_nil es hne
    exact List.ne_nil_of_mem (mem_sortedNames.mpr he)
  -- The sorted entries are read back from the line, and their names from them.
  have hentries : entries (joinWith ", " (sortedNames es)) = sortedNames es :=
    entries_joinWith hsorted (fun e he => htrim e (mem_sortedNames.mp he))
      (fun e he => hcomma e (mem_sortedNames.mp he))
  rw [importedNames, entries_beforeComment, hentries, List.mem_filter, List.mem_map]
  simp only [mem_uncommented_iff (pairwise_sortedNames es), mem_sortedNames]
  constructor
  · rintro ⟨⟨u, ⟨hu, hlt⟩ | ⟨e, he, hmem, hle, rfl⟩, rfl⟩, -⟩
    · rw [htrim u hu]
      exact .inl ⟨hu, hlt⟩
    · exact .inr ⟨e, he, hmem, hle, rfl⟩
  · intro h
    refine ⟨?_, by simpa using hn⟩
    rcases h with ⟨hmem, hlt⟩ | ⟨e, he, hmem, hle, rfl⟩
    · exact ⟨n, .inl ⟨hmem, hlt⟩, htrim n hmem⟩
    · exact ⟨_, .inr ⟨e, he, hmem, hle, rfl⟩, rfl⟩

/-! ### The first import -/

/-- Some white space. -/
def IsGap (s : Text) : Prop := s ≠ [] ∧ s.all isBlank = true

/-- The text is an import of names from `typing`, without parentheses around the names. -/
def ImportsTyping (line names : Text) : Prop :=
  ∃ s₁ s₂ s₃, IsGap s₁ ∧ IsGap s₂ ∧ IsGap s₃ ∧
    names ≠ [] ∧ (∀ c ∈ "()\n".toList, c ∉ names) ∧
    line = "from" ++ (s₁ ++ ("typing" ++ (s₂ ++ ("import" ++ (s₃ ++ names)))))

/-- In the text `u` stands between `v` and `r`, from the start of a line to the end of one. -/
structure IsWholeLine (t v u r : Text) : Prop where
  text_eq : t = v ++ (u ++ r)
  starts : v.getLast?.all (· == '\n') = true
  ends : r.head?.all (· == '\n') = true

/-- The first import of the text from `typing` without parentheses is `line`, behind `v`. -/
structure IsFirstImport (t v line names r : Text) : Prop extends IsWholeLine t v line r where
  imports : ImportsTyping line names
  visible : names.head?.any isBlank = false
  first : ∀ w line' names' r', IsWholeLine t w line' r' → ImportsTyping line' names' →
    v.length ≤ w.length

section

variable {t v line names r : Text}

/-- A gap is not empty. -/
theorem one_le_length_of_isGap {s : Text} (h : IsGap s) : 1 ≤ s.length :=
  List.length_pos_iff.mpr h.1

/-- The pattern matches at an import that takes a whole line, up to the end of that line. -/
theorem matchesBehind_of_importsTyping (h : IsWholeLine t v line r)
    (himports : ImportsTyping line names) (hvisible : names.head?.any isBlank = false) :
    ∃ m, MatchesBehind typingImport t v m ∧ m.group 1 = names ∧ m.start.pos = v.length ∧
      m.stop.after = r := by
  obtain ⟨s₁, s₂, s₃, hs₁, hs₂, hs₃, hne, hnames, rfl⟩ := himports
  obtain ⟨c, hv, hc⟩ := Cursor.exists_reads (c := Cursor.start t) h.text_eq
  simp only [List.append_assoc] at hc
  obtain ⟨c₁, h₁, hc₁⟩ := Cursor.exists_reads hc
  obtain ⟨c₂, h₂, hc₂⟩ := Cursor.exists_reads hc₁
  obtain ⟨c₃, h₃, hc₃⟩ := Cursor.exists_reads hc₂
  obtain ⟨c₄, h₄, hc₄⟩ := Cursor.exists_reads hc₃
  obtain ⟨c₅, h₅, hc₅⟩ := Cursor.exists_reads hc₄
  obtain ⟨c₆, h₆, hc₆⟩ := Cursor.exists_reads hc₅
  obtain ⟨c₇, h₇, rfl⟩ := Cursor.exists_reads hc₆
  -- Each run of white space ends in front of a word, and the names end with the line.
  have hstart : c.atLineStart = true := by
    rw [Cursor.atLineStart, hv.before_eq, Cursor.start, List.append_nil, List.head?_reverse]
    exact h.starts
  have hend₂ : c₂.after.head?.any isBlank = false := by
    rw [hc₂]
    show isBlank 't' = false
    decide
  have hend₄ : c₄.after.head?.any isBlank = false := by
    rw [hc₄]
    show isBlank 'i' = false
    decide
  have hend₆ : c₆.after.head?.any isBlank = false := by
    rw [hc₆]
    obtain ⟨a, names, rfl⟩ := List.exists_cons_of_ne_nil hne
    exact hvisible
  have hend₇ : c₇.after.head?.any (CharSet.except "()\n") = false := by
    cases hafter : c₇.after with
    | nil => rfl
    | cons a r =>
      have ha : a = '\n' := by simpa [hafter] using h.ends
      subst ha
      show CharSet.except "()\n" '\n' = false
      decide
  have hleads : Leads typingImport c [] c₇ [(1, ⟨c₆, c₇⟩)] :=
    (leads_place hstart).both <| (leads_text h₁).both <|
      (leads_run hs₁.2 (one_le_length_of_isGap hs₁) h₂ hend₂).both <| (leads_text h₃).both <|
      (leads_run hs₂.2 (one_le_length_of_isGap hs₂) h₄ hend₄).both <| (leads_text h₅).both <|
      (leads_run hs₃.2 (one_le_length_of_isGap hs₃) h₆ hend₆).both <|
      (leads_run (all_except_iff.mpr hnames) (List.length_pos_iff.mpr hne) h₇ hend₇).group.both
        (leads_place h.ends)
  refine ⟨⟨c, c₇, [(1, ⟨c₆, c₇⟩)]⟩, ⟨hv, hleads.matchAt?⟩, h₇.take_eq, ?_, rfl⟩
  show c.pos = v.length
  rw [hv.pos_eq]
  exact Nat.zero_add _

/-- Where the pattern matches, an import takes a whole line. -/
theorem importsTyping_of_matchesBehind {m : Match} (h : MatchesBehind typingImport t v m) :
    ∃ line names r, IsWholeLine t v line r ∧ ImportsTyping line names := by
  obtain ⟨c₁, caps₁, ⟨hstart, -, -⟩, -⟩ := h.takes
  obtain ⟨c₂, caps₂, hend, hc₂, -⟩ := takes_seq_last (List.cons_ne_nil _ _) h.takes
  obtain ⟨u, hu, hspells⟩ := h.takes.spells
  simp only [typingImport, lineStart, lineEnd, spells_place_then, spells_text_then, space1, many1,
    spells_run_then, spells_group_then, spells_run, spells_seq_one, spells_place] at hspells
  obtain ⟨-, rfl, s₁, hs₁, hlen₁, -, rfl, -, rfl, s₂, hs₂, hlen₂, -, rfl, -, rfl, s₃, hs₃, hlen₃,
    -, rfl, names, -, ⟨hnames, hlen, -⟩, -, rfl, rfl, -⟩ := hspells
  rw [List.append_nil] at hu
  -- The pattern asks for the white space that a gap is made of.
  have hgap {s : Text} (hs : s.all isBlank = true) (hlen : 1 ≤ s.length) : IsGap s :=
    ⟨List.length_pos_iff.mp hlen, hs⟩
  refine ⟨_, names, m.stop.after, ⟨?_, ?_, ?_⟩, s₁, s₂, s₃, hgap hs₁ hlen₁, hgap hs₂ hlen₂,
    hgap hs₃ hlen₃, List.length_pos_iff.mp hlen, all_except_iff.mp hnames, rfl⟩
  · exact (h.1.trans hu).after_eq.trans (List.append_assoc _ _ _)
  · rw [Cursor.atLineStart, h.1.before_eq, Cursor.start, List.append_nil, List.head?_reverse]
      at hstart
    exact hstart
  · rw [hc₂]
    exact hend

/-- The search finds the first import. -/
theorem find?_typingImport (h : IsFirstImport t v line names r) :
    ∃ m, typingImport.find? t = some m ∧ m.group 1 = names ∧ m.start.pos = v.length ∧
      m.stop.after = r := by
  obtain ⟨m, hm, hgroup, hstart, hstop⟩ :=
    matchesBehind_of_importsTyping h.toIsWholeLine h.imports h.visible
  refine ⟨m, find?_eq_some_of_first hm fun w m' hm' => ?_, hgroup, hstart, hstop⟩
  obtain ⟨line', names', r', hwhole, himports⟩ := importsTyping_of_matchesBehind hm'
  exact h.first w line' names' r' hwhole himports

/-! ### What the pass makes of the import -/

/-- The needed names that are no entries of the line. -/
def missingNames (names : Text) (needed : List Text) : List Text :=
  needed.filter (fun n => !(entries names).elem n)

/-- The names of the line and the needed ones are in front of a comment when the line is done. -/
def KeepsNames (names : Text) (needed : List Text) : Prop :=
  if missingNames names needed = [] then ∀ n ∈ needed, n ∈ importedNames names
  else ∀ n ∈ importedNames names ++ needed,
    StaysListed (entries names ++ missingNames names needed) n

instance (names : Text) (needed : List Text) : Decidable (KeepsNames names needed) :=
  if h : missingNames names needed = [] then
    decidable_of_iff (∀ n ∈ needed, n ∈ importedNames names) (by rw [KeepsNames, if_pos h])
  else
    decidable_of_iff (∀ n ∈ importedNames names ++ needed,
      StaysListed (entries names ++ missingNames names needed) n) (by rw [KeepsNames, if_neg h])

/-- What becomes of a text with an import: the names that are needed are sorted into its line, if
there are any that it lacks. -/
theorem importTyping_eq (h : IsFirstImport t v line names r) :
    importTyping t = if missingNames names (neededNames t) = [] then t
      else v ++ (("from typing import " ++
        joinWith ", "
          (sortedNames (entries names ++ missingNames names (neededNames t)))) ++ r) := by
  obtain ⟨m, hfind, rfl, hstart, hstop⟩ := find?_typingImport h
  have hbefore : t.take v.length = v := by rw [h.text_eq, List.take_left]
  simp only [importTyping, hfind, hstart, hstop, hbefore, List.append_assoc]
  by_cases hmissing : missingNames (m.group 1) (neededNames t) = []
  · rw [if_pos hmissing]
    exact if_pos (List.isEmpty_iff.mpr hmissing)
  · rw [if_neg hmissing]
    exact if_neg (mt List.isEmpty_iff.mp hmissing)

/-- The text stays, or gets the line `import ast`. -/
theorem importAst_cases (t : Text) :
    importAst t = t ∨ ∃ n, lines (importAst t) = insertAt n ["import ast"] (lines t) := by
  rw [importAst]
  split
  · refine .inr ⟨importEnd (lines t), lines_unlines ?_ fun l hl => ?_⟩
    · simp [insertAt]
    · rw [insertAt, List.append_assoc, List.mem_append, List.mem_append, List.mem_singleton] at hl
      rcases hl with hl | rfl | hl
      · exact not_mem_of_mem_lines (List.mem_of_mem_take hl)
      · decide
      · exact not_mem_of_mem_lines (List.mem_of_mem_drop hl)
  · exact .inl rfl

/-- The names that the pass adds are names and nothing else. -/
theorem neededNames_spec {n : Text} (h : n ∈ neededNames t) :
    n ≠ [] ∧ trim n = n ∧ ∀ c ∈ ",()\n#".toList, c ∉ n := by
  have hall : ∀ n ∈ ["Any".toList, "Optional".toList],
      n ≠ [] ∧ trim n = n ∧ ∀ c ∈ ",()\n#".toList, c ∉ n := by decide
  exact hall n (List.mem_of_mem_filter h)

/-- An entry is trimmed, holds no comma, and consists of characters of the list. -/
theorem entries_spec {e : Text} (h : e ∈ entries names) :
    trim e = e ∧ ',' ∉ e ∧ e ⊆ names := by
  obtain ⟨w, hw, rfl⟩ := List.mem_map.mp h
  have hmem {c : Char} (hc : c ∈ trim w) := mem_of_mem_splitAtEach hw (trim_subset w hc)
  exact ⟨trim_trim w, fun hc => absurd (hmem hc).2 (by decide), fun c hc => (hmem hc).1⟩

/-- There always is an entry, even if it is empty. -/
theorem entries_ne_nil (names : Text) : entries names ≠ [] :=
  mt List.map_eq_nil_iff.mp (splitAtEach_ne_nil _ names)

/-- The names that are listed are not empty. -/
theorem ne_nil_of_mem_importedNames {n : Text} (h : n ∈ importedNames names) : n ≠ [] := by
  rw [importedNames, List.mem_filter] at h
  simpa using h.2

/-- A needed name is listed already, or put in. -/
theorem mem_entries_or_missingNames {n : Text} {needed : List Text} (hn : n ∈ needed) :
    n ∈ entries names ∨ n ∈ missingNames names needed := by
  by_cases hin : n ∈ entries names
  · exact .inl hin
  · exact .inr (List.mem_filter.mpr ⟨hn, by simpa using hin⟩)

/-- Without a comment all names stay listed. -/
theorem keepsNames_of_not_mem (h : '#' ∉ names) : KeepsNames names (neededNames t) := by
  have himported : importedNames names = (entries names).filter (fun n => !n.isEmpty) := by
    rw [importedNames, beforeComment_of_not_mem h]
  rw [KeepsNames]
  split
  · rename_i hmissing
    intro n hn
    have hentry : n ∈ entries names := by
      rcases mem_entries_or_missingNames hn with hin | hin
      · exact hin
      · rw [hmissing] at hin
        cases hin
    rw [himported, List.mem_filter]
    exact ⟨hentry, by simpa using (neededNames_spec hn).1⟩
  · -- Neither the entries nor the names that are added hold a hash.
    intro n hn
    refine .inl ⟨?_, fun d hd hhash => ?_⟩
    · rw [himported] at hn
      rw [List.mem_append] at hn ⊢
      exact hn.elim (fun hn => .inl (List.mem_of_mem_filter hn)) mem_entries_or_missingNames
    · rcases List.mem_append.mp hd with hd | hd
      · exact absurd ((entries_spec hd).2.2 hhash) h
      · exact absurd hhash ((neededNames_spec (List.mem_of_mem_filter hd)).2.2 '#' (by decide))

/-- The line that the pass writes is an import of the names in it. -/
theorem importsTyping_sortedNames {es : List Text} (hvisible : ∃ e ∈ es, e ≠ [])
    (hclear : ∀ e ∈ es, ∀ c ∈ "()\n".toList, c ∉ e) :
    ImportsTyping ("from typing import " ++ joinWith ", " (sortedNames es))
      (joinWith ", " (sortedNames es)) := by
  have hgap : IsGap " " := ⟨List.cons_ne_nil _ _, by decide⟩
  have hsep : ∀ c ∈ "()\n".toList, c ∉ ", ".toList := by decide
  refine ⟨" ", " ", " ", hgap, hgap, hgap, fun hnil => ?_, fun c hc => ?_, rfl⟩
  · obtain ⟨e, he, hne⟩ := hvisible
    have hinfix : e <:+: joinWith ", " (sortedNames es) := infix_joinWith (mem_sortedNames.mpr he)
    rw [hnil] at hinfix
    exact hne (List.infix_nil.mp hinfix)
  · exact not_mem_joinWith (hsep c hc) fun e he => hclear e (mem_sortedNames.mp he) c hc

/-- The pass leaves the import where it is, as a line of its own. All the names in front of its
comment and those that are needed are listed in front of a comment there exactly if, of the sorted
entries, each of them comes before the entries with a comment, or is the name in the first of
these. -/
theorem addImports_keeps_iff (h : IsFirstImport t v line names r) :
    ∃ line' names' t', IsWholeLine t' v line' r ∧ ImportsTyping line' names' ∧
      (addImports t = t' ∨
        ∃ n, lines (addImports t) = insertAt n ["import ast"] (lines t')) ∧
      ((∀ n ∈ importedNames names ++ neededNames t, n ∈ importedNames names') ↔
        KeepsNames names (neededNames t)) ∧
      ('#' ∉ names → KeepsNames names (neededNames t)) := by
  by_cases hmissing : missingNames names (neededNames t) = []
  · -- No name is missing, so the line stays.
    have hsame : importTyping t = t := by rw [importTyping_eq h, if_pos hmissing]
    refine ⟨line, names, t, h.toIsWholeLine, h.imports, ?_, ?_, keepsNames_of_not_mem⟩
    · rw [addImports, hsame]
      exact importAst_cases t
    · rw [KeepsNames, if_pos hmissing, List.forall_mem_append]
      exact and_iff_right fun n hn => hn
  · have hnew := importTyping_eq h
    rw [if_neg hmissing] at hnew
    refine ⟨_, _, importTyping t, ⟨hnew, h.starts, h.ends⟩,
      importsTyping_sortedNames ?_ ?_, importAst_cases _, ?_, keepsNames_of_not_mem⟩
    · obtain ⟨n, hn⟩ := List.exists_mem_of_ne_nil _ hmissing
      exact ⟨n, List.mem_append_right _ hn, (neededNames_spec (List.mem_of_mem_filter hn)).1⟩
    · obtain ⟨_, _, _, -, -, -, -, hclear, -⟩ := h.imports
      intro e he
      rcases List.mem_append.mp he with he | he
      · exact fun c hc hmem => hclear c hc ((entries_spec he).2.2 hmem)
      · have hspec := (neededNames_spec (List.mem_of_mem_filter he)).2.2
        exact fun c hc => hspec c (by revert c; decide)
    · -- All entries are trimmed and hold no comma, so they are read back.
      have hspec : ∀ e ∈ entries names ++ missingNames names (neededNames t),
          trim e = e ∧ ',' ∉ e := by
        intro e he
        rcases List.mem_append.mp he with he | he
        · exact ⟨(entries_spec he).1, (entries_spec he).2.1⟩
        · obtain ⟨-, htrim, hclear⟩ := neededNames_spec (List.mem_of_mem_filter he)
          exact ⟨htrim, hclear ',' (by decide)⟩
      rw [KeepsNames, if_neg hmissing]
      refine forall₂_congr fun n hn => mem_importedNames_sortedNames
        (List.append_ne_nil_of_left_ne_nil (entries_ne_nil names) _) (fun e he => (hspec e he).1)
        (fun e he => (hspec e he).2) ?_
      rcases List.mem_append.mp hn with hn | hn
      · exact ne_nil_of_mem_importedNames hn
      · exact (neededNames_spec hn).1

end

/-- A module whose import has a comment behind the name that comes last in the alphabet. -/
def rowsModule : Text := "from typing import List, Tuple  # rows\nx: Optional[int] = 1"

/-- All names of the import stay in front of the comment, and the needed one is put there. -/
theorem addImports_keeps_rowsModule :
    IsFirstImport rowsModule [] "from typing import List, Tuple  # rows" "List, Tuple  # rows"
        "\nx: Optional[int] = 1" ∧
      KeepsNames "List, Tuple  # rows" (neededNames rowsModule) ∧
      ∃ line' names' t', IsWholeLine t' [] line' "\nx: Optional[int] = 1" ∧
        ImportsTyping line' names' ∧
        (addImports rowsModule = t' ∨
          ∃ n, lines (addImports rowsModule) = insertAt n ["import ast"] (lines t')) ∧
        ∀ n ∈ importedNames "List, Tuple  # rows" ++ neededNames rowsModule,
          n ∈ importedNames names' := by
  have hgap : IsGap " " := ⟨List.cons_ne_nil _ _, by decide⟩
  have hfirst : IsFirstImport rowsModule [] "from typing import List, Tuple  # rows"
      "List, Tuple  # rows" "\nx: Optional[int] = 1" :=
    ⟨⟨rfl, rfl, rfl⟩, ⟨" ", " ", " ", hgap, hgap, hgap, List.cons_ne_nil _ _, by decide, rfl⟩,
      by decide, fun _ _ _ _ _ _ => Nat.zero_le _⟩
  have hkeeps : KeepsNames "List, Tuple  # rows" (neededNames rowsModule) := by decide +kernel
  obtain ⟨line', names', t', hwhole, himports, hadd, hiff, -⟩ := addImports_keeps_iff hfirst
  exact ⟨hfirst, hkeeps, line', names', t', hwhole, himports, hadd, hiff.mpr hkeeps⟩

/-- A module whose import has a comment behind a name that comes before the needed one. -/
def namesModule : Text := "from typing import List  # names\nx: Optional[int] = 1"

/-- A name that is put in behind a comment becomes a part of it. -/
theorem addImports_adds_to_comment :
    neededNames namesModule = ["Optional".toList] ∧
      addImports namesModule =
        "from typing import List  # names, Optional\nx: Optional[int] = 1" ∧
      "Optional".toList ∉ importedNames "List  # names, Optional" := by
  have hgap : IsGap " " := ⟨List.cons_ne_nil _ _, by decide⟩
  have hfirst : IsFirstImport namesModule [] "from typing import List  # names" "List  # names"
      "\nx: Optional[int] = 1" :=
    ⟨⟨rfl, rfl, rfl⟩, ⟨" ", " ", " ", hgap, hgap, hgap, List.cons_ne_nil _ _, by decide, rfl⟩,
      by decide, fun _ _ _ _ _ _ => Nat.zero_le _⟩
  have hmissing : entries "List  # names" ++
      missingNames "List  # names" (neededNames namesModule) =
        ["List  # names".toList, "Optional".toList] := by decide +kernel
  have hsorted : sortedNames ["List  # names".toList, "Optional".toList] =
      ["List  # names".toList, "Optional".toList] := by
    have honce : ["List  # names".toList, "Optional".toList].eraseDups =
        ["List  # names".toList, "Optional".toList] := by decide
    rw [sortedNames, honce]
    exact List.mergeSort_of_pairwise (by decide)
  have hnew : importTyping namesModule =
      "from typing import List  # names, Optional\nx: Optional[int] = 1" := by
    rw [importTyping_eq hfirst, if_neg (by decide +kernel), hmissing, hsorted]
    decide
  refine ⟨by decide +kernel, ?_, by decide +kernel⟩
  rw [addImports, hnew]
  decide +kernel

end CodeTidy.Python
